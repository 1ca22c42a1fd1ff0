import ZenithRelay.Gateway.Execution.PayloadJson

/-!
# What tolerant parsing accepts

The second attempt undoes exactly the loosening of a JSON text, and never closes what
the text left open.
-/

set_option autoImplicit false

namespace ZenithRelay.Gateway.Execution

open Json

/-! ### Strings of a JSON text -/

/-- Quotes in pairs, no control character in a string, and only known escapes. -/
inductive Lexed : Bool → List Char → Prop
  | nil : Lexed false []
  | outside {character : Char} {rest : List Char} (unquoted : character ≠ '"')
      (more : Lexed false rest) : Lexed false (character :: rest)
  | opened {rest : List Char} (more : Lexed true rest) : Lexed false ('"' :: rest)
  | closed {rest : List Char} (more : Lexed false rest) : Lexed true ('"' :: rest)
  | plain {character : Char} {rest : List Char} (unquoted : character ≠ '"')
      (unescaped : character ≠ '\\') (printed : 0x20 ≤ character.toNat) (more : Lexed true rest) :
      Lexed true (character :: rest)
  | escape {character : Char} {rest : List Char} (known : isKnownEscape character = true)
      (more : Lexed true rest) : Lexed true ('\\' :: character :: rest)

theorem Lexed.append_outside {front rest : List Char} (unquoted : ∀ character ∈ front, character ≠ '"')
    (more : Lexed false rest) : Lexed false (front ++ rest) := by
  induction front with
  | nil => exact more
  | cons character front ih =>
      rw [List.forall_mem_cons] at unquoted
      exact .outside unquoted.1 (ih unquoted.2)

theorem isBlank_unquoted {gap : List Char} (all : gap.all isBlank = true) :
    ∀ character ∈ gap, character ≠ '"' := by
  rintro character member rfl
  exact absurd (List.all_eq_true.mp all _ member) (by decide)

private theorem isScalarChar_unquoted {token : List Char} (all : token.all isScalarChar = true) :
    ∀ character ∈ token, character ≠ '"' := by
  rintro character member rfl
  exact absurd (List.all_eq_true.mp all _ member) (by decide)

private theorem shortEscape_known {mark character : Char} (short : shortEscape mark = some character) :
    isKnownEscape mark = true := by
  unfold shortEscape at short
  split at short <;> first | rfl | cases short

theorem hexDigit_plain {digit : Char} {value : Nat} (hex : hexDigit digit = some value) :
    digit ≠ '"' ∧ digit ≠ '\\' ∧ 0x20 ≤ digit.toNat := by
  have high : 48 ≤ digit.toNat ∧ digit.toNat ≠ 92 := by
    unfold hexDigit at hex
    split at hex
    next decimal =>
      simp only [Char.isDigit, Bool.and_eq_true, decide_eq_true_eq, ge_iff_le,
        UInt32.le_iff_toNat_le] at decimal
      have same : digit.toNat = digit.val.toNat := rfl
      simp at decimal
      omega
    split at hex
    next lower =>
      simp only [Char.le_def, UInt32.le_iff_toNat_le] at lower
      have same : digit.toNat = digit.val.toNat := rfl
      simp at lower
      omega
    split at hex
    next upper =>
      simp only [Char.le_def, UInt32.le_iff_toNat_le] at upper
      have same : digit.toNat = digit.val.toNat := rfl
      simp at upper
      omega
    next => cases hex
  refine ⟨?_, ?_, by omega⟩
  · rintro rfl
    exact absurd high.1 (by decide)
  · rintro rfl
    exact high.2 rfl

theorem codeUnit_plain {a b c d : Char} {unit : Nat} (known : codeUnit a b c d = some unit)
    {rest : List Char} (more : Lexed true rest) : Lexed true (a :: b :: c :: d :: rest) := by
  unfold codeUnit at known
  obtain ⟨first, firstHex, known⟩ := Option.bind_eq_some_iff.mp known
  obtain ⟨second, secondHex, known⟩ := Option.bind_eq_some_iff.mp known
  obtain ⟨third, thirdHex, known⟩ := Option.bind_eq_some_iff.mp known
  obtain ⟨fourth, fourthHex, _⟩ := Option.bind_eq_some_iff.mp known
  obtain ⟨quoteA, slashA, printedA⟩ := hexDigit_plain firstHex
  obtain ⟨quoteB, slashB, printedB⟩ := hexDigit_plain secondHex
  obtain ⟨quoteC, slashC, printedC⟩ := hexDigit_plain thirdHex
  obtain ⟨quoteD, slashD, printedD⟩ := hexDigit_plain fourthHex
  exact .plain quoteA slashA printedA (.plain quoteB slashB printedB
    (.plain quoteC slashC printedC (.plain quoteD slashD printedD more)))

theorem body_of_escape {character : Char} {body : List Char}
    (lexed : Body ('\\' :: character :: body)) : Body body := by
  cases lexed with
  | plain _ unescaped _ => exact absurd rfl unescaped
  | escape rest => exact rest

theorem body_of_plain {character : Char} {body : List Char} (unescaped : character ≠ '\\')
    (lexed : Body (character :: body)) : Body body := by
  cases lexed with
  | plain _ _ rest => exact rest
  | escape => exact absurd rfl unescaped

theorem body_of_unit {a b c d : Char} {unit : Nat} (known : codeUnit a b c d = some unit)
    {body : List Char} (lexed : Body (a :: b :: c :: d :: body)) : Body body := by
  unfold codeUnit at known
  obtain ⟨first, firstHex, known⟩ := Option.bind_eq_some_iff.mp known
  obtain ⟨second, secondHex, known⟩ := Option.bind_eq_some_iff.mp known
  obtain ⟨third, thirdHex, known⟩ := Option.bind_eq_some_iff.mp known
  obtain ⟨fourth, fourthHex, _⟩ := Option.bind_eq_some_iff.mp known
  exact body_of_plain (hexDigit_plain fourthHex).2.1 (body_of_plain (hexDigit_plain thirdHex).2.1
    (body_of_plain (hexDigit_plain secondHex).2.1 (body_of_plain (hexDigit_plain firstHex).2.1 lexed)))

/-- A body that has a meaning holds printed characters and known escapes only. -/
private theorem lexed_of_body {body decoded : List Char} (lexed : Body body)
    (meaning : decodeBody body = some decoded) {rest : List Char} (more : Lexed false rest) :
    Lexed true (body ++ '"' :: rest) := by
  fun_induction decodeBody body generalizing decoded with
  | case1 => exact .closed more
  | case2 a b c d after unknown => cases meaning
  | case3 a b c d unit known high e f g h after unknown => cases meaning
  | case4 a b c d unit known high e f g h after low lowKnown isLow ih =>
      obtain ⟨_, found, _⟩ := Option.map_eq_some_iff.mp meaning
      have tail := body_of_unit lowKnown (body_of_escape (body_of_unit known (body_of_escape lexed)))
      exact .escape rfl (codeUnit_plain known (.escape rfl (codeUnit_plain lowKnown (ih tail found))))
  | case5 a b c d unit known high e f g h after low lowKnown notLow => cases meaning
  | case6 => cases meaning
  | case7 => cases meaning
  | case8 a b c d after unit known notHigh notLow ih =>
      obtain ⟨_, found, _⟩ := Option.map_eq_some_iff.mp meaning
      exact .escape rfl (codeUnit_plain known (ih (body_of_unit known (body_of_escape lexed)) found))
  | case9 => cases meaning
  | case10 mark after _ character short ih =>
      obtain ⟨_, found, _⟩ := Option.map_eq_some_iff.mp meaning
      exact .escape (shortEscape_known short) (ih (body_of_escape lexed) found)
  | case11 => cases meaning
  | case12 character after _ single printed ih =>
      obtain ⟨_, found, _⟩ := Option.map_eq_some_iff.mp meaning
      cases lexed with
      | plain unquoted unescaped body =>
          exact .plain unquoted unescaped (Nat.le_of_not_lt printed) (ih body found)
      | @escape next body => exact absurd rfl (single next body rfl)

theorem lexed_of_string {text : String} {spelled rest : List Char}
    (token : StringToken text spelled) (more : Lexed false rest) : Lexed false (spelled ++ rest) := by
  obtain ⟨body, decoded, lexed, meaning, _, rfl⟩ := token
  have shape : ('"' :: (body ++ ['"'])) ++ rest = '"' :: (body ++ '"' :: rest) := by simp
  rw [shape]
  exact .opened (lexed_of_body lexed meaning more)

private theorem lexed_of_spelled {node : Node} {spelled : List Char}
    (spells : Spells strictDialect node spelled) :
    ∀ rest, Lexed false rest → Lexed false (spelled ++ rest) := by
  have key : ∀ {keyed : Bool} {key : String} {before rest : List Char},
      KeyToken strictDialect keyed key before → Lexed false rest → Lexed false (before ++ rest) := by
    intro keyed key before rest token more
    cases keyed with
    | false =>
        obtain ⟨_, rfl⟩ := token
        exact more
    | true =>
        obtain ⟨quoted, leading, trailing, string, first, second, rfl⟩ := token
        rw [List.append_assoc, List.append_assoc, List.cons_append]
        exact lexed_of_string string (.append_outside (isBlank_unquoted first)
          (.outside (by decide) (.append_outside (isBlank_unquoted second) more)))
  have bracket : ∀ keyed : Bool, opening keyed ≠ '"' ∧ closing keyed ≠ '"' := by decide
  induction spells with
  | scalar token after =>
      intro rest more
      rw [List.append_assoc]
      exact .append_outside (isScalarChar_unquoted (scalarValue_scalar token).1)
        (.append_outside (isBlank_unquoted after) more)
  | string token after =>
      intro rest more
      rw [List.append_assoc]
      exact lexed_of_string token (.append_outside (isBlank_unquoted after) more)
  | @container keyed _ _ _ _ opened _ closed ih =>
      intro rest more
      rw [List.cons_append, List.append_assoc, List.append_assoc, List.cons_append]
      exact .outside (bracket keyed).1 (.append_outside (isBlank_unquoted opened)
        (ih _ (.outside (bracket keyed).2 (.append_outside (isBlank_unquoted closed) more))))
  | lone allowed => exact allowed.elim
  | nothing => exact fun _ more => more
  | last token _ ih =>
      intro rest more
      rw [List.append_assoc]
      exact key token (ih rest more)
  | more _ token _ after _ ih rest_ih =>
      intro rest more
      rw [List.append_assoc, List.append_assoc, List.cons_append, List.append_assoc]
      exact key token (ih _ (.outside (by decide)
        (.append_outside (isBlank_unquoted after) (rest_ih rest more))))

theorem lexed_of_text {value : Json} {text : List Char} (strict : Text strictDialect value text) :
    Lexed false text := by
  obtain ⟨gap, spelled, blank, spells, rfl⟩ := strict
  have whole := lexed_of_spelled spells [] .nil
  rw [List.append_nil] at whole
  exact .append_outside (isBlank_unquoted blank) whole

/-! ### Undoing the loosening -/

theorem normalize_cons (quoted escaped : Bool) (character : Char) (rest : List Char) :
    normalize quoted escaped (character :: rest) =
      if quoted = true ∧ escaped = false ∧ character = '\\' ∧
          rest.head?.any isOrdinary = true then
        '\\' :: '\\' :: normalize quoted escaped rest
      else
        match if quoted && !escaped then rawEscape character else none with
        | some escape => '\\' :: escape :: normalize quoted escaped rest
        | none =>
          let quotedNext := if character = '"' ∧ escaped = false then !quoted else quoted
          character :: normalize quotedNext (quotedNext && character == '\\' && !escaped) rest :=
  rfl

private theorem normalize_outside {character : Char} (unquoted : character ≠ '"') (rest : List Char) :
    normalize false false (character :: rest) = character :: normalize false false rest := by
  simp [normalize_cons, unquoted]

theorem normalize_quote (quoted : Bool) (rest : List Char) :
    normalize quoted false ('"' :: rest) = '"' :: normalize (!quoted) false rest := by
  simp [normalize_cons, rawEscape]

private theorem normalize_plain {character : Char} (unquoted : character ≠ '"')
    (unescaped : character ≠ '\\') (printed : rawEscape character = none) (rest : List Char) :
    normalize true false (character :: rest) = character :: normalize true false rest := by
  have slash : (character == '\\') = false := beq_eq_false_iff_ne.mpr unescaped
  simp [normalize_cons, unquoted, unescaped, printed, slash]

private theorem normalize_escape {character : Char} (kept : isOrdinary character = false)
    (rest : List Char) :
    normalize true false ('\\' :: character :: rest) =
      '\\' :: character :: normalize true false rest := by
  simp [normalize_cons, kept, rawEscape]

private theorem normalize_raw {character escape : Char} (known : rawEscape character = some escape)
    (rest : List Char) :
    normalize true false (character :: rest) = '\\' :: escape :: normalize true false rest := by
  have unescaped : character ≠ '\\' := by
    rintro rfl
    cases known
  simp [normalize_cons, unescaped, known]

private theorem normalize_single {next : Char} (ordinary : isOrdinary next = true) (rest : List Char) :
    normalize true false ('\\' :: next :: rest) = '\\' :: '\\' :: normalize true false (next :: rest) := by
  rw [normalize_cons, if_pos ⟨rfl, rfl, rfl, by simpa using ordinary⟩]

private theorem rawEscape_printed {character : Char} (printed : 0x20 ≤ character.toNat) :
    rawEscape character = none := by
  unfold rawEscape
  split
  all_goals first | rfl | exact absurd printed (by decide)

private theorem isKnownEscape_kept {character : Char} (known : isKnownEscape character = true) :
    isOrdinary character = false := by
  simp [isOrdinary, known]

/-- The second attempt reads a loosened JSON text as the text it came from. -/
theorem normalize_loosened {quoted : Bool} {text loose : List Char}
    (loosened : Loosened quoted text loose) (lexed : Lexed quoted text) :
    normalize quoted false loose = text := by
  induction loosened with
  | nil => rfl
  | outside unquoted _ ih =>
      cases lexed with
      | outside _ more => rw [normalize_outside unquoted, ih more]
      | opened => exact absurd rfl unquoted
  | opened _ ih =>
      cases lexed with
      | outside unquoted _ => exact absurd rfl unquoted
      | opened more => rw [normalize_quote, Bool.not_false, ih more]
  | closed _ ih =>
      cases lexed with
      | closed more => rw [normalize_quote, Bool.not_true, ih more]
      | plain unquoted => exact absurd rfl unquoted
  | plain unquoted unescaped _ ih =>
      cases lexed with
      | closed => exact absurd rfl unquoted
      | plain _ _ printed more =>
          rw [normalize_plain unquoted unescaped (rawEscape_printed printed), ih more]
      | escape => exact absurd rfl unescaped
  | escape _ ih =>
      cases lexed with
      | plain _ unescaped => exact absurd rfl unescaped
      | escape known more => rw [normalize_escape (isKnownEscape_kept known), ih more]
  | raw known _ ih =>
      cases lexed with
      | plain _ unescaped => exact absurd rfl unescaped
      | escape _ more => rw [normalize_raw known, ih more]
  | @single next text loose ordinary rest ih =>
      cases lexed with
      | plain _ unescaped => exact absurd rfl unescaped
      | escape _ more =>
          -- An ordinary character stands for itself in both texts.
          have own : ∃ tail, loose = next :: tail := by
            cases rest with
            | closed => exact absurd ordinary (by decide)
            | plain => exact ⟨_, rfl⟩
            | escape => exact absurd ordinary (by decide)
            | raw => exact absurd ordinary (by decide)
            | single => exact absurd ordinary (by decide)
          obtain ⟨tail, rfl⟩ := own
          rw [normalize_single ordinary, ih more]

private theorem loosened_self {quoted : Bool} {text : List Char} (lexed : Lexed quoted text) :
    Loosened quoted text text := by
  induction lexed with
  | nil => exact .nil
  | outside unquoted _ ih => exact .outside unquoted ih
  | opened _ ih => exact .opened ih
  | closed _ ih => exact .closed ih
  | plain unquoted unescaped _ _ ih => exact .plain unquoted unescaped ih
  | escape _ _ ih => exact .escape ih

/-- A text without any of the four characters is not changed. -/
private theorem normalize_unchanged (text : List Char) (plain : isRepairable text = false) (quoted : Bool) :
    normalize quoted false text = text := by
  induction text generalizing quoted with
  | nil => rfl
  | cons character rest ih =>
      unfold isRepairable at plain ih
      rw [List.any_cons, Bool.or_eq_false_iff] at plain
      obtain ⟨own, others⟩ := plain
      have raw : rawEscape character = none := by
        unfold rawEscape
        split
        all_goals first | rfl | exact absurd own (by decide)
      have slash : (character == '\\') = false := (Bool.or_eq_false_iff.mp own).2
      rw [normalize_cons, if_neg (fun all => beq_eq_false_iff_ne.mp slash all.2.2.1), raw]
      simp [slash, ih others]

/-! ### Completeness of what is accepted -/

namespace ValueScan

@[simp] theorem read_nil (start : ValueScan) : start.read [] = start := rfl

@[simp] theorem read_cons (start : ValueScan) (character : Char) (text : List Char) :
    start.read (character :: text) = (start.step character).read text := rfl

theorem read_append (start : ValueScan) (first second : List Char) :
    start.read (first ++ second) = (start.read first).read second :=
  List.foldl_append

theorem read_failed (text : List Char) : failed.read text = .failed := by
  induction text with
  | nil => rfl
  | cons character text ih => exact ih

/-- The reader and the second attempt agree on where strings are. -/
def Agrees (scan : ValueScan) (quoted escaped : Bool) : Prop :=
  match scan with
  | .inside _ scanQuoted scanEscaped => scanQuoted = quoted ∧ scanEscaped = escaped
  | .failed => True
  | _ => quoted = false ∧ escaped = false

private theorem step_agrees {scan : ValueScan} {quoted escaped : Bool} (agrees : scan.Agrees quoted escaped)
    (outside : quoted = false → escaped = false) (character : Char) :
    let quotedNext := if character = '"' ∧ escaped = false then !quoted else quoted
    (scan.step character).Agrees quotedNext (quotedNext && character == '\\' && !escaped) := by
  cases scan with
  | before =>
      obtain ⟨rfl, rfl⟩ := agrees
      by_cases quote : character = '"'
      · subst quote
        exact ⟨rfl, rfl⟩
      · simp only [quote, false_and, if_false, Bool.false_and, step]
        repeat' split
        all_goals first | exact ⟨rfl, rfl⟩ | trivial
  | scalar =>
      obtain ⟨rfl, rfl⟩ := agrees
      by_cases quote : character = '"'
      · subst quote
        trivial
      · simp only [quote, false_and, if_false, Bool.false_and, step]
        repeat' split
        all_goals first | exact ⟨rfl, rfl⟩ | trivial
  | after =>
      obtain ⟨rfl, rfl⟩ := agrees
      by_cases quote : character = '"'
      · subst quote
        trivial
      · simp only [quote, false_and, if_false, Bool.false_and, step]
        split
        · exact ⟨rfl, rfl⟩
        · trivial
  | failed => trivial
  | inside opened scanQuoted scanEscaped =>
      obtain ⟨rfl, rfl⟩ := agrees
      cases scanQuoted with
      | true =>
          cases scanEscaped with
          | true =>
              simp only [Bool.true_eq_false, and_false, if_false, Bool.not_true, Bool.and_false]
              exact ⟨rfl, rfl⟩
          | false =>
              by_cases quote : character = '"'
              · subst quote
                by_cases top : opened = [] <;> simp [step, top, Agrees]
              · simp only [quote, false_and, if_false, step]
                by_cases slash : character = '\\'
                · subst slash
                  exact ⟨rfl, rfl⟩
                · rw [if_neg slash, beq_eq_false_iff_ne.mpr slash]
                  exact ⟨rfl, rfl⟩
      | false =>
          obtain rfl := outside rfl
          by_cases quote : character = '"'
          · subst quote
            exact ⟨rfl, rfl⟩
          · simp only [quote, false_and, if_false, Bool.false_and, step]
            repeat' split
            all_goals first | exact ⟨rfl, rfl⟩ | trivial

theorem inside_string_step {opened : List Bool} {character : Char} (unquoted : character ≠ '"')
    (unescaped : character ≠ '\\') :
    (inside opened true false).step character = .inside opened true false := by
  rw [step, if_neg unescaped, if_neg unquoted]

/-- The second attempt changes nothing outside strings and keeps their ends. -/
private theorem read_normalize {scan : ValueScan} {quoted escaped : Bool} (text : List Char)
    (agrees : scan.Agrees quoted escaped) (outside : quoted = false → escaped = false) :
    scan.read (normalize quoted escaped text) = scan.read text := by
  induction text generalizing scan quoted escaped with
  | nil => rfl
  | cons character rest ih =>
      rw [normalize_cons]
      split
      next single =>
        obtain ⟨rfl, rfl, rfl, ordinary⟩ := single
        cases rest with
        | nil => cases ordinary
        | cons next rest =>
            have plain : next ≠ '"' ∧ next ≠ '\\' := by
              have own : isOrdinary next = true := ordinary
              constructor <;> (rintro rfl; exact absurd own (by decide))
            cases scan with
            | failed => rw [read_failed, read_failed]
            | before | scalar | after => cases agrees.1
            | inside opened scanQuoted scanEscaped =>
                obtain ⟨rfl, rfl⟩ := agrees
                have kept := @ih (.inside opened true false) true false ⟨rfl, rfl⟩ outside
                rw [read_cons, read_cons, read_cons, read_cons] at *
                calc (inside opened true false).read (normalize true false (next :: rest))
                    = (inside opened true false).read (next :: rest) := kept
                  _ = (inside opened true false).read rest := by
                    rw [read_cons, inside_string_step plain.1 plain.2]
      next =>
        split
        next escape known =>
          obtain ⟨both, raw⟩ : (quoted && !escaped) = true ∧ rawEscape character = some escape := by
            split at known
            next both => exact ⟨both, known⟩
            next => cases known
          obtain ⟨rfl, unescaped⟩ := Bool.and_eq_true_iff.mp both
          obtain rfl : escaped = false := by simpa using unescaped
          have plain : character ≠ '"' ∧ character ≠ '\\' := by
            constructor <;> (rintro rfl; cases raw)
          cases scan with
          | failed => rw [read_failed, read_failed]
          | before | scalar | after => cases agrees.1
          | inside opened scanQuoted scanEscaped =>
              obtain ⟨rfl, rfl⟩ := agrees
              have kept := @ih (.inside opened true false) true false ⟨rfl, rfl⟩ outside
              calc (inside opened true false).read (normalize true false rest)
                  = (inside opened true false).read rest := kept
                _ = (inside opened true false).read (character :: rest) := by
                  rw [read_cons, inside_string_step plain.1 plain.2]
        next =>
          rw [read_cons, read_cons]
          refine ih (step_agrees agrees outside character) fun closed => ?_
          rw [closed]
          rfl

/-! Inside brackets a text of the grammar leaves the reader where it was. -/

theorem read_outside {opened : List Bool} {text : List Char}
    (unmarked : ∀ character ∈ text, isMark character = false) :
    (inside opened false false).read text = .inside opened false false := by
  induction text with
  | nil => rfl
  | cons character text ih =>
      rw [List.forall_mem_cons] at unmarked
      obtain ⟨own, others⟩ := unmarked
      have plain : character ≠ '"' ∧ character ≠ '{' ∧ character ≠ '[' ∧
          ¬(character = '}' ∨ character = ']') := by
        refine ⟨?_, ?_, ?_, ?_⟩
        · rintro rfl
          exact absurd own (by decide)
        · rintro rfl
          exact absurd own (by decide)
        · rintro rfl
          exact absurd own (by decide)
        · rintro (rfl | rfl) <;> exact absurd own (by decide)
      have stays : (inside opened false false).step character = .inside opened false false := by
        simp only [step]
        rw [if_neg plain.1, if_neg plain.2.1, if_neg plain.2.2.1, if_neg plain.2.2.2]
      rw [read_cons, stays, ih others]

theorem blank_unmarked {gap : List Char} (all : gap.all isBlank = true) :
    ∀ character ∈ gap, isMark character = false := by
  intro character member
  rcases isBlank_cases (List.all_eq_true.mp all _ member) with rfl | rfl | rfl | rfl <;> decide

theorem scalar_unmarked {token : List Char} (all : token.all isScalarChar = true) :
    ∀ character ∈ token, isMark character = false := by
  intro character member
  by_contra marked
  have own := List.all_eq_true.mp all _ member
  simp only [isMark, Bool.not_eq_false, Bool.or_eq_true, beq_iff_eq] at marked
  rcases marked with (((((rfl | rfl) | rfl) | rfl) | rfl) | rfl) | rfl <;>
    exact absurd own (by decide)

theorem read_body {opened : List Bool} {body : List Char} (lexed : Body body) :
    (inside opened true false).read (body ++ ['"']) =
      if opened = [] then .after else .inside opened false false := by
  induction lexed with
  | nil => rfl
  | plain unquoted unescaped _ ih =>
      rw [List.cons_append, read_cons, inside_string_step unquoted unescaped, ih]
  | escape _ ih => exact ih

theorem read_string {keyed : Bool} {opened : List Bool} {text : String} {spelled : List Char}
    (token : StringToken text spelled) :
    (inside (keyed :: opened) false false).read spelled = .inside (keyed :: opened) false false := by
  obtain ⟨body, decoded, lexed, _, _, rfl⟩ := token
  exact read_body lexed

private theorem step_opening (keyed : Bool) (opened : List Bool) :
    (inside opened false false).step (opening keyed) = .inside (keyed :: opened) false false := by
  cases keyed <;> rfl

theorem step_closing (keyed : Bool) (opened : List Bool) :
    (inside (keyed :: opened) false false).step (closing keyed) =
      if opened = [] then .after else .inside opened false false := by
  cases keyed <;> rfl

private theorem read_spelled {node : Node} {spelled : List Char}
    (spells : Spells strictDialect node spelled) (keyed : Bool) (opened : List Bool) :
    (inside (keyed :: opened) false false).read spelled = .inside (keyed :: opened) false false := by
  have key : ∀ {entryKeyed keyed : Bool} {opened : List Bool} {key : String} {before : List Char},
      KeyToken strictDialect entryKeyed key before →
      (inside (keyed :: opened) false false).read before = .inside (keyed :: opened) false false := by
    intro entryKeyed keyed opened key before token
    cases entryKeyed with
    | false =>
        obtain ⟨_, rfl⟩ := token
        rfl
    | true =>
        obtain ⟨quoted, leading, trailing, string, first, second, rfl⟩ := token
        rw [read_append, read_string string, read_append, read_outside (blank_unmarked first),
          read_cons]
        exact read_outside (blank_unmarked second)
  induction spells generalizing keyed opened with
  | scalar token after =>
      rw [read_append, read_outside (scalar_unmarked (scalarValue_scalar token).1),
        read_outside (blank_unmarked after)]
  | string token after =>
      rw [read_append, read_string token, read_outside (blank_unmarked after)]
  | container before _ after ih =>
      rw [read_cons, step_opening, read_append, read_outside (blank_unmarked before), read_append,
        ih, read_cons, step_closing, if_neg (by simp), read_outside (blank_unmarked after)]
  | lone allowed => exact allowed.elim
  | nothing => rfl
  | last token _ ih => rw [read_append, key token, ih]
  | more _ token _ after _ ih rest_ih =>
      rw [read_append, key token, read_append, ih, read_cons]
      show (inside (keyed :: opened) false false).read _ = _
      rw [read_append, read_outside (blank_unmarked after), rest_ih]

theorem read_after {gap : List Char} (all : gap.all isBlank = true) :
    ValueScan.after.read gap = .after := by
  induction gap with
  | nil => rfl
  | cons character gap ih =>
      obtain ⟨blank, others⟩ := Bool.and_eq_true_iff.mp (List.all_cons ▸ all)
      rw [read_cons, step, if_pos blank, ih others]

private theorem read_before {gap : List Char} (all : gap.all isBlank = true) :
    ValueScan.before.read gap = .before := by
  induction gap with
  | nil => rfl
  | cons character gap ih =>
      obtain ⟨blank, others⟩ := Bool.and_eq_true_iff.mp (List.all_cons ▸ all)
      rw [read_cons, step, if_pos blank, ih others]

private theorem read_scalar {token : List Char} (all : token.all isScalarChar = true) :
    ValueScan.scalar.read token = .scalar := by
  induction token with
  | nil => rfl
  | cons character token ih =>
      obtain ⟨own, others⟩ := Bool.and_eq_true_iff.mp (List.all_cons ▸ all)
      have visible : ¬isBlank character = true := fun blank => by
        rw [isBlank_not_scalar blank] at own
        cases own
      have unmarked := @scalar_unmarked [character] (by simp [own]) character (by simp)
      rw [read_cons, step, if_neg visible, if_neg (by simp [unmarked]), ih others]

end ValueScan

/-- A JSON text is complete. -/
theorem isComplete_of_text {value : Json} {text : List Char}
    (strict : Text strictDialect value text) : IsComplete text := by
  obtain ⟨gap, spelled, blank, spells, rfl⟩ := strict
  unfold IsComplete
  rw [ValueScan.read_append, ValueScan.read_before blank]
  cases spells with
  | @scalar _ token after scalar behind =>
      obtain ⟨all, some⟩ := scalarValue_scalar scalar
      obtain ⟨first, token, rfl⟩ := List.exists_cons_of_ne_nil some
      obtain ⟨own, others⟩ := Bool.and_eq_true_iff.mp (List.all_cons ▸ all)
      have unmarked := ValueScan.scalar_unmarked all first (by simp)
      have started : ValueScan.before.step first = .scalar := by
        have visible : ¬isBlank first = true := fun blank => by
          rw [isBlank_not_scalar blank] at own
          cases own
        have plain : first ≠ '"' ∧ first ≠ '{' ∧ first ≠ '[' := by
          refine ⟨?_, ?_, ?_⟩ <;> (rintro rfl; exact absurd own (by decide))
        rw [ValueScan.step, if_neg visible, if_neg plain.1, if_neg plain.2.1, if_neg plain.2.2,
          if_neg (by simp [unmarked])]
      rw [List.cons_append, ValueScan.read_cons, started, ValueScan.read_append,
        ValueScan.read_scalar others]
      cases after with
      | nil => exact .inl rfl
      | cons next after =>
          obtain ⟨blankNext, rest⟩ := Bool.and_eq_true_iff.mp behind
          have left : ValueScan.scalar.step next = .after := by
            rw [ValueScan.step, if_pos blankNext]
          rw [ValueScan.read_cons, left]
          exact .inr (ValueScan.read_after rest)
  | string token behind =>
      obtain ⟨body, decoded, lexed, _, _, rfl⟩ := token
      have closed : ValueScan.before.read ('"' :: (body ++ ['"'])) = .after :=
        @ValueScan.read_body [] body lexed
      rw [ValueScan.read_append, closed]
      exact .inr (ValueScan.read_after behind)
  | @container keyed entries first inner last before inside behind =>
      have opened : ValueScan.before.step (opening keyed) = .inside [keyed] false false := by
        cases keyed <;> rfl
      rw [ValueScan.read_cons, opened, ValueScan.read_append,
        ValueScan.read_outside (ValueScan.blank_unmarked before), ValueScan.read_append,
        ValueScan.read_spelled inside, ValueScan.read_cons, ValueScan.step_closing, if_pos rfl]
      exact .inr (ValueScan.read_after behind)
  | lone allowed => exact allowed.elim

section

-- `fromStr` accepts JSON texts only; it may refuse some, deep ones for example.
variable {Failure : Type} {fromStr : List Char → Except Failure Json}
  (strict : ∀ text value, fromStr text = .ok value → ∃ read, Text strictDialect read text)

include strict in
/-- A loosened JSON text has the outcome of strict parsing of the text it came from. -/
private theorem parsePayloadJson_loosened {value : Json} {text loose : List Char}
    (whole : Text strictDialect value text) (loosened : Loosened false text loose) :
    parsePayloadJson fromStr loose = fromStr text := by
  have undone := normalize_loosened loosened (lexed_of_text whole)
  unfold parsePayloadJson
  cases direct : fromStr loose with
  | ok other =>
      -- A loosened text that is JSON itself was not changed.
      obtain ⟨read, spelled⟩ := strict loose other direct
      have lexed := lexed_of_text spelled
      have same := normalize_loosened (loosened_self lexed) lexed
      rw [← same.symm.trans undone, direct]
  | error error =>
      dsimp only
      split
      next plain =>
        have same := normalize_unchanged loose (by simpa using plain) false
        rw [← same.symm.trans undone, direct]
      next => rw [undone]

include strict in
/-- Tolerant parsing undoes a loosening, agrees with strict parsing where that
succeeds, and accepts complete texts only. -/
theorem parsePayloadJson_lossless :
    (∀ value text loose, Text strictDialect value text → Loosened false text loose →
      parsePayloadJson fromStr loose = fromStr text ∧
        ∀ parsed, fromStr text = .ok parsed → parsePayloadJson fromStr loose = .ok parsed) ∧
    (∀ text value, fromStr text = .ok value → parsePayloadJson fromStr text = .ok value) ∧
    ∀ text value, parsePayloadJson fromStr text = .ok value → IsComplete text := by
  refine ⟨fun value text loose whole loosened => ?_, fun text value parsed => ?_,
    fun text value parsed => ?_⟩
  · have same := parsePayloadJson_loosened strict whole loosened
    exact ⟨same, fun parsed => same.trans⟩
  · unfold parsePayloadJson
    rw [parsed]
  · unfold parsePayloadJson at parsed
    split at parsed
    next direct =>
      cases parsed
      obtain ⟨read, whole⟩ := strict text value direct
      exact isComplete_of_text whole
    next =>
      split at parsed
      next => cases parsed
      next =>
        obtain ⟨read, spelled⟩ := strict _ value parsed
        have whole := isComplete_of_text spelled
        have same := @ValueScan.read_normalize .before false false text ⟨rfl, rfl⟩ fun _ => rfl
        unfold IsComplete at whole ⊢
        rwa [same] at whole

end

/-- `serde_json::from_str` on texts that nest as little as it allows. -/
def strictFromStr (text : List Char) : Except Unit Json :=
  match parse text with
  | some value => .ok value
  | none => .error ()

theorem strictFromStr_text (text : List Char) (value : Json)
    (parsed : strictFromStr text = .ok value) : Text strictDialect value text := by
  unfold strictFromStr at parsed
  split at parsed
  next found =>
    cases parsed
    exact (parse_iff text value).mp found
  next => cases parsed

/-- An unknown escape and a raw line break in one string. -/
theorem parsePayloadJson_path :
    parsePayloadJson strictFromStr ['"', 'C', ':', '\\', 'q', '\n', '"'] =
      .ok (.string "C:\\q\n") :=
  ((parsePayloadJson_lossless fun text value parsed => ⟨value, strictFromStr_text text value parsed⟩).1
    _ ['"', 'C', ':', '\\', '\\', 'q', '\\', 'n', '"'] _ (strictFromStr_text _ _ rfl)
    (.opened (.plain (by decide) (by decide) (.plain (by decide) (by decide)
      (.single (by decide) (.plain (by decide) (by decide) (.raw rfl (.closed .nil)))))))).2 _ rfl

end ZenithRelay.Gateway.Execution
