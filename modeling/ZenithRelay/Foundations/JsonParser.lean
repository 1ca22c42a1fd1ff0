import ZenithRelay.Foundations.JsonGrammar

/-!
# Parsing JSON texts

A parser for the strict dialect, which accepts exactly its texts: `serde_json::from_str`
without its limit on nesting.
-/

set_option autoImplicit false

namespace ZenithRelay.Json

/-! ### The parser -/

def skipBlanks (text : List Char) : List Char := text.dropWhile isBlank

/-- The body of a string after its first quote, and what follows the last one. -/
def takeBody : List Char → Option (List Char × List Char)
  | [] => none
  | '"' :: rest => some ([], rest)
  | '\\' :: character :: rest =>
    (takeBody rest).map fun taken => ('\\' :: character :: taken.1, taken.2)
  | character :: rest => (takeBody rest).map fun taken => (character :: taken.1, taken.2)

/-- A string literal after its first quote. -/
def takeString (text : List Char) : Option (String × List Char) :=
  (takeBody text).bind fun taken =>
    (decodeBody taken.1).map fun decoded => (String.ofList decoded, taken.2)

/-- What stands before the value of an entry. -/
def takeKey (keyed : Bool) (text : List Char) : Option (String × List Char) :=
  match keyed, text with
  | false, text => some ("", text)
  | true, '"' :: text =>
    match takeString text with
    | none => none
    | some (key, rest) =>
      match skipBlanks rest with
      | ':' :: rest => some (key, skipBlanks rest)
      | _ => none
  | true, _ => none

mutual

def parseValue : Nat → List Char → Option (Json × List Char)
  | 0, _ => none
  | fuel + 1, text =>
    match text with
    | '"' :: rest => (takeString rest).map fun taken => (.string taken.1, skipBlanks taken.2)
    | '[' :: rest =>
      match skipBlanks rest with
      | ']' :: rest => some (container false [], skipBlanks rest)
      | rest => (parseEntries fuel false rest).map fun taken => (container false taken.1, taken.2)
    | '{' :: rest =>
      match skipBlanks rest with
      | '}' :: rest => some (container true [], skipBlanks rest)
      | rest => (parseEntries fuel true rest).map fun taken => (container true taken.1, taken.2)
    | text =>
      (scalarValue (text.takeWhile isScalarChar)).map fun value =>
        (value, skipBlanks (text.dropWhile isScalarChar))

/-- At least one entry, up to the closing bracket and the blanks after it. -/
def parseEntries : Nat → Bool → List Char → Option (List (String × Json) × List Char)
  | 0, _, _ => none
  | fuel + 1, keyed, text =>
    match takeKey keyed text with
    | none => none
    | some (key, rest) =>
      match parseValue fuel rest with
      | none => none
      | some (value, ',' :: rest) =>
        (parseEntries fuel keyed (skipBlanks rest)).map fun taken =>
          ((key, value) :: taken.1, taken.2)
      | some (value, bracket :: rest) =>
        if bracket = closing keyed then some ([(key, value)], skipBlanks rest) else none
      | some (_, []) => none

end

private theorem parseValue_succ (fuel : Nat) (text : List Char) :
    parseValue (fuel + 1) text =
      match text with
      | '"' :: rest => (takeString rest).map fun taken => (.string taken.1, skipBlanks taken.2)
      | '[' :: rest =>
        match skipBlanks rest with
        | ']' :: rest => some (container false [], skipBlanks rest)
        | rest =>
          (parseEntries fuel false rest).map fun taken => (container false taken.1, taken.2)
      | '{' :: rest =>
        match skipBlanks rest with
        | '}' :: rest => some (container true [], skipBlanks rest)
        | rest => (parseEntries fuel true rest).map fun taken => (container true taken.1, taken.2)
      | text =>
        (scalarValue (text.takeWhile isScalarChar)).map fun value =>
          (value, skipBlanks (text.dropWhile isScalarChar)) :=
  rfl

private theorem parseValue_string (fuel : Nat) (text : List Char) :
    parseValue (fuel + 1) ('"' :: text) =
      (takeString text).map fun taken => (.string taken.1, skipBlanks taken.2) :=
  rfl

theorem parseEntries_succ (fuel : Nat) (keyed : Bool) (text : List Char) :
    parseEntries (fuel + 1) keyed text =
      match takeKey keyed text with
      | none => none
      | some (key, rest) =>
        match parseValue fuel rest with
        | none => none
        | some (value, ',' :: rest) =>
          (parseEntries fuel keyed (skipBlanks rest)).map fun taken =>
            ((key, value) :: taken.1, taken.2)
        | some (value, bracket :: rest) =>
          if bracket = closing keyed then some ([(key, value)], skipBlanks rest) else none
        | some (_, []) => none :=
  rfl

/-- `serde_json::from_str`. -/
def parse (text : List Char) : Option Json :=
  match parseValue (text.length + 1) (skipBlanks text) with
  | some (value, []) => some value
  | _ => none

/-! ### Tokens -/

private theorem takeBody_append {body : List Char} (lexed : Body body) (rest : List Char) :
    takeBody (body ++ '"' :: rest) = some (body, rest) := by
  induction lexed with
  | nil => rfl
  | plain unquoted unescaped _ ih =>
      rw [List.cons_append, takeBody, ih, Option.map_some]
      · exact fun same => unquoted same
      · exact fun _ _ same _ => unescaped same
  | escape _ ih =>
      rw [List.cons_append, List.cons_append, takeBody, ih, Option.map_some]

private theorem takeBody_sound {text body rest : List Char} (taken : takeBody text = some (body, rest)) :
    Body body ∧ text = body ++ '"' :: rest := by
  fun_induction takeBody text generalizing body rest with
  | case1 => cases taken
  | case2 after =>
      cases taken
      exact ⟨.nil, rfl⟩
  | case3 character after ih =>
      obtain ⟨⟨inner, final⟩, found, same⟩ := Option.map_eq_some_iff.mp taken
      cases same
      obtain ⟨lexed, rfl⟩ := ih found
      exact ⟨.escape lexed, rfl⟩
  | case4 character after unquoted unescaped ih =>
      obtain ⟨⟨inner, final⟩, found, same⟩ := Option.map_eq_some_iff.mp taken
      cases same
      obtain ⟨lexed, after_eq⟩ := ih found
      have plain : character ≠ '\\' := by
        intro escaped
        cases inner with
        | nil => exact unescaped '"' final escaped after_eq
        | cons next inner => exact unescaped next (inner ++ '"' :: final) escaped after_eq
      exact ⟨.plain unquoted plain lexed, by rw [after_eq]; rfl⟩

theorem takeString_append {text : String} {spelled : List Char} (token : StringToken text spelled)
    (rest : List Char) :
    ∃ after, spelled ++ rest = '"' :: after ∧ takeString after = some (text, rest) := by
  obtain ⟨body, decoded, lexed, meaning, rfl, rfl⟩ := token
  refine ⟨body ++ '"' :: rest, by simp, ?_⟩
  rw [takeString, takeBody_append lexed, Option.bind_some, meaning, Option.map_some]

theorem takeString_sound {text rest : List Char} {value : String}
    (taken : takeString text = some (value, rest)) :
    ∃ spelled, StringToken value spelled ∧ '"' :: text = spelled ++ rest := by
  obtain ⟨⟨body, after⟩, found, read⟩ := Option.bind_eq_some_iff.mp taken
  obtain ⟨decoded, meaning, same⟩ := Option.map_eq_some_iff.mp read
  cases same
  obtain ⟨lexed, rfl⟩ := takeBody_sound found
  exact ⟨'"' :: (body ++ ['"']), ⟨body, decoded, lexed, meaning, rfl, rfl⟩, by simp⟩

/-- Numbers and literals consist of scalar characters, and there is at least one. -/
theorem isDigit_scalar {character : Char} (digit : character.isDigit = true) :
    isScalarChar character = true := by
  simp [isScalarChar, Char.isAlphanum, digit]

theorem isDigits_scalar {text : List Char} (digits : isDigits text = true) :
    text.all isScalarChar = true := by
  have all := (Bool.and_eq_true_iff.mp digits).2
  rw [List.all_eq_true] at all ⊢
  exact fun character member => isDigit_scalar (all character member)

theorem isExponent_scalar {text : List Char} (exponent : isExponent text = true) :
    text.all isScalarChar = true := by
  cases text with
  | nil => rfl
  | cons mark rest =>
      obtain ⟨marked, digits⟩ := Bool.and_eq_true_iff.mp exponent
      have first : isScalarChar mark = true := by
        rcases Bool.or_eq_true_iff.mp marked with same | same <;> rw [beq_iff_eq.mp same] <;> decide
      rw [List.all_cons, first, Bool.true_and]
      split at digits
      · rw [List.all_cons, isDigits_scalar digits]
        decide
      · rw [List.all_cons, isDigits_scalar digits]
        decide
      · exact isDigits_scalar digits

theorem takeDigits_scalar (text : List Char) :
    (text.takeWhile Char.isDigit).all isScalarChar = true := by
  rw [List.all_eq_true]
  intro character member
  exact isDigit_scalar (List.all_eq_true.mp List.all_takeWhile character member)

theorem isFraction_scalar {text : List Char} (fraction : isFraction text = true) :
    text.all isScalarChar = true := by
  unfold isFraction at fraction
  split at fraction
  next rest =>
    have exponent := isExponent_scalar (Bool.and_eq_true_iff.mp fraction).2
    rw [List.all_cons, ← List.takeWhile_append_dropWhile (p := Char.isDigit) (l := rest),
      List.all_append, takeDigits_scalar, exponent]
    decide
  next => exact isExponent_scalar fraction

theorem isUnsigned_scalar {text : List Char} (unsigned : isUnsigned text = true) :
    text.all isScalarChar = true ∧ text ≠ [] := by
  unfold isUnsigned at unsigned
  split at unsigned
  · cases unsigned
  next rest =>
    rw [List.all_cons, isFraction_scalar unsigned]
    exact ⟨by decide, by simp⟩
  next first rest _ =>
    obtain ⟨digit, fraction⟩ := Bool.and_eq_true_iff.mp unsigned
    rw [List.all_cons, isDigit_scalar digit,
      ← List.takeWhile_append_dropWhile (p := Char.isDigit) (l := rest), List.all_append,
      takeDigits_scalar, isFraction_scalar fraction]
    exact ⟨rfl, by simp⟩

private theorem isNumber_scalar {text : List Char} (number : isNumber text = true) :
    text.all isScalarChar = true ∧ text ≠ [] := by
  unfold isNumber at number
  split at number
  next rest =>
    rw [List.all_cons, (isUnsigned_scalar number).1]
    exact ⟨by decide, by simp⟩
  next => exact isUnsigned_scalar number

theorem scalarValue_scalar {text : List Char} {value : Json}
    (scalar : scalarValue text = some value) : text.all isScalarChar = true ∧ text ≠ [] := by
  unfold scalarValue at scalar
  split at scalar
  next same => rw [same]; decide
  split at scalar
  next same => rw [same]; decide
  split at scalar
  next same => rw [same]; decide
  split at scalar
  next number => exact isNumber_scalar number
  next => cases scalar

/-! ### Every text of the grammar is parsed -/

theorem isBlank_cases {character : Char} (blank : isBlank character = true) :
    character = ' ' ∨ character = '\t' ∨ character = '\n' ∨ character = '\r' := by
  simpa [isBlank, or_assoc] using blank

theorem isBlank_not_scalar {character : Char} (blank : isBlank character = true) :
    isScalarChar character = false := by
  rcases isBlank_cases blank with rfl | rfl | rfl | rfl <;> decide

/-- Where a value with the blanks after it ends: nothing, or a character of neither. -/
def Stops (text : List Char) : Prop :=
  ∀ character rest, text = character :: rest →
    isBlank character = false ∧ isScalarChar character = false

theorem stops_closing (keyed : Bool) (rest : List Char) : Stops (closing keyed :: rest) := by
  rintro character after same
  cases same
  cases keyed <;> decide

private theorem stops_comma (rest : List Char) : Stops (',' :: rest) := by
  rintro character after same
  cases same
  decide

theorem skipBlanks_append {gap : List Char} (blank : gap.all isBlank = true) (rest : List Char) :
    skipBlanks (gap ++ rest) = skipBlanks rest :=
  List.dropWhile_append_of_pos (List.all_eq_true.mp blank)

theorem skipBlanks_cons {character : Char} (visible : isBlank character = false)
    (rest : List Char) : skipBlanks (character :: rest) = character :: rest := by
  rw [skipBlanks, List.dropWhile_cons_of_neg (by simp [visible])]

theorem skipBlanks_stops {text : List Char} (stops : Stops text) : skipBlanks text = text := by
  cases text with
  | nil => rfl
  | cons character rest => exact skipBlanks_cons (stops character rest rfl).1 rest

/-- The first character of a value: no blank and no closing bracket. -/
def Starts (text : List Char) : Prop :=
  ∃ character rest, text = character :: rest ∧ isBlank character = false ∧
    ∀ keyed, character ≠ closing keyed

theorem Starts.append {text : List Char} (starts : Starts text) (rest : List Char) :
    Starts (text ++ rest) := by
  obtain ⟨character, after, rfl, visible, inner⟩ := starts
  exact ⟨character, after ++ rest, rfl, visible, inner⟩

private theorem starts_scalar {value : Json} {spelled : List Char}
    (scalar : scalarValue spelled = some value) : Starts spelled := by
  obtain ⟨all, some⟩ := scalarValue_scalar scalar
  cases spelled with
  | nil => exact absurd rfl some
  | cons character rest =>
      have first := (Bool.and_eq_true_iff.mp (List.all_cons ▸ all)).1
      refine ⟨character, rest, rfl, ?_, ?_⟩
      · by_contra blank
        rw [isBlank_not_scalar (by simpa using blank)] at first
        cases first
      · rintro keyed rfl
        cases keyed <;> exact absurd first (by decide)

theorem starts_string {text : String} {spelled : List Char} (token : StringToken text spelled) :
    Starts spelled := by
  obtain ⟨body, decoded, _, _, _, rfl⟩ := token
  exact ⟨'"', _, rfl, by decide, by decide⟩

theorem Spells.starts {node : Node} {spelled : List Char} (spells : Spells strictDialect node spelled) :
    match node with
    | .value _ => Starts spelled
    | .entries _ entries => entries ≠ [] → Starts spelled := by
  have first : ∀ {keyed : Bool} {key : String} {before spelled : List Char},
      KeyToken strictDialect keyed key before → Starts spelled → Starts (before ++ spelled) := by
    intro keyed key before spelled token starts
    cases keyed with
    | false =>
        obtain ⟨_, rfl⟩ := token
        exact starts
    | true =>
        obtain ⟨quoted, _, _, string, _, _, rfl⟩ := token
        rw [List.append_assoc]
        exact (starts_string string).append _
  induction spells with
  | scalar token after => exact (starts_scalar token).append _
  | string token after => exact (starts_string token).append _
  | @container keyed => exact ⟨_, _, rfl, by cases keyed <;> decide, by cases keyed <;> decide⟩
  | lone allowed => exact allowed.elim
  | nothing => exact fun some => absurd rfl some
  | last token _ ih => exact fun _ => first token ih
  | more _ token _ _ _ ih => exact fun _ => first token (ih.append _)

private theorem parseValue_scalar {character : Char} (scalar : isScalarChar character = true)
    (fuel : Nat) (rest : List Char) :
    parseValue (fuel + 1) (character :: rest) =
      (scalarValue ((character :: rest).takeWhile isScalarChar)).map fun value =>
        (value, skipBlanks ((character :: rest).dropWhile isScalarChar)) := by
  rw [parseValue]
  · rintro after same
    cases same
    exact absurd scalar (by decide)
  · rintro after same
    cases same
    exact absurd scalar (by decide)
  · rintro after same
    cases same
    exact absurd scalar (by decide)

theorem takeKey_append {keyed : Bool} {key : String} {before : List Char}
    (token : KeyToken strictDialect keyed key before) {rest : List Char} (starts : Starts rest) :
    takeKey keyed (before ++ rest) = some (key, rest) := by
  cases keyed with
  | false =>
      obtain ⟨rfl, rfl⟩ := token
      rfl
  | true =>
      obtain ⟨quoted, blanks, others, string, leading, trailing, rfl⟩ := token
      obtain ⟨after, same, taken⟩ :=
        takeString_append string (blanks ++ ':' :: (others ++ rest))
      obtain ⟨character, more, rfl, visible, _⟩ := starts
      have shape : quoted ++ (blanks ++ ':' :: others) ++ character :: more =
          quoted ++ (blanks ++ ':' :: (others ++ character :: more)) := by simp
      rw [shape, same, takeKey, taken]
      dsimp only
      rw [skipBlanks_append leading, skipBlanks_cons (by decide)]
      show some (key, skipBlanks (others ++ character :: more)) = _
      rw [skipBlanks_append trailing, skipBlanks_cons visible]

/-- A container whose entries are parsed is parsed. -/
private theorem parseValue_container {fuel : Nat} {keyed : Bool} {entries : List (String × Json)}
    {text rest : List Char}
    (inside : skipBlanks text = closing keyed :: rest ∧ entries = [] ∨
      Starts (skipBlanks text) ∧
        parseEntries fuel keyed (skipBlanks text) = some (entries, skipBlanks rest)) :
    parseValue (fuel + 1) (opening keyed :: text) =
      some (container keyed entries, skipBlanks rest) := by
  rcases inside with ⟨closed, rfl⟩ | ⟨⟨character, after, same, _, inner⟩, parsed⟩
  · cases keyed with
    | false =>
        rw [show opening false = '[' from rfl, parseValue, closed]
        rfl
    | true =>
        rw [show opening true = '{' from rfl, parseValue, closed]
        rfl
  · rw [same] at parsed
    cases keyed with
    | false =>
        rw [show opening false = '[' from rfl, parseValue, same]
        split
        next heading => exact absurd (List.cons.inj heading).1 (inner false)
        next => rw [parsed, Option.map_some]
    | true =>
        rw [show opening true = '{' from rfl, parseValue, same]
        split
        next heading => exact absurd (List.cons.inj heading).1 (inner true)
        next => rw [parsed, Option.map_some]

/-- Enough fuel parses whatever the grammar spells, up to where it stops. -/
private theorem parse_spelled {node : Node} {spelled : List Char} (spells : Spells strictDialect node spelled) :
    match node with
    | .value value => ∀ fuel rest, spelled.length < fuel → Stops rest →
        parseValue fuel (spelled ++ rest) = some (value, rest)
    | .entries keyed entries => entries ≠ [] → ∀ fuel rest, spelled.length + 1 < fuel →
        parseEntries fuel keyed (spelled ++ closing keyed :: rest) =
          some (entries, skipBlanks rest) := by
  induction spells with
  | @scalar value token gap scalar after =>
      intro fuel rest enough stops
      obtain ⟨all, some⟩ := scalarValue_scalar scalar
      obtain ⟨fuel, rfl⟩ : ∃ less, fuel = less + 1 := ⟨fuel - 1, by omega⟩
      obtain ⟨character, more, rfl⟩ := List.exists_cons_of_ne_nil some
      have first := (Bool.and_eq_true_iff.mp (List.all_cons ▸ all)).1
      have ends : (gap ++ rest).takeWhile isScalarChar = [] ∧
          (gap ++ rest).dropWhile isScalarChar = gap ++ rest := by
        cases gap with
        | nil =>
            cases rest with
            | nil => exact ⟨rfl, rfl⟩
            | cons next rest => simp [(stops next rest rfl).2]
        | cons next gap =>
            have blank : isBlank next = true := (Bool.and_eq_true_iff.mp after).1
            simp [isBlank_not_scalar blank]
      have every := List.all_eq_true.mp all
      rw [List.append_assoc, List.cons_append, parseValue_scalar first, ← List.cons_append,
        List.takeWhile_append_of_pos every, List.dropWhile_append_of_pos every, ends.1, ends.2,
        List.append_nil, show scalarValue (character :: more) = _ from scalar, Option.map_some,
        skipBlanks_append after, skipBlanks_stops stops]
  | @string text token gap string after =>
      intro fuel rest enough stops
      obtain ⟨fuel, rfl⟩ : ∃ less, fuel = less + 1 := ⟨fuel - 1, by omega⟩
      obtain ⟨inner, same, taken⟩ := takeString_append string (gap ++ rest)
      rw [List.append_assoc, same, parseValue_string, taken, Option.map_some,
        skipBlanks_append after, skipBlanks_stops stops]
  | @container keyed entries first inner last opened inside closed ih =>
      intro fuel rest enough stops
      obtain ⟨fuel, rfl⟩ : ∃ less, fuel = less + 1 := ⟨fuel - 1, by omega⟩
      have shape : opening keyed :: (first ++ (inner ++ closing keyed :: last)) ++ rest =
          opening keyed :: (first ++ (inner ++ closing keyed :: (last ++ rest))) := by simp
      have ending : skipBlanks (last ++ rest) = rest :=
        (skipBlanks_append closed rest).trans (skipBlanks_stops stops)
      rw [shape, @parseValue_container fuel keyed entries _ (last ++ rest), ending]
      rw [skipBlanks_append opened]
      by_cases empty : entries = []
      · subst empty
        cases inside
        exact .inl ⟨skipBlanks_stops (stops_closing keyed _), rfl⟩
      · have starts := (inside.starts empty).append (closing keyed :: (last ++ rest))
        obtain ⟨character, more, same, visible, _⟩ := id starts
        have kept : skipBlanks (inner ++ closing keyed :: (last ++ rest)) =
            inner ++ closing keyed :: (last ++ rest) := by
          rw [same, skipBlanks_cons visible]
        rw [kept]
        refine .inr ⟨starts, ih empty fuel _ ?_⟩
        simp only [List.length_cons, List.length_append] at enough
        omega
  | lone allowed => exact allowed.elim
  | nothing => exact fun some => absurd rfl some
  | @last keyed key value before spelled token whole ih =>
      intro _ fuel rest enough
      obtain ⟨fuel, rfl⟩ : ∃ less, fuel = less + 1 := ⟨fuel - 1, by omega⟩
      rw [List.length_append] at enough
      rw [List.append_assoc, parseEntries_succ, takeKey_append token (whole.starts.append _)]
      dsimp only
      rw [ih fuel _ (by omega) (stops_closing keyed rest)]
      cases keyed <;> simp [closing]
  | @more keyed key value entries before spelled gap tail allowed token whole after others ih rest_ih =>
      intro _ fuel rest enough
      have some : entries ≠ [] := allowed.resolve_right id
      obtain ⟨fuel, rfl⟩ : ∃ less, fuel = less + 1 := ⟨fuel - 1, by omega⟩
      simp only [List.length_append, List.length_cons] at enough
      have shape : before ++ (spelled ++ ',' :: (gap ++ tail)) ++ closing keyed :: rest =
          before ++ (spelled ++ ',' :: (gap ++ (tail ++ closing keyed :: rest))) := by simp
      obtain ⟨character, text, same, visible, _⟩ :=
        (others.starts some).append (closing keyed :: rest)
      rw [shape, parseEntries_succ, takeKey_append token (whole.starts.append _)]
      dsimp only
      rw [ih fuel _ (by omega) (stops_comma _)]
      show Option.map _ (parseEntries fuel keyed (skipBlanks (gap ++ _))) = _
      rw [skipBlanks_append after, same, skipBlanks_cons visible, ← same,
        rest_ih some fuel rest (by omega), Option.map_some]

/-! ### Whatever is parsed is a text of the grammar -/

theorem skipBlanks_sound (text : List Char) :
    ∃ gap, gap.all isBlank = true ∧ text = gap ++ skipBlanks text :=
  ⟨text.takeWhile isBlank, List.all_takeWhile, List.takeWhile_append_dropWhile.symm⟩

private theorem takeKey_sound {keyed : Bool} {key : String} {text rest : List Char}
    (taken : takeKey keyed text = some (key, rest)) :
    ∃ before, KeyToken strictDialect keyed key before ∧ text = before ++ rest := by
  unfold takeKey at taken
  split at taken
  · cases taken
    exact ⟨[], ⟨rfl, rfl⟩, rfl⟩
  · split at taken
    next => cases taken
    next name after found =>
    split at taken
    next inner colon =>
      cases taken
      obtain ⟨spelled, token, whole⟩ := takeString_sound found
      obtain ⟨leading, leadingBlank, same⟩ := skipBlanks_sound after
      obtain ⟨trailing, trailingBlank, behind⟩ := skipBlanks_sound inner
      refine ⟨spelled ++ (leading ++ ':' :: trailing),
        ⟨spelled, leading, trailing, token, leadingBlank, trailingBlank, rfl⟩, ?_⟩
      rw [whole, List.append_assoc, List.append_assoc, List.cons_append, ← behind, ← colon, ← same]
    next => cases taken
  · cases taken

/-- Whatever is parsed is spelled by the part of the text that was read. -/
private theorem parse_sound (fuel : Nat) :
    (∀ text value rest, parseValue fuel text = some (value, rest) →
      ∃ spelled, Spells strictDialect (.value value) spelled ∧ text = spelled ++ rest) ∧
    ∀ keyed text entries rest, parseEntries fuel keyed text = some (entries, rest) →
      ∃ spelled gap, Spells strictDialect (.entries keyed entries) spelled ∧
        strictDialect.gap gap ∧ text = spelled ++ closing keyed :: (gap ++ rest) := by
  induction fuel with
  | zero =>
      refine ⟨fun text value rest parsed => ?_, fun keyed text entries rest parsed => ?_⟩
      · cases parsed
      · cases parsed
  | succ fuel ih =>
      -- The two kinds of containers differ in their brackets only.
      have contained : ∀ keyed text entries rest,
          parseEntries fuel keyed (skipBlanks text) = some (entries, rest) →
          ∃ spelled, Spells strictDialect (.value (container keyed entries)) spelled ∧
            opening keyed :: text = spelled ++ rest := by
        intro keyed text entries rest parsed
        obtain ⟨spelled, gap, spells, blank, same⟩ := ih.2 _ _ _ _ parsed
        obtain ⟨leading, leadingBlank, whole⟩ := skipBlanks_sound text
        refine ⟨_, .container leadingBlank spells blank, ?_⟩
        rw [whole, same]
        simp
      have empty : ∀ keyed text rest, skipBlanks text = closing keyed :: rest →
          ∃ spelled, Spells strictDialect (.value (container keyed [])) spelled ∧
            opening keyed :: text = spelled ++ skipBlanks rest := by
        intro keyed text rest same
        obtain ⟨leading, leadingBlank, whole⟩ := skipBlanks_sound text
        obtain ⟨trailing, trailingBlank, behind⟩ := skipBlanks_sound rest
        refine ⟨_, .container leadingBlank .nothing trailingBlank, ?_⟩
        rw [whole, same]
        simpa using behind
      constructor
      · intro text value rest parsed
        rw [parseValue_succ] at parsed
        split at parsed
        next after =>
          obtain ⟨⟨read, behind⟩, taken, same⟩ := Option.map_eq_some_iff.mp parsed
          cases same
          obtain ⟨spelled, token, whole⟩ := takeString_sound taken
          obtain ⟨gap, blank, split⟩ := skipBlanks_sound behind
          refine ⟨spelled ++ gap, .string token blank, ?_⟩
          rw [whole, List.append_assoc, ← split]
        next after =>
          split at parsed
          next inner closed =>
            cases parsed
            exact empty false after inner closed
          next =>
            obtain ⟨⟨entries, behind⟩, inside, same⟩ := Option.map_eq_some_iff.mp parsed
            cases same
            exact contained false after entries _ inside
        next after =>
          split at parsed
          next inner closed =>
            cases parsed
            exact empty true after inner closed
          next =>
            obtain ⟨⟨entries, behind⟩, inside, same⟩ := Option.map_eq_some_iff.mp parsed
            cases same
            exact contained true after entries _ inside
        next =>
          obtain ⟨read, scalar, same⟩ := Option.map_eq_some_iff.mp parsed
          cases same
          obtain ⟨gap, blank, split⟩ := skipBlanks_sound (text.dropWhile isScalarChar)
          refine ⟨text.takeWhile isScalarChar ++ gap, .scalar scalar blank, ?_⟩
          rw [List.append_assoc, ← split, List.takeWhile_append_dropWhile]
      · intro keyed text entries rest parsed
        rw [parseEntries_succ] at parsed
        split at parsed
        next => cases parsed
        next key after found =>
        obtain ⟨before, token, rfl⟩ := takeKey_sound found
        split at parsed
        next => cases parsed
        next value behind read =>
          obtain ⟨⟨others, final⟩, more, same⟩ := Option.map_eq_some_iff.mp parsed
          cases same
          obtain ⟨spelled, whole, rfl⟩ := ih.1 _ _ _ read
          obtain ⟨gap, blank, split⟩ := skipBlanks_sound behind
          obtain ⟨tail, last, spells, lastBlank, same⟩ := ih.2 _ _ _ _ more
          have some : others ≠ [] := by
            rintro rfl
            cases fuel with
            | zero => cases more
            | succ fuel =>
                rw [parseEntries_succ] at more
                split at more
                · cases more
                split at more
                · cases more
                · obtain ⟨_, _, same⟩ := Option.map_eq_some_iff.mp more
                  cases same
                · split at more <;> cases more
                · cases more
          refine ⟨_, last, .more (.inl some) token whole blank spells, lastBlank, ?_⟩
          rw [split, same]
          simp
        next value bracket behind _ read =>
          split at parsed
          next closed =>
            cases parsed
            obtain ⟨spelled, whole, rfl⟩ := ih.1 _ _ _ read
            obtain ⟨gap, blank, split⟩ := skipBlanks_sound behind
            refine ⟨_, gap, .last token whole, blank, ?_⟩
            rw [closed, List.append_assoc, ← split]
          next => cases parsed
        next => cases parsed

/-- The parser accepts exactly the texts of the grammar, with their values. -/
theorem parse_iff (text : List Char) (value : Json) :
    parse text = some value ↔ Text strictDialect value text := by
  unfold parse
  constructor
  · intro parsed
    split at parsed
    next read found =>
      cases parsed
      obtain ⟨spelled, spells, same⟩ := (parse_sound _).1 _ _ _ found
      obtain ⟨gap, blank, whole⟩ := skipBlanks_sound text
      exact ⟨gap, spelled, blank, spells, by rw [whole, same, List.append_nil]⟩
    next => cases parsed
  · rintro ⟨gap, spelled, blank, spells, rfl⟩
    obtain ⟨character, rest, rfl, visible, _⟩ := spells.starts
    rw [skipBlanks_append blank, skipBlanks_cons visible]
    have read := parse_spelled spells ((gap ++ character :: rest).length + 1) []
      (by simp only [List.length_append, List.length_cons]; omega) (by rintro _ _ same; cases same)
    rw [List.append_nil] at read
    rw [read]

end ZenithRelay.Json
