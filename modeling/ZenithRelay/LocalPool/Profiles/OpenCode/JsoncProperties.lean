import ZenithRelay.LocalPool.Profiles.OpenCode.JsoncCommas

/-!
# What the two passes accept

The passes delete comments and commas. What is left is JSON exactly when the text is
JSON with comments, or with a comment inside a number or literal, a comment left open
or a comma alone in a container.
-/

set_option autoImplicit false

namespace ZenithRelay.LocalPool.Profiles.OpenCode

open Json

/-- The passes leave JSON of everything in the lenient reading. -/
private theorem strict_of_lenient {content : List Char} {value : Json}
    (lenient : LenientText value content) :
    Text strictDialect value (dropTrailingCommas .code (stripComments .code content)) := by
  obtain ⟨whole, tail, ⟨gap, spelled, spaced, spells, rfl⟩, opened, rfl⟩ := lenient
  obtain ⟨blanks, all, skipped⟩ := stripComments_gap spaced
  obtain ⟨middle, inner, read⟩ := stripComments_spelled spells
  have closed := stripComments_open opened
  obtain ⟨left, strict, dropped⟩ :=
    dropTrailingCommas_spelled (inner.append_gap blanks_joined closed)
  rw [List.append_assoc, skipped, read, dropTrailingCommas_blanks all]
  have final := dropped []
  rw [List.append_nil] at final
  rw [final]
  exact ⟨blanks, left, all, strict, by simp [dropTrailingCommas]⟩

/-- The two passes leave JSON of exactly the lenient reading. -/
private theorem strict_iff_lenient (content : List Char) (value : Json) :
    Text strictDialect value (dropTrailingCommas .code (stripComments .code content)) ↔
      LenientText value content := by
  refine ⟨fun strict => ?_, strict_of_lenient⟩
  obtain ⟨gap, spelled, blank, spells, same⟩ := strict
  have follows : Follows [] := by
    rintro _ _ none
    cases none
  have shown := visible_spelled strictDialect scalarValue_visible spells
  obtain ⟨after, direct, afterLeft, same⟩ := dropped_gap blank shown same
  rw [← List.append_nil spelled] at afterLeft
  obtain ⟨middle, final, middleSpells, _, finalLeft, read | ⟨_, _, _, _, _, closed⟩⟩ :=
    dropped_spelled spells after [] direct follows afterLeft
  · have finished : final = [] := by
      cases final with
      | nil => rfl
      | cons first rest =>
          by_cases closes : first = ',' ∧ closesNext rest = true
          · obtain ⟨rfl, closes⟩ := closes
            rw [dropTrailingCommas_dropped closes] at finalLeft
            obtain ⟨_, _, none⟩ := closing_left closes finalLeft follows
            cases none
          · rw [dropTrailingCommas, if_neg closes] at finalLeft
            cases finalLeft
    rw [finished] at read
    rw [read] at same
    have plain : ∀ keyed, Node.value value ≠ .entries keyed [] := fun _ same => by cases same
    have middleShown := visible_spelled commaDialect scalarValue_visible middleSpells
    obtain ⟨comments, start, spaced, rfl, startClear, startLeft⟩ :=
      stripped_before blank (middleShown.append []) same
    obtain ⟨read, tail, whole, rfl, ready⟩ :=
      stripped_spelled middleSpells plain start [] startClear follows startLeft
    refine ⟨comments ++ read, tail, ⟨comments, read, spaced, whole, rfl⟩, ?_, by simp⟩
    rcases ready with ⟨tailClear, tailLeft⟩ | ⟨_, opened⟩
    · cases tail with
      | nil => exact .inl (.inl rfl)
      | cons first rest =>
          rw [stripComments_clear tailClear] at tailLeft
          cases tailLeft
    · exact opened
  · cases closed

/-! ### Against the grammar -/

/-- `value` is what a reading of the text in the grammar stands for. -/
def StandsFor {Value : Type} (grammar : Json → List Char → Prop) (meaning : Json → Value)
    (value : Value) (text : List Char) : Prop :=
  ∃ read, grammar read text ∧ meaning read = value

private theorem woven_self {token : List Char} (some : token ≠ []) : Woven token token := by
  induction token with
  | nil => exact absurd rfl some
  | cons character token ih =>
      cases token with
      | nil => exact .single character
      | cons next token => exact @Woven.cons character _ [] _ .nil (ih (by simp))

theorem gap_of_blanks {gap : List Char} (all : gap.all isBlank = true) : Gap gap := by
  induction gap with
  | nil => exact .nil
  | cons character gap ih =>
      obtain ⟨blank, others⟩ := Bool.and_eq_true_iff.mp (List.all_cons ▸ all)
      exact .blank blank (ih others)

theorem JsoncText.lenient {value : Json} {content : List Char} (jsonc : JsoncText value content) :
    LenientText value content := by
  obtain ⟨whole, tail, ⟨gap, spelled, spaced, spells, rfl⟩, opened, rfl⟩ := jsonc
  have wider := @Spells.mono jsoncDialect lenientDialect (fun _ gap => gap)
    (fun _ text scalar => ⟨text, scalar, woven_self (scalarValue_scalar scalar).2⟩) id False.elim
    _ _ spells
  exact ⟨gap ++ spelled, tail, ⟨gap, spelled, spaced, wider, rfl⟩, .inl opened, rfl⟩

/-- Plain JSON is JSON with comments. -/
private theorem jsonc_of_strict {value : Json} {content : List Char}
    (strict : Text strictDialect value content) : JsoncText value content := by
  obtain ⟨gap, spelled, blank, spells, rfl⟩ := strict
  have wider := @Spells.mono strictDialect jsoncDialect (fun _ => gap_of_blanks)
    (fun _ _ scalar => scalar) False.elim False.elim _ _ spells
  exact ⟨gap ++ spelled, [], ⟨gap, spelled, gap_of_blanks blank, wider, rfl⟩, .inl rfl,
    (List.append_nil _).symm⟩

section

-- `fromStr` accepts exactly JSON; `meaning` is the value that it makes of a reading, where
-- it respells numbers and drops earlier entries of a key.
variable {Value : Type} {fromStr : List Char → Option Value} {meaning : Json → Value}
  (accepts : ∀ text value, fromStr text = some value ↔
    StandsFor (Text strictDialect) meaning value text)

include accepts in
theorem parseJsonc_iff (content : List Char) (value : Value) :
    parseJsonc fromStr content = some value ↔ StandsFor LenientText meaning value content := by
  rw [parseJsonc, accepts]
  exact exists_congr fun read => and_congr_left' (strict_iff_lenient content read)

include accepts in
/-- The parser follows the grammar except on texts that are JSON with comments only
with a comment inside a number or literal, a block comment left open, or a comma alone
in a container; plain JSON is parsed as it is. -/
theorem parseJsonc_follows_jsonc (content : List Char) :
    ((∀ value, parseJsonc fromStr content = some value ↔
        StandsFor JsoncText meaning value content) ↔
      ∀ value, StandsFor LenientText meaning value content →
        StandsFor JsoncText meaning value content) ∧
    ∀ value, fromStr content = some value → parseJsonc fromStr content = some value := by
  refine ⟨forall_congr' fun value => ?_, fun value parsed => ?_⟩
  · rw [parseJsonc_iff accepts]
    exact ⟨Iff.mp, fun strict => ⟨strict, fun ⟨read, jsonc, same⟩ => ⟨read, jsonc.lenient, same⟩⟩⟩
  · obtain ⟨read, strict, same⟩ := (accepts content value).mp parsed
    exact (parseJsonc_iff accepts content value).mpr
      ⟨read, (jsonc_of_strict strict).lenient, same⟩

end

/-- The parser of the model accepts exactly JSON. -/
theorem parse_standsFor (text : List Char) (value : Json) :
    parse text = some value ↔ StandsFor (Text strictDialect) id value text := by
  simp [StandsFor, parse_iff]

def commentedList : List Char := ['[', '1', ',', '/', '*', ',', '*', '/', ']']

/-- A trailing comma before a comment that holds another. -/
theorem commentedList_follows_jsonc :
    parseJsonc parse commentedList = some (.array [.number "1"]) ∧
      ∀ value, parseJsonc parse commentedList = some value ↔
        StandsFor JsoncText id value commentedList := by
  refine ⟨rfl, (parseJsonc_follows_jsonc parse_standsFor commentedList).1.mpr ?_⟩
  intro value lenient
  have parsed := (parseJsonc_iff parse_standsFor commentedList value).mpr lenient
  obtain rfl : .array [.number "1"] = value := Option.some.inj parsed
  have comment : Gap (['/', '*', ',', '*', '/'] ++ []) :=
    .block ⟨[','], by decide, rfl⟩ .nil
  have number : Spells jsoncDialect (.value (.number "1")) (['1'] ++ []) := .scalar rfl Gap.nil
  have entries : Spells jsoncDialect (.entries false [("", .number "1")])
      ([] ++ (['1'] ++ ',' :: (['/', '*', ',', '*', '/'] ++ []))) :=
    .more (.inr trivial) ⟨rfl, rfl⟩ number comment .nothing
  exact ⟨_, ⟨commentedList, [], ⟨[], commentedList, .nil, .container Gap.nil entries Gap.nil, rfl⟩,
    .inl rfl, rfl⟩, rfl⟩

private theorem Gap.first_char {gap : List Char} (spaced : Gap gap) :
    gap = [] ∨ ∃ character rest, gap = character :: rest ∧
      (isBlank character = true ∨ character = '/') := by
  cases spaced with
  | nil => exact .inl rfl
  | blank visible _ => exact .inr ⟨_, _, rfl, .inl visible⟩
  | line closed _ =>
      obtain ⟨body, _, rfl⟩ := closed
      exact .inr ⟨'/', _, rfl, .inr rfl⟩
  | block closed _ =>
      obtain ⟨body, _, rfl⟩ := closed
      exact .inr ⟨'/', _, rfl, .inr rfl⟩

private theorem Gap.last_char {gap : List Char} (spaced : Gap gap) :
    ∀ character, gap.getLast? = some character → isBlank character = true ∨ character = '/' := by
  induction spaced with
  | nil =>
      rintro character none
      cases none
  | @blank first rest visible _ ih =>
      intro character last
      cases rest with
      | nil =>
          obtain rfl : first = character := by simpa using last
          exact .inl visible
      | cons next rest => exact ih character (by simpa using last)
  | line closed _ ih =>
      intro character last
      obtain ⟨body, _, rfl⟩ := closed
      rw [List.getLast?_append, Option.or_eq_some_iff] at last
      rcases last with inside | ⟨_, own⟩
      · exact ih character inside
      · have same : '\n' = character := by
          rw [← List.cons_append, ← List.cons_append, List.getLast?_concat] at own
          exact Option.some.inj own
        exact .inl (same ▸ by decide)
  | block closed _ ih =>
      intro character last
      obtain ⟨body, _, rfl⟩ := closed
      rw [List.getLast?_append, Option.or_eq_some_iff] at last
      rcases last with inside | ⟨_, own⟩
      · exact ih character inside
      · have shape : '/' :: '*' :: (body ++ ['*', '/']) = '/' :: '*' :: (body ++ ['*']) ++ ['/'] := by
          simp
        rw [shape, List.getLast?_concat] at own
        exact .inr (Option.some.inj own).symm

/-- Two digits with an empty comment between them are read as one number. -/
theorem commentInNumber_accepted :
    parseJsonc parse ['1', '/', '*', '*', '/', '2'] = some (.number "12") ∧
      ∀ value, ¬JsoncText value ['1', '/', '*', '*', '/', '2'] := by
  refine ⟨rfl, ?_⟩
  rintro value ⟨whole, tail, ⟨gap, spelled, spaced, spells, rfl⟩, opened, same⟩
  have noTail : tail = [] := by
    rcases opened with none | ⟨body, _, rfl⟩
    · exact none
    · exact absurd ⟨gap ++ spelled, body, by simpa using same.symm⟩
        (by decide : ¬['/', '/'] <:+: ['1', '/', '*', '*', '/', '2'])
  subst noTail
  rw [List.append_nil] at same
  have noGap : gap = [] := by
    rcases spaced.first_char with none | ⟨character, rest, rfl, odd⟩
    · exact none
    · obtain ⟨rfl, _⟩ := List.cons.inj same
      exact absurd odd (by decide)
  subst noGap
  rw [List.nil_append] at same
  cases spells with
  | @scalar _ token after scalar behind =>
      have none : after = [] := by
        by_contra some
        have last := congrArg List.getLast? same
        rw [List.getLast?_append_of_ne_nil _ some] at last
        exact absurd (behind.last_char '2' last.symm) (by decide)
      subst none
      rw [List.append_nil] at same
      have all := (scalarValue_scalar scalar).1
      rw [← same] at all
      exact absurd all (by decide)
  | string token behind =>
      obtain ⟨body, decoded, _, _, _, rfl⟩ := token
      exact absurd (List.cons.inj same).1 (by decide)
  | @container keyed => cases keyed <;> exact absurd (List.cons.inj same).1 (by decide)
  | lone allowed => exact allowed.elim

end ZenithRelay.LocalPool.Profiles.OpenCode
