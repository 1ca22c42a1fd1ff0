import ZenithRelay.Foundations.JsonParser

/-!
# Compact texts

What `serde_json::to_string` writes: no blanks, an escape only where one is needed, and
the fields in their order. A printed value is parsed back.
-/

set_option autoImplicit false

namespace ZenithRelay.Json

/-! ### Strings -/

/-- The mark of a character that has an escape of its own. -/
def shortMark (character : Char) : Option Char :=
  if character = '"' then some '"'
  else if character = '\\' then some '\\'
  else if character = '\x08' then some 'b'
  else if character = '\x0c' then some 'f'
  else if character = '\n' then some 'n'
  else if character = '\r' then some 'r'
  else if character = '\t' then some 't'
  else none

def escapeChar (character : Char) : List Char :=
  match shortMark character with
  | some mark => ['\\', mark]
  | none =>
    if character.toNat < 0x20 then
      ['\\', 'u', '0', '0', (character.toNat / 16).digitChar, (character.toNat % 16).digitChar]
    else [character]

private theorem shortEscape_shortMark {character mark : Char} (short : shortMark character = some mark) :
    shortEscape mark = some character ∧ mark ≠ 'u' := by
  unfold shortMark at short
  split_ifs at short with quote backslash backspace feed newline carriage tab
  all_goals
    cases short
    subst_vars
    exact ⟨by decide, by decide⟩

private theorem decodeBody_short {mark character : Char} (escape : shortEscape mark = some character)
    (other : mark ≠ 'u') (rest : List Char) :
    decodeBody ('\\' :: mark :: rest) = (decodeBody rest).map (character :: ·) := by
  rw [decodeBody, escape]
  rintro a b c d tail rfl
  exact fun _ => other rfl

private theorem decodeBody_plain {character : Char} (escape : character ≠ '\\')
    (visible : ¬character.toNat < 0x20) (rest : List Char) :
    decodeBody (character :: rest) = (decodeBody rest).map (character :: ·) := by
  rw [decodeBody, if_neg visible]
  · rintro a b c d tail rfl
    exact fun _ => escape rfl
  · rintro mark tail rfl
    exact fun _ => escape rfl

private theorem codeUnit_control (value : Nat) (control : value < 0x20) :
    codeUnit '0' '0' (value / 16).digitChar (value % 16).digitChar = some value := by
  revert value
  decide

private theorem decodeBody_control {value : Nat} (control : value < 0x20) (rest : List Char) :
    decodeBody ('\\' :: 'u' :: '0' :: '0' :: (value / 16).digitChar :: (value % 16).digitChar ::
      rest) = (decodeBody rest).map (Char.ofNat value :: ·) := by
  have high : isHighSurrogate value = false := by
    simp only [isHighSurrogate, Bool.and_eq_false_iff, decide_eq_false_iff_not]
    omega
  have low : isLowSurrogate value = false := by
    simp only [isLowSurrogate, Bool.and_eq_false_iff, decide_eq_false_iff_not]
    omega
  rw [decodeBody]
  simp only [codeUnit_control value control, high, low, Bool.false_eq_true, if_false]

private theorem decodeBody_escapeChar (character : Char) (rest : List Char) :
    decodeBody (escapeChar character ++ rest) = (decodeBody rest).map (character :: ·) := by
  unfold escapeChar
  split
  next mark short =>
    obtain ⟨escape, other⟩ := shortEscape_shortMark short
    exact decodeBody_short escape other rest
  next long =>
    split
    next control =>
      exact (decodeBody_control control rest).trans (by rw [Char.ofNat_toNat])
    next visible =>
      refine decodeBody_plain ?_ visible rest
      rintro rfl
      cases long

theorem Body.append {first second : List Char} (before : Body first) (after : Body second) :
    Body (first ++ second) := by
  induction before with
  | nil => exact after
  | plain unquoted unescaped _ ih => exact .plain unquoted unescaped ih
  | escape _ ih => exact .escape ih

/-- Characters that are no quote and no backslash. -/
theorem body_of_plain {characters : List Char}
    (plain : ∀ character ∈ characters, character ≠ '"' ∧ character ≠ '\\') : Body characters := by
  induction characters with
  | nil => exact .nil
  | cons first rest ih =>
    obtain ⟨⟨unquoted, unescaped⟩, others⟩ := List.forall_mem_cons.mp plain
    exact .plain unquoted unescaped (ih others)

private theorem body_control {value : Nat} (control : value < 0x20) :
    Body ['u', '0', '0', (value / 16).digitChar, (value % 16).digitChar] := by
  have digit : ∀ digit < 16, digit.digitChar ≠ '"' ∧ digit.digitChar ≠ '\\' := by decide
  refine body_of_plain ?_
  simp only [List.forall_mem_cons, List.not_mem_nil, IsEmpty.forall_iff, implies_true, and_true]
  exact ⟨by decide, by decide, by decide, digit _ (by omega), digit _ (by omega)⟩

private theorem body_escapeChar (character : Char) : Body (escapeChar character) := by
  unfold escapeChar
  split
  next mark _ => exact .escape .nil
  next long =>
    split
    next control =>
      obtain ⟨⟩ | ⟨_, _, rest⟩ | ⟨rest⟩ := body_control control
      exact .escape rest
    next =>
      refine body_of_plain ?_
      rintro other member
      obtain rfl := List.mem_singleton.mp member
      constructor
      · rintro rfl
        cases long
      · rintro rfl
        cases long

/-- A text with its quotes. -/
def quoted (text : String) : List Char := '"' :: (text.toList.flatMap escapeChar ++ ['"'])

private theorem stringToken_quoted (text : String) : StringToken text (quoted text) := by
  have decoded (characters : List Char) :
      decodeBody (characters.flatMap escapeChar) = some characters := by
    induction characters with
    | nil => rfl
    | cons first rest ih => rw [List.flatMap_cons, decodeBody_escapeChar, ih, Option.map_some]
  have body (characters : List Char) : Body (characters.flatMap escapeChar) := by
    induction characters with
    | nil => exact .nil
    | cons first rest ih => exact (body_escapeChar first).append ih
  exact ⟨_, _, body text.toList, decoded text.toList, String.ofList_toList.symm, rfl⟩

/-! ### Values -/

mutual

/-- `serde_json::to_string`, for numbers that are some and keys that are distinct. -/
def compact : Json → Option (List Char)
  | .null => some ['n', 'u', 'l', 'l']
  | .bool true => some ['t', 'r', 'u', 'e']
  | .bool false => some ['f', 'a', 'l', 's', 'e']
  | .number text => if isNumber text.toList then some text.toList else none
  | .string text => some (quoted text)
  | .array items => (compactItems items).map fun inner => '[' :: (inner ++ [']'])
  | .object fields =>
    if (fields.map Prod.fst).Nodup then
      (compactFields fields).map fun inner => '{' :: (inner ++ ['}'])
    else none

def compactItems : List Json → Option (List Char)
  | [] => some []
  | item :: items => do
    let first ← compact item
    let rest ← compactItems items
    some (if items.isEmpty then first else first ++ ',' :: rest)

def compactFields : List (String × Json) → Option (List Char)
  | [] => some []
  | (key, value) :: fields => do
    let first ← compact value
    let rest ← compactFields fields
    let entry := quoted key ++ ':' :: first
    some (if fields.isEmpty then entry else entry ++ ',' :: rest)

end

private theorem foldl_insert {before entries : List (String × Json)}
    (distinct : ((before ++ entries).map Prod.fst).Nodup) :
    entries.foldl (fun fields entry => insert fields entry.1 entry.2) before = before ++ entries := by
  induction entries generalizing before with
  | nil => simp
  | cons entry rest ih =>
    have fresh : before.any (·.1 == entry.1) = false := by
      rw [List.any_eq_false]
      intro other member same
      rw [List.map_append, List.nodup_append] at distinct
      exact distinct.2.2 other.1 (List.mem_map_of_mem member) entry.1 (by simp) (by simpa using same)
    rw [List.foldl_cons, insert, fresh]
    simp only [Bool.false_eq_true, if_false]
    rw [ih (by simpa using distinct), List.append_assoc, List.singleton_append]

private theorem collect_distinct {entries : List (String × Json)}
    (distinct : (entries.map Prod.fst).Nodup) : collect entries = entries :=
  foldl_insert distinct

/-- The entries of a container between brackets. -/
private theorem spells_container {keyed : Bool} {entries : List (String × Json)} {inner : List Char}
    (inside : Spells strictDialect (.entries keyed entries) inner) :
    Spells strictDialect (.value (container keyed entries))
      (opening keyed :: (inner ++ [closing keyed])) :=
  @Spells.container strictDialect keyed entries [] inner [] rfl inside rfl

/-- One more entry in front. -/
private theorem spells_entry {keyed : Bool} {key : String} {value : Json} {before spelled rest : List Char}
    {entries : List (String × Json)} (token : KeyToken strictDialect keyed key before)
    (whole : Spells strictDialect (.value value) spelled)
    (others : Spells strictDialect (.entries keyed entries) rest) :
    Spells strictDialect (.entries keyed ((key, value) :: entries))
      (if entries.isEmpty then before ++ spelled else before ++ spelled ++ ',' :: rest) := by
  cases entries with
  | nil => exact .last token whole
  | cons entry entries =>
    rw [List.append_assoc]
    exact @Spells.more strictDialect keyed key value (entry :: entries) before spelled [] rest
      (.inl (by simp)) token whole rfl others

private theorem spells_scalar {value : Json} {spelled : List Char}
    (token : scalarValue spelled = some value) :
    Spells strictDialect (.value value) spelled := by
  have spells := @Spells.scalar strictDialect value spelled [] token rfl
  rwa [List.append_nil] at spells

private theorem scalarValue_number {text : String} (valid : isNumber text.toList = true) :
    scalarValue text.toList = some (.number text) := by
  have other {word : List Char} (noNumber : isNumber word = false) : text.toList ≠ word := by
    rintro rfl
    rw [valid] at noNumber
    cases noNumber
  rw [scalarValue, if_neg (other (by decide)), if_neg (other (by decide)),
    if_neg (other (by decide)), if_pos valid, String.ofList_toList]

mutual

theorem compact_spells : ∀ (value : Json) (text : List Char), compact value = some text →
    Spells strictDialect (.value value) text
  | .null, _, printed => by
    cases printed
    exact spells_scalar rfl
  | .bool true, _, printed => by
    cases printed
    exact spells_scalar rfl
  | .bool false, _, printed => by
    cases printed
    exact spells_scalar rfl
  | .number digits, text, printed => by
    rw [compact] at printed
    split at printed
    next valid =>
      cases printed
      exact spells_scalar (scalarValue_number valid)
    next => cases printed
  | .string content, _, printed => by
    cases printed
    have spells := @Spells.string strictDialect content (quoted content) []
      (stringToken_quoted content) rfl
    rwa [List.append_nil] at spells
  | .array items, text, printed => by
    rw [compact] at printed
    obtain ⟨inner, inside, rfl⟩ := Option.map_eq_some_iff.mp printed
    have spells := spells_container (compactItems_spells items inner inside)
    rwa [container, if_neg Bool.false_ne_true, List.map_map, List.map_id''] at spells
    intro item
    rfl
  | .object fields, text, printed => by
    rw [compact] at printed
    split at printed
    next distinct =>
      obtain ⟨inner, inside, rfl⟩ := Option.map_eq_some_iff.mp printed
      have spells := spells_container (compactFields_spells fields inner inside)
      rwa [container, if_pos rfl, collect_distinct distinct] at spells
    next => cases printed

theorem compactItems_spells : ∀ (items : List Json) (text : List Char),
    compactItems items = some text →
    Spells strictDialect (.entries false (items.map ("", ·))) text
  | [], _, printed => by
    cases printed
    exact .nothing
  | item :: items, text, printed => by
    rw [compactItems] at printed
    obtain ⟨first, head, printed⟩ := Option.bind_eq_some_iff.mp printed
    obtain ⟨rest, tail, printed⟩ := Option.bind_eq_some_iff.mp printed
    cases printed
    have noKey : KeyToken strictDialect false "" [] := ⟨rfl, rfl⟩
    have spells := spells_entry noKey (compact_spells item first head)
      (compactItems_spells items rest tail)
    simpa using spells

theorem compactFields_spells : ∀ (fields : List (String × Json)) (text : List Char),
    compactFields fields = some text → Spells strictDialect (.entries true fields) text
  | [], _, printed => by
    cases printed
    exact .nothing
  | (key, value) :: fields, text, printed => by
    rw [compactFields] at printed
    obtain ⟨first, head, printed⟩ := Option.bind_eq_some_iff.mp printed
    obtain ⟨rest, tail, printed⟩ := Option.bind_eq_some_iff.mp printed
    cases printed
    have token : KeyToken strictDialect true key (quoted key ++ [':']) :=
      ⟨quoted key, [], [], stringToken_quoted key, rfl, rfl, rfl⟩
    have spells := spells_entry token (compact_spells value first head)
      (compactFields_spells fields rest tail)
    simpa using spells

end

end ZenithRelay.Json
