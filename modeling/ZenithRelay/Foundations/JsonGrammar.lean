import ZenithRelay.Foundations.Json

/-!
# The grammar of JSON texts

Tokens, and the texts of a value in a dialect: what may stand between tokens, how a
number or a literal may be written, and where a comma too many is allowed.
-/

set_option autoImplicit false

namespace ZenithRelay.Json

/-! ### Tokens -/

/-- The blanks between tokens. -/
def isBlank (character : Char) : Bool :=
  character == ' ' || character == '\t' || character == '\n' || character == '\r'

/-- The characters of numbers and literals. -/
def isScalarChar (character : Char) : Bool :=
  character.isAlphanum || character == '-' || character == '+' || character == '.'

def isDigits (text : List Char) : Bool := !text.isEmpty && text.all Char.isDigit

/-- `exp?` up to the end. -/
def isExponent : List Char → Bool
  | [] => true
  | mark :: rest =>
    (mark == 'e' || mark == 'E') &&
      match rest with
      | '+' :: digits => isDigits digits
      | '-' :: digits => isDigits digits
      | digits => isDigits digits

/-- `frac? exp?` up to the end. -/
def isFraction : List Char → Bool
  | '.' :: rest =>
    isDigits (rest.takeWhile Char.isDigit) && isExponent (rest.dropWhile Char.isDigit)
  | rest => isExponent rest

/-- `int frac? exp?`: a first zero stands alone. -/
def isUnsigned : List Char → Bool
  | [] => false
  | '0' :: rest => isFraction rest
  | first :: rest => first.isDigit && isFraction (rest.dropWhile Char.isDigit)

def isNumber : List Char → Bool
  | '-' :: rest => isUnsigned rest
  | text => isUnsigned text

def scalarValue (text : List Char) : Option Json :=
  if text = ['n', 'u', 'l', 'l'] then some .null
  else if text = ['t', 'r', 'u', 'e'] then some (.bool true)
  else if text = ['f', 'a', 'l', 's', 'e'] then some (.bool false)
  else if isNumber text then some (.number (String.ofList text))
  else none

/-- What stands between the quotes of a string: no bare quote, and every backslash
takes the next character with it. -/
inductive Body : List Char → Prop
  | nil : Body []
  | plain {character : Char} {body : List Char} (unquoted : character ≠ '"')
      (unescaped : character ≠ '\\') (rest : Body body) : Body (character :: body)
  | escape {character : Char} {body : List Char} (rest : Body body) :
      Body ('\\' :: character :: body)

def shortEscape : Char → Option Char
  | '"' => some '"'
  | '\\' => some '\\'
  | '/' => some '/'
  | 'b' => some '\x08'
  | 'f' => some '\x0c'
  | 'n' => some '\n'
  | 'r' => some '\r'
  | 't' => some '\t'
  | _ => none

def hexDigit (character : Char) : Option Nat :=
  if character.isDigit then some (character.toNat - '0'.toNat)
  else if 'a' ≤ character ∧ character ≤ 'f' then some (character.toNat - 'a'.toNat + 10)
  else if 'A' ≤ character ∧ character ≤ 'F' then some (character.toNat - 'A'.toNat + 10)
  else none

/-- A code unit of four hexadecimal digits. -/
def codeUnit (a b c d : Char) : Option Nat := do
  some ((((← hexDigit a) * 16 + (← hexDigit b)) * 16 + (← hexDigit c)) * 16 + (← hexDigit d))

def isHighSurrogate (unit : Nat) : Bool := 0xd800 ≤ unit && unit ≤ 0xdbff

def isLowSurrogate (unit : Nat) : Bool := 0xdc00 ≤ unit && unit ≤ 0xdfff

/-- The characters that a string body stands for; none with a control character, an
unknown escape or half a surrogate pair. -/
def decodeBody : List Char → Option (List Char)
  | [] => some []
  | '\\' :: 'u' :: a :: b :: c :: d :: rest =>
    match codeUnit a b c d with
    | none => none
    | some unit =>
      if isHighSurrogate unit then
        match rest with
        | '\\' :: 'u' :: e :: f :: g :: h :: rest =>
          match codeUnit e f g h with
          | none => none
          | some low =>
            if isLowSurrogate low then
              (decodeBody rest).map
                (Char.ofNat (0x10000 + (unit - 0xd800) * 0x400 + (low - 0xdc00)) :: ·)
            else none
        | _ => none
      else if isLowSurrogate unit then none
      else (decodeBody rest).map (Char.ofNat unit :: ·)
  | '\\' :: mark :: rest =>
    match shortEscape mark with
    | none => none
    | some character => (decodeBody rest).map (character :: ·)
  | character :: rest =>
    if character.toNat < 0x20 then none else (decodeBody rest).map (character :: ·)

/-- A string literal with its quotes. -/
def StringToken (text : String) (spelled : List Char) : Prop :=
  ∃ body decoded, Body body ∧ decodeBody body = some decoded ∧ text = String.ofList decoded ∧
    spelled = '"' :: (body ++ ['"'])

/-! ### Dialects -/

/-- What a dialect allows around and inside the tokens. -/
structure Dialect where
  /-- What may stand between two tokens. -/
  gap : List Char → Prop
  /-- How a number or a literal may be written. -/
  scalar : Json → List Char → Prop
  /-- A comma after the last entry. -/
  lastComma : Prop
  /-- A comma and nothing else between brackets. -/
  loneComma : Prop

/-- Blanks only, no comma too many. -/
def strictDialect : Dialect where
  gap text := text.all isBlank = true
  scalar value text := scalarValue text = some value
  lastComma := False
  loneComma := False

/-- A value, or the entries of a container; those of an array have the empty key. -/
inductive Node where
  | value (value : Json)
  | entries (keyed : Bool) (entries : List (String × Json))

def opening (keyed : Bool) : Char := if keyed then '{' else '['

def closing (keyed : Bool) : Char := if keyed then '}' else ']'

/-- The last entry of a key counts, at the place of the first. -/
def collect (entries : List (String × Json)) : List (String × Json) :=
  entries.foldl (fun fields entry => insert fields entry.1 entry.2) []

def container (keyed : Bool) (entries : List (String × Json)) : Json :=
  if keyed then .object (collect entries) else .array (entries.map Prod.snd)

/-- What stands before the value of an entry. -/
def KeyToken (dialect : Dialect) (keyed : Bool) (key : String) (spelled : List Char) : Prop :=
  if keyed then
    ∃ token before after, StringToken key token ∧ dialect.gap before ∧ dialect.gap after ∧
      spelled = token ++ (before ++ ':' :: after)
  else key = "" ∧ spelled = []

/-- How a node is written, every token with the gap after it. -/
inductive Spells (dialect : Dialect) : Node → List Char → Prop
  | scalar {value : Json} {spelled gap : List Char} (token : dialect.scalar value spelled)
      (after : dialect.gap gap) : Spells dialect (.value value) (spelled ++ gap)
  | string {text : String} {spelled gap : List Char} (token : StringToken text spelled)
      (after : dialect.gap gap) : Spells dialect (.value (.string text)) (spelled ++ gap)
  | container {keyed : Bool} {entries : List (String × Json)} {first inner last : List Char}
      (opened : dialect.gap first) (inside : Spells dialect (.entries keyed entries) inner)
      (closed : dialect.gap last) :
      Spells dialect (.value (container keyed entries))
        (opening keyed :: (first ++ (inner ++ closing keyed :: last)))
  | lone {keyed : Bool} {first middle last : List Char} (allowed : dialect.loneComma)
      (opened : dialect.gap first) (between : dialect.gap middle) (closed : dialect.gap last) :
      Spells dialect (.value (container keyed []))
        (opening keyed :: (first ++ ',' :: (middle ++ closing keyed :: last)))
  | nothing {keyed : Bool} : Spells dialect (.entries keyed []) []
  | last {keyed : Bool} {key : String} {value : Json} {before spelled : List Char}
      (token : KeyToken dialect keyed key before) (whole : Spells dialect (.value value) spelled) :
      Spells dialect (.entries keyed [(key, value)]) (before ++ spelled)
  | more {keyed : Bool} {key : String} {value : Json} {entries : List (String × Json)}
      {before spelled gap rest : List Char} (allowed : entries ≠ [] ∨ dialect.lastComma)
      (token : KeyToken dialect keyed key before) (whole : Spells dialect (.value value) spelled)
      (after : dialect.gap gap) (others : Spells dialect (.entries keyed entries) rest) :
      Spells dialect (.entries keyed ((key, value) :: entries))
        (before ++ (spelled ++ ',' :: (gap ++ rest)))

/-- A dialect that allows more spells more. -/
theorem Spells.mono {dialect wider : Dialect}
    (gap : ∀ text, dialect.gap text → wider.gap text)
    (scalar : ∀ value text, dialect.scalar value text → wider.scalar value text)
    (lastComma : dialect.lastComma → wider.lastComma)
    (loneComma : dialect.loneComma → wider.loneComma) {node : Node} {spelled : List Char}
    (spells : Spells dialect node spelled) : Spells wider node spelled := by
  have key : ∀ {keyed : Bool} {key : String} {before : List Char},
      KeyToken dialect keyed key before → KeyToken wider keyed key before := by
    intro keyed key before token
    cases keyed with
    | false => exact token
    | true =>
        obtain ⟨quoted, leading, trailing, string, first, second, same⟩ := token
        exact ⟨quoted, leading, trailing, string, gap _ first, gap _ second, same⟩
  induction spells with
  | scalar token after => exact .scalar (scalar _ _ token) (gap _ after)
  | string token after => exact .string token (gap _ after)
  | container opened _ closed ih => exact .container (gap _ opened) ih (gap _ closed)
  | lone allowed opened between closed =>
      exact .lone (loneComma allowed) (gap _ opened) (gap _ between) (gap _ closed)
  | nothing => exact .nothing
  | last token _ ih => exact .last (key token) ih
  | more allowed token _ after _ ih rest_ih =>
      exact .more (allowed.imp_right lastComma) (key token) ih (gap _ after) rest_ih

/-- More of a gap may follow a value. -/
theorem Spells.append_gap {dialect : Dialect}
    (joined : ∀ first second, dialect.gap first → dialect.gap second →
      dialect.gap (first ++ second))
    {value : Json} {spelled gap : List Char} (spells : Spells dialect (.value value) spelled)
    (more : dialect.gap gap) : Spells dialect (.value value) (spelled ++ gap) := by
  cases spells with
  | scalar token after =>
      rw [List.append_assoc]
      exact .scalar token (joined _ _ after more)
  | string token after =>
      rw [List.append_assoc]
      exact .string token (joined _ _ after more)
  | container opened inside closed =>
      rw [List.cons_append, List.append_assoc, List.append_assoc, List.cons_append]
      exact .container opened inside (joined _ _ closed more)
  | lone allowed opened between closed =>
      rw [List.cons_append, List.append_assoc, List.cons_append, List.append_assoc,
        List.cons_append]
      exact .lone allowed opened between (joined _ _ closed more)

/-- A whole text of a value. -/
def Text (dialect : Dialect) (value : Json) (text : List Char) : Prop :=
  ∃ gap spelled, dialect.gap gap ∧ Spells dialect (.value value) spelled ∧ text = gap ++ spelled

end ZenithRelay.Json
