import ZenithRelay.Foundations.JsonParser
import ZenithRelay.Foundations.Text

/-!
# Tolerant payload JSON

Payloads that models write with raw line breaks and unknown escapes in their strings:
strict parsing first, then the text with those escaped.
-/

set_option autoImplicit false

namespace ZenithRelay.Gateway.Execution

/-- The characters that a backslash forms a JSON escape with. -/
def isKnownEscape (next : Char) : Bool :=
  next == '"' || next == '\\' || next == '/' || next == 'b' || next == 'f' || next == 'n' ||
    next == 'r' || next == 't' || next == 'u'

/-- Characters that keep a backslash before them as it is. -/
def isOrdinary (next : Char) : Bool := !Text.isControl next && !isKnownEscape next

def rawEscape : Char → Option Char
  | '\n' => some 'n'
  | '\r' => some 'r'
  | '\t' => some 't'
  | _ => none

/-- Preserves non-JSON escapes literally; valid escapes retain JSON semantics. -/
def normalize : Bool → Bool → List Char → List Char
  | _, _, [] => []
  | quoted, escaped, character :: rest =>
    if quoted = true ∧ escaped = false ∧ character = '\\' ∧ rest.head?.any isOrdinary = true then
      '\\' :: '\\' :: normalize quoted escaped rest
    else
      match if quoted && !escaped then rawEscape character else none with
      | some escape => '\\' :: escape :: normalize quoted escaped rest
      | none =>
        let quotedNext := if character = '"' ∧ escaped = false then !quoted else quoted
        character :: normalize quotedNext (quotedNext && character == '\\' && !escaped) rest

/-- Whether the second attempt is made at all. -/
def isRepairable (text : List Char) : Bool :=
  text.any fun character =>
    character == '\n' || character == '\r' || character == '\t' || character == '\\'

variable {Failure : Type}

/-- `fromStr` is `serde_json::from_str`. -/
def parsePayloadJson (fromStr : List Char → Except Failure Json) (text : List Char) :
    Except Failure Json :=
  match fromStr text with
  | .ok value => .ok value
  | .error error =>
    if !isRepairable text then .error error else fromStr (normalize false false text)

/-! ### Texts with raw characters -/

/-- The second text is the first with, inside its strings, some of the escapes for line
breaks and tabs written as those characters, and some escaped backslashes before
ordinary characters written as one backslash. -/
inductive Loosened : Bool → List Char → List Char → Prop
  | nil {quoted : Bool} : Loosened quoted [] []
  | outside {character : Char} {text loose : List Char} (unquoted : character ≠ '"')
      (rest : Loosened false text loose) : Loosened false (character :: text) (character :: loose)
  | opened {text loose : List Char} (rest : Loosened true text loose) :
      Loosened false ('"' :: text) ('"' :: loose)
  | closed {text loose : List Char} (rest : Loosened false text loose) :
      Loosened true ('"' :: text) ('"' :: loose)
  | plain {character : Char} {text loose : List Char} (unquoted : character ≠ '"')
      (unescaped : character ≠ '\\') (rest : Loosened true text loose) :
      Loosened true (character :: text) (character :: loose)
  | escape {character : Char} {text loose : List Char} (rest : Loosened true text loose) :
      Loosened true ('\\' :: character :: text) ('\\' :: character :: loose)
  | raw {character escape : Char} {text loose : List Char}
      (known : rawEscape character = some escape) (rest : Loosened true text loose) :
      Loosened true ('\\' :: escape :: text) (character :: loose)
  | single {next : Char} {text loose : List Char} (ordinary : isOrdinary next = true)
      (rest : Loosened true (next :: text) loose) :
      Loosened true ('\\' :: '\\' :: next :: text) ('\\' :: loose)

/-! ### Complete texts -/

/-- Where a reader of one value stands. -/
inductive ValueScan where
  | before
  | scalar
  /-- Inside the brackets of `opened`, innermost first, and inside a string or not. -/
  | inside (opened : List Bool) (quoted escaped : Bool)
  | after
  | failed
  deriving DecidableEq

def isMark (character : Char) : Bool :=
  character == ',' || character == ':' || character == ']' || character == '}' ||
    character == '[' || character == '{' || character == '"'

/-- Strings end at a quote that no backslash escapes, brackets close in order, and only
blanks follow the value. -/
def ValueScan.step : ValueScan → Char → ValueScan
  | .before, character =>
    if Json.isBlank character then .before
    else if character = '"' then .inside [] true false
    else if character = '{' then .inside [true] false false
    else if character = '[' then .inside [false] false false
    else if isMark character then .failed
    else .scalar
  | .scalar, character =>
    if Json.isBlank character then .after else if isMark character then .failed else .scalar
  | .inside opened true true, _ => .inside opened true false
  | .inside opened true false, character =>
    if character = '\\' then .inside opened true true
    else if character = '"' then if opened = [] then .after else .inside opened false false
    else .inside opened true false
  | .inside opened false _, character =>
    if character = '"' then .inside opened true false
    else if character = '{' then .inside (true :: opened) false false
    else if character = '[' then .inside (false :: opened) false false
    else if character = '}' ∨ character = ']' then
      match opened with
      | [] => .failed
      | keyed :: outer =>
        if Json.closing keyed = character then
          if outer = [] then .after else .inside outer false false
        else .failed
    else .inside opened false false
  | .after, character => if Json.isBlank character then .after else .failed
  | .failed, _ => .failed

def ValueScan.read (start : ValueScan) (text : List Char) : ValueScan := text.foldl step start

/-- No unterminated string, no unbalanced container and nothing after the value. -/
def IsComplete (text : List Char) : Prop :=
  ValueScan.before.read text = .scalar ∨ ValueScan.before.read text = .after

end ZenithRelay.Gateway.Execution
