import ZenithRelay.Foundations.JsonParser
import ZenithRelay.Foundations.Text

/-!
# JSON with comments

`parse_jsonc` of the OpenCode configuration, and the grammar of JSON with comments
and trailing commas, strict and as the two passes read it.
-/

set_option autoImplicit false

namespace ZenithRelay.LocalPool.Profiles.OpenCode

/-! ### The two passes -/

/-- Where the first pass stands. -/
inductive CommentScan where
  | code
  | string
  | escaped
  | line
  | block (previousChar : Char)
  deriving DecidableEq

/-- Line comments up to their line break, block comments except for theirs. -/
def stripComments : CommentScan → List Char → List Char
  | _, [] => []
  | .code, '/' :: '/' :: rest => stripComments .line rest
  | .code, '/' :: '*' :: rest => stripComments (.block '\x00') rest
  | .code, ch :: rest => ch :: stripComments (if ch = '"' then .string else .code) rest
  | .string, ch :: rest =>
    ch :: stripComments
      (if ch = '\\' then .escaped else if ch = '"' then .code else .string) rest
  | .escaped, ch :: rest => ch :: stripComments .string rest
  | .line, ch :: rest =>
    if ch = '\n' then '\n' :: stripComments .code rest else stripComments .line rest
  | .block previousChar, ch :: rest =>
    if previousChar = '*' ∧ ch = '/' then stripComments .code rest
    else if ch = '\n' then '\n' :: stripComments (.block ch) rest
    else stripComments (.block ch) rest

/-- Where the second pass stands. -/
inductive CommaScan where
  | code
  | string
  | escaped
  deriving DecidableEq

/-- Whether the next visible character closes a container. -/
def closesNext (chars : List Char) : Bool :=
  match chars.dropWhile Text.isWhitespace with
  | '}' :: _ => true
  | ']' :: _ => true
  | _ => false

def dropTrailingCommas : CommaScan → List Char → List Char
  | _, [] => []
  | .code, ch :: rest =>
    if ch = ',' ∧ closesNext rest = true then dropTrailingCommas .code rest
    else ch :: dropTrailingCommas (if ch = '"' then .string else .code) rest
  | .string, ch :: rest =>
    ch :: dropTrailingCommas
      (if ch = '\\' then .escaped else if ch = '"' then .code else .string) rest
  | .escaped, ch :: rest => ch :: dropTrailingCommas .string rest

/-- Strips comments and trailing commas and parses what is left; `fromStr` is
`serde_json::from_str`. -/
def parseJsonc {Value : Type} (fromStr : List Char → Option Value) (content : List Char) :
    Option Value :=
  fromStr (dropTrailingCommas .code (stripComments .code content))

/-! ### The grammar -/

/-- `/* … */`, closed by the first `*/` after its opening. -/
def BlockComment (text : List Char) : Prop :=
  ∃ body, ¬['*', '/'] <:+: body ++ ['*'] ∧ text = '/' :: '*' :: (body ++ ['*', '/'])

/-- `// …` with its line break. -/
def LineComment (text : List Char) : Prop :=
  ∃ body, '\n' ∉ body ∧ text = '/' :: '/' :: (body ++ ['\n'])

/-- Whitespace and comments. -/
inductive Gap : List Char → Prop
  | nil : Gap []
  | blank {character : Char} {rest : List Char} (visible : Json.isBlank character = true)
      (more : Gap rest) : Gap (character :: rest)
  | line {comment rest : List Char} (closed : LineComment comment) (more : Gap rest) :
      Gap (comment ++ rest)
  | block {comment rest : List Char} (closed : BlockComment comment) (more : Gap rest) :
      Gap (comment ++ rest)

/-- JSON with comments wherever whitespace may stand, and one comma after the last
entry of a container that has one. -/
def jsoncDialect : Json.Dialect where
  gap := Gap
  scalar value text := Json.scalarValue text = some value
  lastComma := True
  loneComma := False

/-- A line comment that the end of the text closes, or nothing. -/
def OpenLine (text : List Char) : Prop :=
  text = [] ∨ ∃ body, '\n' ∉ body ∧ text = '/' :: '/' :: body

def JsoncText (value : Json) (text : List Char) : Prop :=
  ∃ whole tail, Json.Text jsoncDialect value whole ∧ OpenLine tail ∧ text = whole ++ tail

/-! ### What the passes read beyond it -/

/-- Block comments without a line break. -/
inductive Silent : List Char → Prop
  | nil : Silent []
  | block {comment rest : List Char} (closed : BlockComment comment) (single : '\n' ∉ comment)
      (more : Silent rest) : Silent (comment ++ rest)

/-- A token with silent comments between its characters. -/
inductive Woven : List Char → List Char → Prop
  | single (character : Char) : Woven [character] [character]
  | cons {character : Char} {token comments spelled : List Char} (between : Silent comments)
      (rest : Woven token spelled) : Woven (character :: token) (character :: (comments ++ spelled))

/-- As above, with block comments inside numbers and literals and a comma alone in a
container. -/
def lenientDialect : Json.Dialect where
  gap := Gap
  scalar value text := ∃ token, Json.scalarValue token = some value ∧ Woven token text
  lastComma := True
  loneComma := True

/-- A comment of either kind that the text ends in, or nothing. -/
def OpenComment (text : List Char) : Prop :=
  OpenLine text ∨ ∃ body, ¬['*', '/'] <:+: body ∧ text = '/' :: '*' :: body

def LenientText (value : Json) (text : List Char) : Prop :=
  ∃ whole tail, Json.Text lenientDialect value whole ∧ OpenComment tail ∧ text = whole ++ tail

end ZenithRelay.LocalPool.Profiles.OpenCode
