import ZenithRelay.Foundations.BoundedInsertion
import ZenithRelay.Foundations.Json
import ZenithRelay.Foundations.Text

/-!
# Looking tools of the catalog up

The model asks for tools by their names or by a query; a query gives the best matches.
-/

set_option autoImplicit false

namespace ZenithRelay.Gateway.Execution.BasisPoints

open BoundedInsertion

def maxLookupTools : Nat := 8

/-- What the lookup reads of a tool. -/
structure ClientTool where
  name : String
  toolNamespace : Option String
  serializedSpec : String
  deriving DecidableEq

/-- `str::strip_prefix`. -/
def stripStart (text start : String) : Option String :=
  if Text.startsWith text start then
    some (String.ofList (text.toList.drop start.toList.length))
  else none

namespace ClientTool

def key (tool : ClientTool) : String :=
  match tool.toolNamespace with
  | some toolNamespace => toolNamespace ++ "." ++ tool.name
  | none => tool.name

/-- Matches the exact qualified key without building it. -/
def matchesKey (tool : ClientTool) (key : String) : Bool :=
  match tool.toolNamespace with
  | some toolNamespace =>
    ((stripStart key toolNamespace).bind fun suffix => stripStart suffix ".") == some tool.name
  | none => key == tool.name

end ClientTool

/-- `str::contains`. -/
def containsText (text term : String) : Bool := decide (term.toList <:+: text.toList)

/-- `char::is_alphanumeric` and `str::to_lowercase`. -/
structure UnicodeTables where
  isAlphanumeric : Char → Bool
  toLowercase : String → String

def invalidArguments : String := "output.relay.catalog.arguments"

def lookupNames (tools : List ClientTool) :
    List Json → List ClientTool → Except String (List ClientTool)
  | [], selected => .ok selected
  | name :: names, selected =>
    match name.asStr with
    | none => .error invalidArguments
    | some name =>
      match tools.find? (·.matchesKey name) with
      | none => .error invalidArguments
      | some tool =>
        lookupNames tools names
          (if selected.any (·.matchesKey name) then selected else selected ++ [tool])

/-- The words of a query. -/
def queryTerms (unicode : UnicodeTables) (query : String) : List String :=
  ((query.toList.splitOnP fun character => !unicode.isAlphanumeric character).filter
    fun term => !term.isEmpty).map fun term => unicode.toLowercase (String.ofList term)

/-- A word in the name is worth four, one in the declaration only is worth one. -/
def score (unicode : UnicodeTables) (terms : List String) (tool : ClientTool) : Nat :=
  let name := unicode.toLowercase tool.key
  (terms.map fun term =>
    if containsText name term then 4
    else if containsText (unicode.toLowercase tool.serializedSpec) term then 1 else 0).sum

/-- The order of the matches: a greater score first, then the smaller key. -/
def ranksBefore (left right : Nat × String × ClientTool) : Bool :=
  right.1 < left.1 || (left.1 == right.1 && left.2.1 ≤ right.2.1)

def insertMatch (unicode : UnicodeTables) (terms : List String) (limit : Nat)
    (kept : List (Nat × String × ClientTool)) (tool : ClientTool) :
    List (Nat × String × ClientTool) :=
  let score := score unicode terms tool
  if score = 0 then kept else insertBounded ranksBefore limit kept (score, tool.key, tool)

def lookupQuery (unicode : UnicodeTables) (tools : List ClientTool) (query : String)
    (limit : Nat) : List ClientTool :=
  let terms := queryTerms unicode query
  if terms.isEmpty then []
  else (tools.foldl (insertMatch unicode terms limit) []).map (·.2.2)

def lookup (unicode : UnicodeTables) (tools : List ClientTool) (arguments : Json) :
    Except String (List ClientTool) :=
  match arguments.asObject with
  | none => .error invalidArguments
  | some fields =>
    match Json.field fields "names" with
    | some names =>
      if fields.length ≠ 1 then .error invalidArguments
      else
        match names.asArray.filter fun names =>
            !names.isEmpty && names.length ≤ maxLookupTools with
        | none => .error invalidArguments
        | some names => lookupNames tools names []
    | none =>
      if fields.any fun entry => entry.1 != "query" && entry.1 != "limit" then
        .error invalidArguments
      else
        match ((Json.field fields "query").bind Json.asStr).filter fun query =>
            Text.trim query != "" && query.utf8ByteSize ≤ 500 with
        | none => .error invalidArguments
        | some query =>
          match Json.field fields "limit" with
          | none => .ok (lookupQuery unicode tools query 5)
          | some value =>
            match value.asU64.filter fun limit => 1 ≤ limit && limit ≤ maxLookupTools with
            | none => .error invalidArguments
            | some limit => .ok (lookupQuery unicode tools query limit)

end ZenithRelay.Gateway.Execution.BasisPoints
