import ZenithRelay.Foundations.BTreeMap
import ZenithRelay.Foundations.JsonObjects
import ZenithRelay.Protocol.Adapter.Replay

/-!
# Repair of tool-search item ids

A strict endpoint wants `tsc_` ids on tool-search calls. Item references follow the
new ids; the call ids of tool results and everything else stay.
-/

set_option autoImplicit false

namespace ZenithRelay.Protocol.Adapter

/-- The id of an item, where it is a string. -/
def itemId (item : Json) : Option String := (item.get "id").bind (·.asStr)

/-- The id of a tool-search call that lies outside of the namespace. -/
def repairedId (item : Json) : Option String :=
  if itemKind item = some "tool_search_call" then
    (itemId item).filter fun id => id ≠ "" && !Text.startsWith id "tsc_"
  else none

def isAsciiAlphanumeric (character : Char) : Bool :=
  ('a' ≤ character && character ≤ 'z') || ('A' ≤ character && character ≤ 'Z') ||
    ('0' ≤ character && character ≤ '9')

def stripPrefix (text start : String) : Option String :=
  if Text.startsWith text start then
    some (String.ofList (text.toList.drop start.toList.length))
  else none

section

variable (digest : String → String)

/-- The first candidate for an id; `digest` is the SHA-256 of the text in hexadecimal. -/
def replacementBase (original : String) : String :=
  let short := (stripPrefix original "ts_").getD original
  if short.utf8ByteSize ≤ 96 ∧ short.toList.all fun character =>
      isAsciiAlphanumeric character || character = '_' || character = '-' then
    "tsc_" ++ short
  else "tsc_" ++ digest original

/-- The candidate with a suffix; there is none at first. -/
def candidateId (base : String) (suffix : Nat) : String :=
  if suffix = 0 then base else base ++ "_" ++ String.ofList (Nat.toDigits 10 suffix)

/-- The first candidate that is not occupied; `none` when `fuel` candidates are. -/
def probeId (occupied : Finset String) (base : String) (fuel suffix : Nat) : Option String :=
  match fuel with
  | 0 => none
  | fuel + 1 =>
    if candidateId base suffix ∈ occupied then probeId occupied base fuel (suffix + 1)
    else some (candidateId base suffix)

/-- The items with repaired calls, and the replacement of each id. One more candidate is
tried than there are occupied ids. -/
def repairCalls (items : List Json) (occupied : Finset String)
    (mapping : BTreeMap String String) : Option (List Json × BTreeMap String String) :=
  match items with
  | [] => some ([], mapping)
  | item :: items =>
    match repairedId item with
    | none =>
      (repairCalls items occupied mapping).map fun repaired => (item :: repaired.1, repaired.2)
    | some original =>
      match mapping[original]? with
      | some existing =>
        (repairCalls items occupied mapping).map fun repaired =>
          (item.set "id" (.string existing) :: repaired.1, repaired.2)
      | none =>
        (probeId occupied (replacementBase digest original) (occupied.card + 1) 0).bind
          fun candidate =>
            (repairCalls items (insert candidate occupied)
              (mapping.insert original candidate)).map fun repaired =>
                (item.set "id" (.string candidate) :: repaired.1, repaired.2)

/-- A reference to a repaired call follows it. -/
def followReference (mapping : BTreeMap String String) (item : Json) : Json :=
  if itemKind item = some "item_reference" then
    match (itemId item).bind fun id => mapping[id]? with
    | some replacement => item.set "id" (.string replacement)
    | none => item
  else item

/-- `repair_tool_search_item_ids`: the body and whether it was changed; `none` when the
search for an id does not end. -/
def repairToolSearchItemIds (requestBody : Json) : Option (Json × Bool) :=
  match requestBody.get "input" with
  | some (.array items) =>
    (repairCalls digest items (items.filterMap itemId).toFinset ∅).map fun repaired =>
      (requestBody.set "input" (.array (repaired.1.map (followReference repaired.2))),
        !repaired.2.isEmpty)
  | _ => some (requestBody, false)

end

end ZenithRelay.Protocol.Adapter
