import ZenithRelay.Foundations.JsonObjects
import ZenithRelay.Foundations.Text

/-!
# Repair of historical tool-call ids

Historical Responses items whose calls and results lack ids, or name each other by item
id. Every change is planned before one is applied.
-/

set_option autoImplicit false

namespace ZenithRelay.Gateway.Request

def maxLegacyResponsesRepairItems : Nat := 4096

def maxLegacyResponsesPendingCalls : Nat := 256

def maxLegacyResponsesNameChars : Nat := 256

inductive LegacyResponsesCallFamily where
  | function
  | custom
  | tool
  | mcp
  | computer
  deriving DecidableEq, Repr

namespace LegacyResponsesCallFamily

def callType : LegacyResponsesCallFamily → String
  | .function => "function_call"
  | .custom => "custom_tool_call"
  | .tool => "tool_call"
  | .mcp => "mcp_tool_call"
  | .computer => "computer_call"

def outputType : LegacyResponsesCallFamily → String
  | .function => "function_call_output"
  | .custom => "custom_tool_call_output"
  | .tool => "tool_call_output"
  | .mcp => "mcp_tool_call_output"
  | .computer => "computer_call_output"

end LegacyResponsesCallFamily

def legacyResponsesCallFamily (itemType : String) : Option LegacyResponsesCallFamily :=
  if itemType = "function_call" ∨ itemType = "function_call_output" then some .function
  else if itemType = "custom_tool_call" ∨ itemType = "custom_tool_call_output" then some .custom
  else if itemType = "tool_call" ∨ itemType = "tool_call_output" then some .tool
  else if itemType = "mcp_tool_call" ∨ itemType = "mcp_tool_call_output" then some .mcp
  else if itemType = "computer_call" ∨ itemType = "computer_call_output" then some .computer
  else none

/-! ### What an item says about links -/

def boundedToolCallId (candidate : Option Json) : Option String :=
  ((candidate.bind Json.asStr).map Text.trim).filter fun text =>
    text ≠ "" && text.utf8ByteSize ≤ 256

def legacyResponsesCallId (inputItem : Json) : Option String :=
  (((inputItem.get "call_id").bind Json.asStr).map Text.trim).filter fun callId =>
    callId ≠ "" && callId.utf8ByteSize ≤ 256

/-- A field that is there and no text, padded or too long. -/
def isMalformedField (inputItem : Json) (field : String) : Bool :=
  (inputItem.get field).any fun value =>
    !value.isNull && value.asStr.all fun text =>
      text ≠ Text.trim text || maxLegacyResponsesNameChars < text.utf8ByteSize

def legacyToolName (inputItem : Json) : Option String :=
  (((inputItem.get "name").bind Json.asStr).map Text.trim).filter fun name =>
    name ≠ "" && name.length ≤ maxLegacyResponsesNameChars

def legacyResponsesOutputCanStandAlone (itemType : String) (toolName : Option String) : Bool :=
  itemType = "function_call_output" && toolName.isSome

/-- The fields that link a call and its output. -/
structure LegacyLink where
  family : LegacyResponsesCallFamily
  callId : Option String
  itemId : Option String
  toolName : Option String
  namespaceName : Option String
  standsAlone : Bool
  deriving DecidableEq

def legacyLink (inputItem : Json) (itemType : String) (family : LegacyResponsesCallFamily) :
    LegacyLink where
  family
  callId := legacyResponsesCallId inputItem
  itemId := boundedToolCallId (inputItem.get "id")
  toolName := legacyToolName inputItem
  namespaceName := (inputItem.get "namespace").bind Json.asStr
  standsAlone := legacyResponsesOutputCanStandAlone itemType (legacyToolName inputItem)

/-- An item as the repair reads it. -/
inductive LegacyEntry where
  | ignored
  | malformed
  | call (link : LegacyLink)
  | output (link : LegacyLink)

def legacyEntry (inputItem : Json) : LegacyEntry :=
  match (inputItem.get "type").bind Json.asStr with
  | none => .ignored
  | some itemType =>
    match legacyResponsesCallFamily itemType with
    | none => .ignored
    | some family =>
      if ["call_id", "id", "name", "namespace"].any (isMalformedField inputItem) then .malformed
      else if itemType = family.callType then .call (legacyLink inputItem itemType family)
      else if itemType = family.outputType then .output (legacyLink inputItem itemType family)
      else .ignored

/-! ### The scan -/

def nextLegacyResponsesCallId (index : Nat) (used : List String) : String × List String :=
  let base := "call_missing_" ++ String.ofList (Nat.toDigits 10 index)
  let suffixed := fun suffix : Nat => base ++ "_" ++ String.ofList (Nat.toDigits 10 (suffix + 1))
  if base ∉ used then (base, base :: used)
  else
    match (List.range maxLegacyResponsesRepairItems).find? fun suffix => suffixed suffix ∉ used with
    | some suffix => (suffixed suffix, suffixed suffix :: used)
    | none => (base ++ "_overflow", used)

structure PendingLegacyResponsesCall where
  index : Nat
  link : LegacyLink
  deriving DecidableEq

/-- The plan so far; `assigned` and `used` are sets of ids. -/
structure LegacyRepairScan where
  pending : List PendingLegacyResponsesCall
  assigned : List String
  used : List String
  edits : List (Nat × String)

/-- Whether an output identifies a call. -/
def LegacyLink.identifies (output call : LegacyLink) : Bool :=
  call.family = output.family &&
    output.toolName.all (fun toolName => call.toolName = some toolName) &&
    output.namespaceName.all (fun name => call.namespaceName = some name) &&
    output.callId.all fun existing =>
      call.callId = some existing || call.itemId = some existing

namespace LegacyRepairScan

def addCall (scan : LegacyRepairScan) (index : Nat) (link : LegacyLink) :
    Option LegacyRepairScan :=
  if link.callId.any (· ∈ scan.assigned) then none
  else
    some { scan with
      assigned := link.callId.toList ++ scan.assigned
      pending := scan.pending ++ [⟨index, link⟩] }

/-- The id that a call and its output get: the call's own, the output's, the item id, or
a new one. -/
def chooseCallId (scan : LegacyRepairScan) (output : LegacyLink)
    (call : PendingLegacyResponsesCall) : String × List String :=
  match call.link.callId.or (output.callId.or call.link.itemId) with
  | some callId => (callId, scan.used)
  | none => nextLegacyResponsesCallId call.index scan.used

def linkOutput (scan : LegacyRepairScan) (index : Nat) (output : LegacyLink)
    (call : PendingLegacyResponsesCall) : Option LegacyRepairScan :=
  let (callId, used) := scan.chooseCallId output call
  let outputEdit := if output.callId = some callId then [] else [(index, callId)]
  if call.link.callId.isSome then
    some { scan with
      pending := scan.pending.erase call
      used
      edits := scan.edits ++ outputEdit }
  else if callId ∈ scan.assigned then none
  else
    some {
      pending := scan.pending.erase call
      used
      assigned := callId :: scan.assigned
      edits := scan.edits ++ ((call.index, callId) :: outputEdit) }

def addOutput (scan : LegacyRepairScan) (index : Nat) (output : LegacyLink) :
    Option LegacyRepairScan :=
  match scan.pending.filter fun call => output.identifies call.link with
  | [] => if output.callId.isSome || output.standsAlone then some scan else none
  | [call] => scan.linkOutput index output call
  | _ :: _ :: _ => none

def advance (scan : LegacyRepairScan) (index : Nat) : LegacyEntry → Option LegacyRepairScan
  | .ignored => some scan
  | .malformed => none
  | .call link => scan.addCall index link
  | .output link => scan.addOutput index link

def scanItems (scan : LegacyRepairScan) (index : Nat) : List LegacyEntry → Option LegacyRepairScan
  | [] => some scan
  | entry :: rest => (scan.advance index entry).bind fun next => next.scanItems (index + 1) rest

end LegacyRepairScan

/-! ### The repair -/

def isLegacyRelevant (inputItem : Json) : Bool :=
  (((inputItem.get "type").bind Json.asStr).bind legacyResponsesCallFamily).isSome

/-- The ids that a new one must avoid. -/
def knownIdentifiers (inputItems : List Json) : List String :=
  inputItems.flatMap fun inputItem =>
    ["call_id", "id"].filterMap fun field => boundedToolCallId (inputItem.get field)

/-- `input_item["call_id"] = callId` of an object. -/
def setCallId (inputItem : Json) (callId : String) : Json :=
  match inputItem with
  | .object fields => .object (Json.insert fields "call_id" (.string callId))
  | _ => inputItem

def applyEdits (inputItems : List Json) (edits : List (Nat × String)) : List Json :=
  edits.foldl (fun items edit => items.modify edit.1 fun item => setCallId item edit.2) inputItems

/-- The planned edits; none where the items are left alone. -/
def plannedEdits (inputItems : List Json) : Option (List (Nat × String)) :=
  if inputItems.isEmpty || maxLegacyResponsesRepairItems < inputItems.length then none
  else if maxLegacyResponsesPendingCalls < inputItems.countP isLegacyRelevant then none
  else
    match LegacyRepairScan.scanItems ⟨[], [], knownIdentifiers inputItems, []⟩ 0
        (inputItems.map legacyEntry) with
    | none => none
    | some scan => if !scan.pending.isEmpty || scan.edits.isEmpty then none else some scan.edits

def repairLegacyResponsesCallIds (request : Json) : Json × Bool :=
  match (request.get "input").bind Json.asArray with
  | none => (request, false)
  | some inputItems =>
    match plannedEdits inputItems with
    | none => (request, false)
    | some edits => (request.set "input" (.array (applyEdits inputItems edits)), true)

end ZenithRelay.Gateway.Request
