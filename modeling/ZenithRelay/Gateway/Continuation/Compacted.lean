import ZenithRelay.Foundations.JsonObjects
import ZenithRelay.Foundations.Text

/-!
# Compacted histories

When a request that carries a checkpoint can do without its predecessor.
-/

set_option autoImplicit false

namespace ZenithRelay.Gateway.Continuation

def isCompactionCheckpointType (itemType : String) : Bool :=
  itemType = "compaction" || itemType = "compaction_summary"

/-- A text field that is more than blanks. -/
def nonemptyString (jsonValue : Json) (field : String) : Option String :=
  ((jsonValue.get field).bind Json.asStr).filter fun text => Text.trim text ≠ ""

def plaintextContentPart (contentPart : Json) : Bool :=
  match (contentPart.get "type").bind Json.asStr with
  | some kind =>
    if kind = "input_text" ∨ kind = "output_text" ∨ kind = "text" then
      ((contentPart.get "text").bind Json.asStr).isSome
    else if kind = "refusal" then ((contentPart.get "refusal").bind Json.asStr).isSome
    else false
  | none => false

def messageHasPlaintextContent (message : Json) : Bool :=
  match message.get "content" with
  | some (.string _) => true
  | some (.array parts) => !parts.isEmpty && parts.all plaintextContentPart
  | _ => false

mutual

/-- Whether any object inside has the key `encrypted_content`. -/
def containsEncryptedContent : Json → Bool
  | .array values => anyEncryptedItem values
  | .object fields =>
    (Json.field fields "encrypted_content").isSome || anyEncryptedField fields
  | _ => false

def anyEncryptedItem : List Json → Bool
  | [] => false
  | value :: values => containsEncryptedContent value || anyEncryptedItem values

def anyEncryptedField : List (String × Json) → Bool
  | [] => false
  | (_, value) :: fields => containsEncryptedContent value || anyEncryptedField fields

end

def isToolStateItem (inputItem : Json) : Bool :=
  ((inputItem.get "type").bind Json.asStr).any (fun kind =>
      Text.endsWith kind "_call" || Text.endsWith kind "_call_output" ||
        Text.endsWith kind "_output") ||
    ((inputItem.get "role").bind Json.asStr).any (fun role =>
      role = "tool" || role = "function") ||
    ["tool_calls", "tool_call_id", "function_call"].any fun field => (inputItem.get field).isSome

/-! ### The kinds of items -/

inductive CallKind where
  | function
  | customTool
  deriving DecidableEq

/-- The field with the arguments of a call. -/
def CallKind.argumentFieldName : CallKind → String
  | .function => "arguments"
  | .customTool => "input"

/-- What the window check makes of an item. -/
inductive HistoryItem where
  | checkpoint
  | portable
  | call (kind : CallKind) (callId : String)
  | output (kind : CallKind) (callId : String)
  /-- Something that only the provider can resolve. -/
  | foreign
  deriving DecidableEq

def messageItem (historyItem : Json) : HistoryItem :=
  if ((historyItem.get "role").bind Json.asStr).any (fun role =>
      role = "user" || role = "assistant" || role = "developer" || role = "system") &&
      messageHasPlaintextContent historyItem && !isToolStateItem historyItem &&
      !containsEncryptedContent historyItem then .portable
  else .foreign

def callItem (historyItem : Json) (kind : CallKind) : HistoryItem :=
  match nonemptyString historyItem "call_id" with
  | none => .foreign
  | some callId =>
    if (nonemptyString historyItem "name").isSome &&
        ((historyItem.get kind.argumentFieldName).bind Json.asStr).isSome then .call kind callId
    else .foreign

def outputItem (historyItem : Json) (kind : CallKind) : HistoryItem :=
  match nonemptyString historyItem "call_id" with
  | none => .foreign
  | some callId =>
    if (historyItem.get "output").any fun output =>
        output.asStr.isSome || output.isArray then .output kind callId
    else .foreign

def historyItem (item : Json) : HistoryItem :=
  if item.isObject then
    match (item.get "type").bind Json.asStr with
    | none => messageItem item
    | some itemType =>
      if isCompactionCheckpointType itemType then
        if (nonemptyString item "encrypted_content").isSome then .checkpoint else .foreign
      else if itemType = "message" then messageItem item
      else if itemType = "reasoning" then
        if (nonemptyString item "encrypted_content").isSome then .portable else .foreign
      else if itemType = "function_call" then callItem item .function
      else if itemType = "custom_tool_call" then callItem item .customTool
      else if itemType = "function_call_output" then outputItem item .function
      else if itemType = "custom_tool_call_output" then outputItem item .customTool
      else .foreign
  else .foreign

/-! ### The pass over the window -/

/-- `pendingCalls` maps the ids of open calls to their kinds; `seenCalls` is a set. -/
structure WindowScan where
  hasCheckpoint : Bool
  pendingCalls : List (String × CallKind)
  seenCalls : List String

namespace WindowScan

def start : WindowScan := ⟨false, [], []⟩

/-- The kind of an open call. -/
def pendingKind (scan : WindowScan) (callId : String) : Option CallKind :=
  (scan.pendingCalls.find? (·.1 = callId)).map (·.2)

def advance (scan : WindowScan) : HistoryItem → Option WindowScan
  | .checkpoint => some { scan with hasCheckpoint := true }
  | .portable => some scan
  | .call kind callId =>
    if callId ∈ scan.seenCalls then none
    else
      some { scan with
        seenCalls := callId :: scan.seenCalls
        pendingCalls := (callId, kind) :: scan.pendingCalls }
  | .output kind callId =>
    if scan.pendingKind callId = some kind then
      some { scan with pendingCalls := scan.pendingCalls.filter (·.1 ≠ callId) }
    else none
  | .foreign => none

def scanItems (scan : WindowScan) : List HistoryItem → Option WindowScan
  | [] => some scan
  | item :: rest => (scan.advance item).bind fun next => next.scanItems rest

end WindowScan

end ZenithRelay.Gateway.Continuation
