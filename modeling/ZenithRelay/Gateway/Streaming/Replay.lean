import ZenithRelay.Foundations.BTreeMap
import ZenithRelay.Gateway.Streaming.Output
import ZenithRelay.Protocol.ResponseSnapshots

/-!
# Capture of a replay

Deltas alone cannot reconstruct a response, so the completed items of the upstream are
retained; a response is replayed only when its history is complete.
-/

set_option autoImplicit false

namespace ZenithRelay.Gateway.Streaming

def maxCaptureBytes : Nat := 2 * 1024 * 1024

def maxCaptureItems : Nat := 1024

structure NativeReplayCapture where
  capturedItems : List (Option Nat × Json)
  pending : BTreeSet Nat
  retainedBytes : Nat
  unindexedOutput : Bool
  disabled : Bool

namespace NativeReplayCapture

/-- The `Default` of the source. -/
def empty : NativeReplayCapture := ⟨[], ∅, 0, false, false⟩

def disable (capture : NativeReplayCapture) : NativeReplayCapture :=
  { capture with disabled := true, capturedItems := [], pending := ∅ }

def markUnmaterialized (capture : NativeReplayCapture) : NativeReplayCapture :=
  { capture with unindexedOutput := true }

def observeResponseDelta (capture : NativeReplayCapture) (outputIndex : Option Nat) :
    NativeReplayCapture :=
  if capture.disabled = true then capture
  else
    match outputIndex with
    | some index =>
      let pending := capture.pending.insert index
      if maxCaptureItems < pending.size then { capture with pending }.disable
      else { capture with pending }
    | none => capture.markUnmaterialized

/-- The captured items with the one of the index exchanged, if it is there. -/
def replaceItem (items : List (Option Nat × Json)) (outputIndex : Nat) (outputItem : Json) :
    Option (List (Option Nat × Json)) :=
  match items with
  | [] => none
  | existing :: items =>
    if existing.1 = some outputIndex then some ((existing.1, outputItem) :: items)
    else (replaceItem items outputIndex outputItem).map (existing :: ·)

def recordItem (items : List (Option Nat × Json)) (completed : Option Nat × Json) :
    List (Option Nat × Json) :=
  match completed with
  | (some outputIndex, outputItem) =>
    (replaceItem items outputIndex outputItem).getD (items ++ [completed])
  | _ => items ++ [completed]

/-- The item of an event; anything but an object is none. -/
def outputItem (eventPayload : Json) : Option Json := (eventPayload.get "item").filter (·.isObject)

def eventType (eventPayload : Json) : Option String := (eventPayload.get "type").bind (·.asStr)

def outputIndex (eventPayload : Json) : Option Nat :=
  (eventPayload.get "output_index").bind (·.asU64)

/-- Events that begin or continue an item without completing it. -/
def beginsOutput (eventPayload : Json) (eventType : Option String) : Bool :=
  hasSemanticOutput eventPayload eventType || isCompactionPayload eventPayload eventType ||
    eventType == some "response.output_item.added" ||
    eventType.any fun eventType =>
      Text.startsWith eventType "response." && Text.endsWith eventType ".delta"

section

-- the bytes of a value as JSON text
variable (jsonLength : Json → Nat)

/-- A completed item in `observe`. -/
def observeItem (capture : NativeReplayCapture) (outputIndex : Option Nat) (outputItem : Json) :
    NativeReplayCapture :=
  if maxCaptureBytes < jsonLength outputItem then capture.disable
  else
    let retainedBytes := saturatingAdd usizeMax capture.retainedBytes (jsonLength outputItem)
    let capture := { capture with retainedBytes }
    if maxCaptureBytes < retainedBytes ∨ maxCaptureItems ≤ capture.capturedItems.length then
      capture.disable
    else
      { capture with
        pending := outputIndex.elim capture.pending capture.pending.erase
        capturedItems := recordItem capture.capturedItems (outputIndex, outputItem) }

def observe (capture : NativeReplayCapture) (eventPayload : Json) : NativeReplayCapture :=
  if capture.disabled = true then capture
  else if eventType eventPayload = some "response.output_item.done" then
    match outputItem eventPayload with
    | none => capture.markUnmaterialized
    | some item => observeItem jsonLength capture (outputIndex eventPayload) item
  else if beginsOutput eventPayload (eventType eventPayload) = true then
    capture.observeResponseDelta (outputIndex eventPayload)
  else capture

/-- The response with an id, its own or else the one that was observed. -/
def withResponseId (fields : List (String × Json)) (responseId : Option String) :
    Option (List (String × Json)) :=
  if ((Json.field fields "id").bind (·.asStr)).any fun id => Text.trim id != "" then some fields
  else (responseId.filter fun id => Text.trim id != "").map fun id =>
    Json.insert fields "id" (.string id)

/-- `sort_by_key` of the output index, where every item has one. -/
def orderedItems (items : List (Option Nat × Json)) : List (Option Nat × Json) :=
  if items.all (·.1.isSome) then
    items.mergeSort fun left right => decide (left.1.getD 0 ≤ right.1.getD 0)
  else items

/-- The output of the replayed response. -/
def replayedOutput (capture : NativeReplayCapture) (outputItems : Option (List Json)) :
    Option (List Json) :=
  match outputItems with
  | some (item :: items) =>
    (Protocol.ResponseSnapshots.retainCompletedReasoningItems capture.capturedItems
      (item :: items)).toOption
  | _ =>
    if capture.unindexedOutput = true ∨ capture.pending.isEmpty = false then none
    else if capture.capturedItems.isEmpty = true ∧ outputItems = none then none
    else some ((orderedItems capture.capturedItems).map (·.2))

def finish (capture : NativeReplayCapture) (completedResponse : Option Json)
    (responseId : Option String) : Option Json :=
  if capture.disabled = true then none
  else
    ((completedResponse.getD (.object [])).asObject.bind fun fields =>
      (withResponseId fields responseId).bind fun fields =>
        (replayedOutput capture ((Json.field fields "output").bind (·.asArray))).map fun items =>
          Json.object (Json.insert fields "output" (.array items))).filter fun replayed =>
            decide (jsonLength replayed ≤ maxCaptureBytes)

end

end NativeReplayCapture

end ZenithRelay.Gateway.Streaming
