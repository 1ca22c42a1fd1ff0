import ZenithRelay.Foundations.Json
import ZenithRelay.Foundations.Text

/-!
# Replay of native Responses history

A completed turn is kept as its input and its output, so that the next request can
carry the conversation without the upstream's response id.
-/

set_option autoImplicit false

namespace ZenithRelay.Protocol.Adapter

structure AdapterError where
  code : String
  message : String
  deriving DecidableEq, Repr

namespace AdapterError

def invalidRequest : AdapterError :=
  ⟨"adapter_invalid_request", "request cannot be represented by the selected source adapter"⟩

def continuationMismatch : AdapterError :=
  ⟨"adapter_continuation_mismatch",
    "the continuation belongs to a different model or source route"⟩

end AdapterError

/-- Whether the request names a conversation or an item that the provider keeps. -/
def nativeReplayHasProviderState (requestBody : Json) : Bool :=
  let isReference (inputItem : Json) :=
    (inputItem.get "type").bind (·.asStr) == some "item_reference" ||
      ((inputItem.get "id").isSome && (inputItem.get "type").isNone &&
        (inputItem.get "role").isNone)
  if (requestBody.get "conversation").any fun conversation => !conversation.isNull then true
  else
    match requestBody.get "input" with
    | some (.array inputItems) => inputItems.any isReference
    | some (.object inputItem) => isReference (.object inputItem)
    | _ => false

/-- The kind of the call that an output of this kind answers. -/
def outputCallKind (kind : String) : Option String :=
  if kind = "tool_search_output" then some "tool_search_call"
  else if Text.endsWith kind "_call_output" then Text.stripSuffix kind "_output"
  else none

def itemKind (inputItem : Json) : Option String := (inputItem.get "type").bind (·.asStr)

def itemCallId (inputItem : Json) : Option String :=
  ((inputItem.get "call_id").bind (·.asStr)).filter fun callId => Text.trim callId ≠ ""

/-- The open calls after an item; none for an output that answers no open call. -/
def followCalls (calls : Finset (String × String)) (inputItem : Json) :
    Option (Finset (String × String)) :=
  match itemKind inputItem with
  | none => some calls
  | some kind =>
    match outputCallKind kind with
    | some callKind =>
      match itemCallId inputItem with
      | none => none
      | some callId =>
        if (callKind, callId) ∈ calls then some (calls.erase (callKind, callId)) else none
    | none =>
      if Text.endsWith kind "_call" then
        match itemCallId inputItem with
        | none => some calls
        | some callId => some (insert (kind, callId) calls)
      else some calls

def nativeToolOutputsAreMaterialized (inputItems : List Json) : Bool :=
  (inputItems.foldlM followCalls ∅).isSome

/-- A string input as a message of the user. -/
def textMessage (text : String) : Json :=
  .object [("role", .string "user"),
    ("content", .array [.object [("type", .string "input_text"), ("text", .string text)]])]

def appendReplayInput (replayInput : List Json) : Json → Except AdapterError (List Json)
  | .string text => .ok (replayInput ++ [textMessage text])
  | .array inputItems => .ok (replayInput ++ inputItems)
  | .object inputItem => .ok (replayInput ++ [.object inputItem])
  | _ => .error .invalidRequest

/-- The message that `appendReplayInput` makes of `text`, without building it. -/
def isReplayTextMessage (input : Json) (text : String) : Bool :=
  match input.asObject with
  | none => false
  | some message =>
    if message.length ≠ 2 ∨ (Json.field message "role").bind (·.asStr) ≠ some "user" then false
    else
      match (Json.field message "content").bind (·.asArray) with
      | some [content] =>
        match content.asObject with
        | none => false
        | some content =>
          content.length == 2 &&
            (Json.field content "type").bind (·.asStr) == some "input_text" &&
            (Json.field content "text").bind (·.asStr) == some text
      | _ => false

/-- `slice::starts_with`. -/
def startsWith : List Json → List Json → Bool
  | _, [] => true
  | [], _ :: _ => false
  | item :: items, first :: rest => item.equal first && startsWith items rest

structure NativeResponsesReplayState where
  model : String
  initialInput : Json
  completedOutput : List Json

namespace NativeResponsesReplayState

/-- Whether the next snapshot already contains this turn. -/
def isMaterializedPredecessorOf (state next : NativeResponsesReplayState) : Bool :=
  if !Text.eqIgnoreAsciiCase state.model next.model then false
  else
    match next.initialInput.asArray with
    | none => false
    | some nextInput =>
      let prefixLen :=
        match state.initialInput with
        | .array input => if startsWith nextInput input then some input.length else none
        | .object fields =>
          if nextInput.head?.any fun (first : Json) => first.equal (.object fields) then some 1
          else none
        | .string text =>
          if nextInput.head?.any fun first => isReplayTextMessage first text then some 1
          else none
        | _ => none
      prefixLen.any fun length => startsWith (nextInput.drop length) state.completedOutput

/-- The response that an envelope carries. -/
def responseBody (upstreamResponse : Json) : Json :=
  ((upstreamResponse.pointer "response" "response").or
    (upstreamResponse.get "response")).getD upstreamResponse

def fromResponse (initialRequest : Json) (model : String) (upstreamResponse : Json) :
    Option (String × NativeResponsesReplayState) := do
  let body := responseBody upstreamResponse
  let responseId ← (((body.get "id").bind (·.asStr)).map Text.trim).filter (· ≠ "")
  if nativeReplayHasProviderState initialRequest then none
  else
    let request ← initialRequest.asObject
    let initialInput ← Json.field request "input"
    let inputItems := initialInput.asArray.getD [initialInput]
    if !nativeToolOutputsAreMaterialized inputItems then none
    else if ((Json.field request "previous_response_id").bind (·.asStr)).any
        fun responseId => Text.trim responseId ≠ "" then
      -- the request is not self-contained
      none
    else
      let completedOutput ← (body.get "output").bind (·.asArray)
      some (responseId, ⟨model, initialInput, completedOutput⟩)

/-- The continuation with the prior turn materialized in its input. -/
def replayRequest (state : NativeResponsesReplayState) (continuation : Json) (model : String)
    (stream : Bool) : Except AdapterError Json :=
  if !Text.eqIgnoreAsciiCase state.model model || nativeReplayHasProviderState continuation then
    .error .continuationMismatch
  else
    match continuation.asObject with
    | none => .error .invalidRequest
    | some continuationRequest =>
      match Json.field continuationRequest "input" with
      | none => .error .invalidRequest
      | some currentInput => do
        let initial ← appendReplayInput [] state.initialInput
        let replayInput ← appendReplayInput (initial ++ state.completedOutput) currentInput
        if replayInput.isEmpty then .error .invalidRequest
        else if !nativeToolOutputsAreMaterialized replayInput then .error .continuationMismatch
        else
          let replayRequest := Json.remove continuationRequest "previous_response_id"
          let replayRequest := Json.insert replayRequest "model" (.string model)
          let replayRequest := Json.insert replayRequest "stream" (.bool stream)
          .ok (.object (Json.insert replayRequest "input" (.array replayInput)))

end NativeResponsesReplayState

end ZenithRelay.Protocol.Adapter
