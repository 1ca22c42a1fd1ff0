import ZenithRelay.Foundations.BTreeMap
import ZenithRelay.Foundations.Json
import ZenithRelay.Foundations.Text

/-!
# Response completion

Receiving a JSON body or an HTTP 200 does not prove a completed generation. The
checkers read a stream event by event; an event they refuse ends the stream, so
what they changed before refusing it is dropped.
-/

set_option autoImplicit false

namespace ZenithRelay.Protocol

inductive ResponseCompletion where
  | completed
  | incomplete
  | invalid
  deriving DecidableEq, Repr

namespace ResponseCompletion

def isTerminal (completion : ResponseCompletion) : Bool :=
  completion == .completed || completion == .incomplete

def combine : ResponseCompletion → ResponseCompletion → ResponseCompletion
  | .invalid, _ => .invalid
  | _, .invalid => .invalid
  | .incomplete, _ => .incomplete
  | _, .incomplete => .incomplete
  | _, _ => .completed

def fromChatFinish (reason : String) : ResponseCompletion :=
  if reason ∈ ["stop", "tool_calls", "function_call"] then .completed
  else if reason ∈ ["length", "content_filter"] then .incomplete
  else .invalid

def fromMessagesStop (reason : String) : ResponseCompletion :=
  if reason ∈ ["end_turn", "stop_sequence", "tool_use", "refusal"] then .completed
  else if reason ∈ ["max_tokens", "model_context_window_exceeded", "pause_turn"] then .incomplete
  else .invalid

end ResponseCompletion

/-! ### Gemini -/

/-- Why a finish reason leaves the candidate incomplete; none for a reason that
Gemini does not define. -/
def candidateIncompleteReason (reason : String) : Option (Option String) :=
  if reason = "STOP" then some none
  else if reason = "MAX_TOKENS" then some (some "max_output_tokens")
  else if reason = "CONTINUATION" then some (some "continuation")
  else if reason ∈ ["SAFETY", "RECITATION", "LANGUAGE", "BLOCKLIST", "PROHIBITED_CONTENT", "SPII",
      "IMAGE_SAFETY", "IMAGE_PROHIBITED_CONTENT", "IMAGE_RECITATION", "ESCALATION"] then
    some (some "content_filter")
  else none

/-- None for block feedback that cannot be read or that comes with candidates. -/
def promptBlocked (upstream : Json) : Option Bool :=
  match upstream.pointer "promptFeedback" "blockReason" with
  | none => some false
  | some reason =>
    if reason.asStr = some "BLOCK_REASON_UNSPECIFIED" then some false
    else if !(reason.asStr.any
          (· ∈ ["SAFETY", "OTHER", "BLOCKLIST", "PROHIBITED_CONTENT", "IMAGE_SAFETY"])) ||
        (upstream.get "candidates").any fun value => value.asArray.all fun items => items ≠ [] then
      none
    else some true

structure GeminiCandidateCompletion where
  outcome : Option ResponseCompletion
  finishReason : Option String
  hasContent : Bool
  deriving DecidableEq, Repr

structure GeminiStreamCompletion where
  candidates : BTreeMap Nat GeminiCandidateCompletion
  promptBlocked : Bool

namespace GeminiStreamCompletion

def unobserved : GeminiStreamCompletion := ⟨∅, false⟩

/-- An event of another protocol. -/
def foreignEvent (payload : Json) : Bool :=
  ((payload.get "type").bind (·.asStr)).any fun kind =>
    Text.startsWith kind "response." ||
      kind ∈ ["message_start", "message_delta", "message_stop", "content_block_start",
        "content_block_delta", "content_block_stop", "ping"]

/-- The content parts of a candidate, when its content is well formed. -/
def candidateParts (content : Json) : Option (List Json) :=
  match (content.get "parts").bind (·.asArray) with
  | none => none
  | some parts =>
    if (content.get "role").any fun role => role.asStr.all fun role => role ∉ ["", "model"] then none
    else if parts.any fun part => !part.isObject then none
    else some parts

/-- The state of a candidate that finishes with `reason`. -/
def finishCandidate (state : GeminiCandidateCompletion) (candidate reason : Json) :
    Option GeminiCandidateCompletion := do
  let reason ← reason.asStr
  if reason = "CONTINUATION" ∧
      ((candidate.get "continuationToken").bind (·.asStr)).all (· = "") then
    none
  else
    let outcome ←
      match candidateIncompleteReason reason with
      | none => none
      | some (some _) => some ResponseCompletion.incomplete
      | some none => if state.hasContent then some .completed else none
    if state.finishReason.any (· ≠ reason) then none
    else some { state with finishReason := some reason, outcome := some outcome }

def candidateIndex (candidate : Json) : Option Nat :=
  match candidate.get "index" with
  | some index => index.asU64
  | none => some 0

def receiveContent (state : GeminiCandidateCompletion) (candidate : Json) :
    Option GeminiCandidateCompletion :=
  match candidate.get "content" with
  | none => some state
  | some content =>
    (candidateParts content).map fun parts =>
      { state with hasContent := state.hasContent || !parts.isEmpty }

def receiveFinish (state : GeminiCandidateCompletion) (candidate : Json) :
    Option GeminiCandidateCompletion :=
  match (candidate.get "finishReason").filter (!·.isNull) with
  | none => some state
  | some reason => finishCandidate state candidate reason

/-- One candidate of an event; `seen` are the indices before it in the event. -/
def observeCandidate (checker : GeminiStreamCompletion × List Nat) (candidate : Json) :
    Option (GeminiStreamCompletion × List Nat) := do
  let (completion, seen) := checker
  if !candidate.isObject then none
  else
    let index ← candidateIndex candidate
    if index ∈ seen then none
    else
      let state := (completion.candidates[index]?).getD ⟨none, none, false⟩
      -- a finished candidate must never be reopened
      if state.outcome.isSome then none
      else
        let state ← receiveContent state candidate
        let state ← receiveFinish state candidate
        some ({ completion with candidates := completion.candidates.insert index state },
          seen ++ [index])

def observe (completion : GeminiStreamCompletion) (payload : Json) :
    Option GeminiStreamCompletion := do
  if !payload.isObject || foreignEvent payload || (payload.get "choices").isSome then none
  else
    let blocked ← Protocol.promptBlocked payload
    if blocked && !completion.candidates.isEmpty then none
    else
      let completion := { completion with promptBlocked := completion.promptBlocked || blocked }
      match payload.get "candidates" with
      | none => some completion
      | some candidates =>
        let candidates ← candidates.asArray
        if completion.promptBlocked && !candidates.isEmpty then none
        else (candidates.foldlM observeCandidate (completion, [])).map (·.1)

def outcome (completion : GeminiStreamCompletion) : ResponseCompletion :=
  if completion.promptBlocked then .incomplete
  else if completion.candidates.isEmpty then .invalid
  else
    (BTreeMap.values completion.candidates).foldl
      (fun outcome candidate => outcome.combine (candidate.outcome.getD .invalid)) .completed

end GeminiStreamCompletion

/-! ### Chat -/

/-- The choices seen with their finish reasons. -/
structure ChatStreamCompletion where
  choices : BTreeMap Nat (Option String)
  usageOnly : Bool

namespace ChatStreamCompletion

def unobserved : ChatStreamCompletion := ⟨∅, false⟩

def outcome (completion : ChatStreamCompletion) : ResponseCompletion :=
  if completion.choices.isEmpty then .invalid
  else
    (BTreeMap.values completion.choices).foldl
      (fun outcome reason => outcome.combine
        ((reason.map ResponseCompletion.fromChatFinish).getD .invalid)) .completed

/-- One choice of a chunk; `seen` are the indices before it in the chunk. -/
def observeChoice (checker : ChatStreamCompletion × List Nat) (choice : Json) :
    Option (ChatStreamCompletion × List Nat) := do
  let (completion, seen) := checker
  let index ← (choice.get "index").bind (·.asU64)
  if index ∈ seen then none
  else
    let previousReason := (completion.choices[index]?).getD none
    if previousReason.isSome then none
    else if (choice.get "delta").any fun delta => !delta.isObject then none
    else
      let reason ←
        match (choice.get "finish_reason").filter (!·.isNull) with
        | none => some previousReason
        | some reason =>
          match reason.asStr with
          | none => none
          | some reason =>
            if ResponseCompletion.fromChatFinish reason = .invalid ∨
                previousReason.any (· ≠ reason) then none
            else some (some reason)
      some ({ completion with choices := completion.choices.insert index reason }, seen ++ [index])

def observe (completion : ChatStreamCompletion) (payload : Json) :
    Option ChatStreamCompletion := do
  let choices ← (payload.get "choices").bind (·.asArray)
  if completion.usageOnly then none
  else if choices.isEmpty then
    -- one final usage-only chunk follows the finish of every choice
    if !((payload.get "usage").any (·.isObject)) || !completion.outcome.isTerminal then none
    else some { completion with usageOnly := true }
  else (choices.foldlM observeChoice (completion, [])).map (·.1)

end ChatStreamCompletion

/-! ### Messages -/

/-- `blocks` tells of every started block whether it is closed. -/
structure MessagesStreamCompletion where
  started : Bool
  blocks : BTreeMap Nat Bool
  stopReason : Option String
  stopped : Bool

namespace MessagesStreamCompletion

def unobserved : MessagesStreamCompletion := ⟨false, ∅, none, false⟩

/-- A start carries a message with an id, no content and no stop reason. -/
def startsMessage (payload : Json) : Bool :=
  ((payload.get "message").filter (·.isObject)).any fun message =>
    !(((message.get "id").bind (·.asStr)).all fun id => Text.trim id = "") &&
      !((message.get "content").any fun content => !(content.asArray.any (·.isEmpty))) &&
      !((message.get "stop_reason").any fun reason => !reason.isNull)

def openBlocks (completion : MessagesStreamCompletion) : Bool :=
  (BTreeMap.values completion.blocks).any (!·)

/-- The stop reason of a message delta, unless it is null. -/
def deltaStopReason (payload : Json) : Option Json :=
  (payload.pointer "delta" "stop_reason").filter (!·.isNull)

/-- The next state and, for a message stop, the outcome. -/
def observe (completion : MessagesStreamCompletion) (payload : Json) :
    Option (MessagesStreamCompletion × Option ResponseCompletion) := do
  let kind ← (payload.get "type").bind (·.asStr)
  if completion.stopped then none
  else if kind = "ping" then some (completion, none)
  else if kind = "error" then none
  else if kind = "message_start" then
    if completion.started || !startsMessage payload then none
    else some ({ completion with started := true }, none)
  else if kind = "content_block_start" then
    let index ← (payload.get "index").bind (·.asU64)
    if !completion.started || completion.stopReason.isSome
        || !((payload.get "content_block").any (·.isObject))
        || (completion.blocks[index]?).isSome then none
    else some ({ completion with blocks := completion.blocks.insert index false }, none)
  else if kind = "content_block_delta" ∨ kind = "content_block_stop" then
    let index ← (payload.get "index").bind (·.asU64)
    let closed ← completion.blocks[index]?
    if closed || completion.stopReason.isSome then none
    else if kind = "content_block_stop" then
      some ({ completion with blocks := completion.blocks.insert index true }, none)
    else if !((payload.get "delta").any (·.isObject)) then none
    else some (completion, none)
  else if kind = "message_delta" then
    if !completion.started || !((payload.get "delta").any (·.isObject)) then none
    else
      match deltaStopReason payload with
      | none => some (completion, none)
      | some reason =>
        let reason ← reason.asStr
        if completion.stopReason.isSome || completion.openBlocks
            || ResponseCompletion.fromMessagesStop reason = .invalid then none
        else some ({ completion with stopReason := some reason }, none)
  else if kind = "message_stop" then
    if !completion.started || completion.openBlocks then none
    else
      let reason ← completion.stopReason
      some ({ completion with stopped := true },
        some (ResponseCompletion.fromMessagesStop reason))
  else if Text.startsWith kind "response." || (payload.get "choices").isSome
      || (payload.get "candidates").isSome then none
  -- native routes forward future provider events
  else some (completion, none)

end MessagesStreamCompletion

end ZenithRelay.Protocol
