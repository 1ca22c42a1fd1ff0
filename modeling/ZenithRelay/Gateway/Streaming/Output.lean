import ZenithRelay.Foundations.Json
import ZenithRelay.Foundations.Text

/-!
# Output of stream events

Which events carry generated output and which carry opaque compaction checkpoints.
-/

set_option autoImplicit false

namespace ZenithRelay.Gateway.Streaming

def isCompactionCheckpointType (itemType : String) : Bool :=
  itemType == "compaction" || itemType == "compaction_summary"

def isOpaqueCompactionEvent (eventName : String) : Bool :=
  Text.startsWith eventName "response.compaction."

/-- The field is a string that passes the test. -/
def hasStr (value : Json) (key : String) (test : String → Bool) : Bool :=
  ((value.get key).bind (·.asStr)).any test

/-- The field is a string with some text. -/
def hasText (value : Json) (key : String) : Bool := hasStr value key fun text => text != ""

def isCompactionPayload (eventPayload : Json) (eventType : Option String) : Bool :=
  eventType.any isCompactionCheckpointType || eventType.any isOpaqueCompactionEvent ||
    ((eventType == some "response.output_item.added" ||
        eventType == some "response.output_item.done") &&
      (eventPayload.get "item").any fun outputItem =>
        hasStr outputItem "type" isCompactionCheckpointType)

/-- The delta names that carry generated output. -/
def isResponsesOutputDeltaType (eventType : String) : Bool :=
  ["response.output_text.delta", "response.reasoning_text.delta",
    "response.reasoning_summary_text.delta", "response.refusal.delta",
    "response.function_call_arguments.delta", "response.custom_tool_call_input.delta",
    "response.mcp_call_arguments.delta", "response.code_interpreter_call_code.delta"].contains
      eventType

def outputItemHasMeaningfulToolCall (outputItem : Json) : Bool :=
  hasStr outputItem "type" (fun itemType =>
      ["function_call", "custom_tool_call", "mcp_call", "computer_call"].contains itemType) &&
    ["call_id", "id", "name"].any (hasText outputItem)

def functionDeltaHasOutput (functionDelta : Json) : Bool :=
  ["name", "arguments"].any (hasText functionDelta)

def chatChoiceHasOutputDelta (choice : Json) : Bool :=
  (choice.get "delta").any fun delta =>
    ["content", "refusal"].any (hasText delta) ||
      (delta.get "function_call").any functionDeltaHasOutput ||
      ((delta.get "tool_calls").bind (·.asArray)).any fun calls => calls.any fun call =>
        hasText call "id" || (call.get "function").any functionDeltaHasOutput

/-- The nested field is a string with some text. -/
def pointerHasText (value : Json) (first second : String) : Bool :=
  ((value.pointer first second).bind (·.asStr)).any fun text => text != ""

def geminiCandidateHasOutputDelta (candidateResponse : Json) : Bool :=
  ((candidateResponse.pointer "content" "parts").bind (·.asArray)).any fun parts =>
    parts.any fun part =>
      hasText part "text" || (part.get "functionCall").isSome ||
        pointerHasText part "inlineData" "data" || pointerHasText part "fileData" "fileUri" ||
        pointerHasText part "executableCode" "code" ||
        pointerHasText part "codeExecutionResult" "output"

def hasOutputDelta (eventPayload : Json) (eventType : Option String) : Bool :=
  (eventType.any isResponsesOutputDeltaType && hasText eventPayload "delta") ||
    (eventType == some "content_block_delta" && (eventPayload.get "delta").any fun delta =>
      ["text", "partial_json", "thinking"].any (hasText delta)) ||
    (eventType == some "response.output_item.added" &&
      (eventPayload.get "item").any outputItemHasMeaningfulToolCall) ||
    ((eventPayload.get "choices").bind (·.asArray)).any (fun choices =>
      choices.any chatChoiceHasOutputDelta) ||
    ((eventPayload.get "candidates").bind (·.asArray)).any fun candidates =>
      candidates.any geminiCandidateHasOutputDelta

/-- Output items that are no checkpoints. -/
def listsOutput (outputValue : Option Json) : Bool :=
  (outputValue.bind (·.asArray)).any fun outputItems => outputItems.any fun outputItem =>
    !hasStr outputItem "type" isCompactionCheckpointType

def hasSemanticOutput (eventPayload : Json) (eventType : Option String) : Bool :=
  !isCompactionPayload eventPayload eventType &&
    (hasOutputDelta eventPayload eventType || eventType == some "response.output_item.done" ||
      listsOutput (eventPayload.get "output") ||
      listsOutput (eventPayload.pointer "response" "output"))

end ZenithRelay.Gateway.Streaming
