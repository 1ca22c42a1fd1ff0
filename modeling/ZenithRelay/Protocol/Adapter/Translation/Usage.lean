import ZenithRelay.Foundations.Json
import ZenithRelay.Scheduler.Candidate

/-!
# Usage across protocols

The counters of a response in the terms all protocols share, and their encoding for
each of them. Messages reports input without cached and written tokens, Gemini output
without thoughts.
-/

set_option autoImplicit false

namespace ZenithRelay.Protocol.Adapter.Translation

@[ext] structure Usage where
  input : Option Nat
  output : Option Nat
  total : Option Nat
  cached : Option Nat
  reasoning : Option Nat
  cacheWrite : Option Nat
  cacheWrite5m : Option Nat
  cacheWrite1h : Option Nat
  deriving DecidableEq, Repr

def Usage.default : Usage := ⟨none, none, none, none, none, none, none, none⟩

/-- `u64::checked_add`. -/
def checkedAdd (left right : Nat) : Option Nat :=
  if left + right ≤ u64Max then some (left + right) else none

/-- `u64::checked_sub`. -/
def checkedSub (left right : Nat) : Option Nat :=
  if right ≤ left then some (left - right) else none

/-- Where a response carries its usage. -/
def usageField (protocol : WireApi) : String :=
  if protocol = .gemini then "usageMetadata" else "usage"

/-- `Value::pointer` along keys that are no array indices. -/
def jsonPointer (value : Json) (keys : List String) : Option Json :=
  keys.foldlM (fun value key => value.get key) value

def usage (protocol : WireApi) (responsePayload : Json) : Usage :=
  let usagePayload := (responsePayload.get (usageField protocol)).getD .null
  let counter (fieldName : String) := (usagePayload.get fieldName).bind (·.asU64)
  let pointer (keys : List String) := (jsonPointer usagePayload keys).bind (·.asU64)
  match protocol with
  | .geminiInteractions =>
    { Usage.default with
      input := counter "total_input_tokens"
      output := (counter "total_output_tokens").bind fun count =>
        checkedAdd count ((counter "total_thought_tokens").getD 0)
      total := counter "total_tokens"
      cached := counter "total_cached_tokens"
      reasoning := counter "total_thought_tokens" }
  | .responses =>
    { input := counter "input_tokens"
      output := counter "output_tokens"
      total := counter "total_tokens"
      cached := pointer ["input_tokens_details", "cached_tokens"]
      reasoning := pointer ["output_tokens_details", "reasoning_tokens"]
      cacheWrite := pointer ["input_tokens_details", "cache_write_tokens"]
      cacheWrite5m :=
        pointer ["input_tokens_details", "cache_creation", "ephemeral_5m_input_tokens"]
      cacheWrite1h :=
        pointer ["input_tokens_details", "cache_creation", "ephemeral_1h_input_tokens"] }
  | .chatCompletions =>
    { input := counter "prompt_tokens"
      output := counter "completion_tokens"
      total := counter "total_tokens"
      cached := (pointer ["prompt_tokens_details", "cached_tokens"]).or
        (counter "prompt_cache_hit_tokens")
      reasoning := pointer ["completion_tokens_details", "reasoning_tokens"]
      cacheWrite := pointer ["prompt_tokens_details", "cache_write_tokens"]
      cacheWrite5m :=
        pointer ["prompt_tokens_details", "cache_creation", "ephemeral_5m_input_tokens"]
      cacheWrite1h :=
        pointer ["prompt_tokens_details", "cache_creation", "ephemeral_1h_input_tokens"] }
  | .messages =>
    { Usage.default with
      input :=
        ((counter "input_tokens").bind fun inputTokens =>
          checkedAdd inputTokens ((counter "cache_read_input_tokens").getD 0)).bind
            fun inputTokens =>
              checkedAdd inputTokens ((counter "cache_creation_input_tokens").getD 0)
      output := counter "output_tokens"
      cached := counter "cache_read_input_tokens"
      cacheWrite := counter "cache_creation_input_tokens"
      cacheWrite5m := pointer ["cache_creation", "ephemeral_5m_input_tokens"]
      cacheWrite1h := pointer ["cache_creation", "ephemeral_1h_input_tokens"] }
  | .gemini =>
    { Usage.default with
      input := counter "promptTokenCount"
      output := (counter "candidatesTokenCount").bind fun outputTokens =>
        checkedAdd outputTokens ((counter "thoughtsTokenCount").getD 0)
      total := counter "totalTokenCount"
      cached := counter "cachedContentTokenCount"
      reasoning := counter "thoughtsTokenCount" }

/-! ### Encoding -/

/-- `Value::from` of a `u64`. -/
def countValue (count : Nat) : Json := .number (String.ofList (Nat.toDigits 10 count))

/-- Inserts what a counter encodes to, if it is known. -/
def insertKnown (fields : List (String × Json)) (key : String) (count : Option Nat)
    (encode : Nat → Json) : List (String × Json) :=
  match count with
  | some count => Json.insert fields key (encode count)
  | none => fields

/-- The names of the input, output, total, cached and reasoning counters; an empty name
is a counter that the protocol does not have. -/
structure UsageNames where
  input : String
  output : String
  total : String
  cached : String
  reasoning : String

def usageNames : WireApi → UsageNames
  | .geminiInteractions =>
    ⟨"total_input_tokens", "total_output_tokens", "total_tokens", "total_cached_tokens",
      "total_thought_tokens"⟩
  | .responses =>
    ⟨"input_tokens", "output_tokens", "total_tokens", "input_tokens_details",
      "output_tokens_details"⟩
  | .chatCompletions =>
    ⟨"prompt_tokens", "completion_tokens", "total_tokens", "prompt_tokens_details",
      "completion_tokens_details"⟩
  | .messages => ⟨"input_tokens", "output_tokens", "", "cache_read_input_tokens", ""⟩
  | .gemini =>
    ⟨"promptTokenCount", "candidatesTokenCount", "totalTokenCount", "cachedContentTokenCount",
      "thoughtsTokenCount"⟩

/-- The counters that every protocol has, under its names. -/
def commonCounters (protocol : WireApi) (usage : Usage) : List (String × Json) :=
  let names := usageNames protocol
  let inputCount :=
    if protocol = .messages then
      (usage.input.bind fun count => checkedSub count (usage.cached.getD 0)).bind fun count =>
        checkedSub count (usage.cacheWrite.getD 0)
    else usage.input
  let outputCount :=
    if protocol = .gemini then
      usage.output.bind fun count => checkedSub count (usage.reasoning.getD 0)
    else usage.output
  let fields := insertKnown [] names.input inputCount countValue
  let fields := insertKnown fields names.output outputCount countValue
  let fields :=
    if names.total = "" then fields else insertKnown fields names.total usage.total countValue
  let fields := insertKnown fields names.cached usage.cached fun count =>
    if protocol = .messages ∨ protocol = .gemini then countValue count
    else .object [("cached_tokens", countValue count)]
  if names.reasoning = "" then fields
  else
    insertKnown fields names.reasoning usage.reasoning fun count =>
      if protocol = .gemini then countValue count
      else .object [("reasoning_tokens", countValue count)]

/-- The lifetimes of written cache tokens. -/
def cacheCreation (usage : Usage) : List (String × Json) :=
  insertKnown
    (insertKnown [] "ephemeral_5m_input_tokens" usage.cacheWrite5m countValue)
    "ephemeral_1h_input_tokens" usage.cacheWrite1h countValue

/-- What the protocol says of written cache tokens, after `details`. -/
def cacheDetails (protocol : WireApi) (usage : Usage) (details : List (String × Json)) :
    List (String × Json) :=
  let details :=
    insertKnown details
      (if protocol = .messages then "cache_creation_input_tokens" else "cache_write_tokens")
      usage.cacheWrite countValue
  if cacheCreation usage = [] then details
  else Json.insert details "cache_creation" (.object (cacheCreation usage))

def usageValue (protocol : WireApi) (usage : Usage) : Json :=
  let fields := commonCounters protocol usage
  let cached := (usageNames protocol).cached
  match protocol with
  | .messages =>
    .object ((cacheDetails protocol usage []).foldl
      (fun fields detail => Json.insert fields detail.1 detail.2) fields)
  | .chatCompletions | .responses =>
    let details :=
      cacheDetails protocol usage (((Json.field fields cached).bind (·.asObject)).getD [])
    let fields := Json.remove fields cached
    .object (if details = [] then fields else Json.insert fields cached (.object details))
  | .gemini | .geminiInteractions => .object fields

end ZenithRelay.Protocol.Adapter.Translation
