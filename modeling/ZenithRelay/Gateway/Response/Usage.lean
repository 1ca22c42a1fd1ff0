import ZenithRelay.Foundations.Json
import ZenithRelay.Protocol.Adapter.Translation.Usage

/-!
# Usage of an event

How the token counters of an event are read from reported usage, in the spellings of
all providers.
-/

set_option autoImplicit false

namespace ZenithRelay.Gateway.Response

open Protocol.Adapter.Translation (checkedAdd)

/-- The token counters of a usage event. -/
structure UsageEvent where
  inputTokens : Option Nat
  cachedInputTokens : Option Nat
  cacheWriteInputTokens : Option Nat
  reasoningTokens : Option Nat
  outputTokens : Option Nat
  totalTokens : Option Nat
  deriving DecidableEq, Repr

/-- Gemini's counters lie in an object of their own, or beside the others. -/
def geminiUsageMetadata (usage : Json) : Json := (usage.get "usageMetadata").getD usage

def reportedInputTokens (usage : Json) : Option Nat :=
  ((((usage.get "input_tokens").or (usage.get "total_input_tokens")).or
    (usage.get "prompt_tokens")).or
      ((geminiUsageMetadata usage).get "promptTokenCount")).bind (·.asU64)

/-- Anthropic reports the input without the cached and the written tokens. -/
def inputTokens (usage : Json) : Option Nat :=
  let anthropicCacheReadTokens := (usage.get "cache_read_input_tokens").bind (·.asU64)
  let anthropicCacheWriteTokens := (usage.get "cache_creation_input_tokens").bind (·.asU64)
  if anthropicCacheReadTokens.isSome ∨ anthropicCacheWriteTokens.isSome then
    (reportedInputTokens usage).bind fun inputTokenCount =>
      (checkedAdd inputTokenCount (anthropicCacheReadTokens.getD 0)).bind fun input =>
        checkedAdd input (anthropicCacheWriteTokens.getD 0)
  else reportedInputTokens usage

/-- `generated_token_counts`: the output and the reasoning tokens. -/
def generatedTokenCounts (usage : Json) : Option Nat × Option Nat :=
  let gemini := geminiUsageMetadata usage
  let outputTokens :=
    ((((usage.get "output_tokens").or (usage.get "total_output_tokens")).or
      (usage.get "completion_tokens")).or (gemini.get "candidatesTokenCount")).bind (·.asU64)
  let outputTokens :=
    if (usage.get "total_output_tokens").isSome then
      outputTokens.bind fun count =>
        checkedAdd count (((usage.get "total_thought_tokens").bind (·.asU64)).getD 0)
    else if (gemini.get "candidatesTokenCount").isSome then
      outputTokens.bind fun outputTokenCount =>
        checkedAdd outputTokenCount (((gemini.get "thoughtsTokenCount").bind (·.asU64)).getD 0)
    else outputTokens
  let reasoningTokens :=
    (((((usage.get "reasoning_tokens").or (usage.get "total_thought_tokens")).or
      (usage.pointer "output_tokens_details" "reasoning_tokens")).or
        (usage.pointer "completion_tokens_details" "reasoning_tokens")).or
          (gemini.get "thoughtsTokenCount")).bind (·.asU64)
  (outputTokens, reasoningTokens)

def cachedInputTokens (usage : Json) : Option Nat :=
  (((((((usage.pointer "input_tokens_details" "cached_tokens").or
    (usage.pointer "prompt_tokens_details" "cached_tokens")).or
      (usage.get "cached_tokens")).or (usage.get "total_cached_tokens")).or
        (usage.get "cache_read_input_tokens")).or (usage.get "prompt_cache_hit_tokens")).or
          ((geminiUsageMetadata usage).get "cachedContentTokenCount")).bind (·.asU64)

def cacheWriteInputTokens (usage : Json) : Option Nat :=
  ((((usage.pointer "input_tokens_details" "cache_write_tokens").or
    (usage.pointer "prompt_tokens_details" "cache_write_tokens")).or
      (usage.get "cache_write_tokens")).or
        (usage.get "cache_creation_input_tokens")).bind (·.asU64)

/-- The total that the usage itself reports. -/
def reportedTotal (usage : Json) : Option Nat :=
  ((usage.get "total_tokens").or
    ((geminiUsageMetadata usage).get "totalTokenCount")).bind (·.asU64)

/-- `apply_usage`, of the token counters; the lifetime of cache writes, which none of
them depends on, is left out. -/
def applyUsage (event : UsageEvent) (usage : Json) : UsageEvent :=
  let (outputTokens, reasoningTokens) := generatedTokenCounts usage
  let input := if (reportedInputTokens usage).isSome then inputTokens usage else event.inputTokens
  let output :=
    if (usage.get "output_tokens").isSome ∨ (usage.get "total_output_tokens").isSome ∨
        (usage.get "completion_tokens").isSome ∨
        ((geminiUsageMetadata usage).get "candidatesTokenCount").isSome then
      outputTokens
    else event.outputTokens
  let derivedTotal := input.bind fun input => output.bind fun output => checkedAdd input output
  { inputTokens := input
    cachedInputTokens := (cachedInputTokens usage).or event.cachedInputTokens
    cacheWriteInputTokens := (cacheWriteInputTokens usage).or event.cacheWriteInputTokens
    reasoningTokens := reasoningTokens.or event.reasoningTokens
    outputTokens := output
    totalTokens := (reportedTotal usage).or derivedTotal }

end ZenithRelay.Gateway.Response
