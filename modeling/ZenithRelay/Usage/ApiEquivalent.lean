import ZenithRelay.Pricing.Quote

/-!
# The API-equivalent estimate

What measured token usage would have cost at one quote. Cache components stay apart:
a missing cache tariff leaves the tokens of that component unpriced.
-/

set_option autoImplicit false

namespace ZenithRelay.Usage

open Pricing

inductive UsagePriceClass where
  | standard
  | flex
  | priority
  | ultrafast
  /-- An observed tier that no price schedule is known for. -/
  | unknown
  deriving DecidableEq, Repr

inductive UsageContextBand where
  | base
  | above100k
  | above128k
  | above200k
  | above272k
  | above512k
  deriving DecidableEq, Repr

def UsageContextBand.threshold : UsageContextBand → Nat
  | .base => 0
  | .above100k => 100000
  | .above128k => 128000
  | .above200k => 200000
  | .above272k => 272000
  | .above512k => 512000

structure ApiEquivalentUsage where
  inputTokens : Option Nat
  cachedInputTokens : Option Nat
  cacheWrite5mTokens : Option Nat
  cacheWrite1hTokens : Option Nat
  unknownCacheWriteTokens : Option Nat
  outputTokens : Option Nat
  totalTokens : Option Nat
  priceClass : UsagePriceClass
  contextBand : UsageContextBand
  deriving DecidableEq, Repr

/-- `UsageValue`, under the name that the estimate uses. -/
structure ApiEquivalentSummary where
  microUsd : Nat
  pricedTokens : Nat
  unpricedTokens : Nat
  deriving DecidableEq, Repr

namespace ApiEquivalentSummary

def default : ApiEquivalentSummary := ⟨0, 0, 0⟩

def merge (sum other : ApiEquivalentSummary) : ApiEquivalentSummary where
  microUsd := saturatingAdd u64Max sum.microUsd other.microUsd
  pricedTokens := saturatingAdd u64Max sum.pricedTokens other.pricedTokens
  unpricedTokens := saturatingAdd u64Max sum.unpricedTokens other.unpricedTokens

end ApiEquivalentSummary

structure ApiEquivalentBreakdown where
  input : Option ApiEquivalentSummary
  uncachedInput : Option ApiEquivalentSummary
  cacheRead : Option ApiEquivalentSummary
  cacheWrite : Option ApiEquivalentSummary
  output : Option ApiEquivalentSummary
  deriving DecidableEq, Repr

/-! ### Rates -/

def bandRates (rates : LongContextRates) (priceClass : UsagePriceClass) : Option TokenRateSet :=
  let published :=
    match priceClass with
    | .standard => some rates.standard
    | .flex => some rates.flex
    | .priority => some rates.priority
    | .ultrafast => some rates.ultrafast
    | .unknown => none
  published.filter fun rates => !rates.isEmpty

/-- The highest published threshold that the band reaches. -/
def contextRates (quote : TokenPrice) (band : UsageContextBand) (priceClass : UsagePriceClass) :
    Option TokenRateSet :=
  (quote.contextRates.reverse.filter fun rates => rates.1 ≤ band.threshold).findSome?
    fun rates => bandRates rates.2 priceClass

/-- The published schedule of a tier, without the rates of long prompts. -/
def classRates (quote : TokenPrice) : UsagePriceClass → Option TokenRateSet
  | .standard =>
    some
      { input := some quote.input
        cacheRead := quote.cacheRead
        cacheWrite5m := quote.cacheWrite5m
        cacheWrite1h := quote.cacheWrite1h
        cacheWrite := quote.cacheWrite
        output := some quote.output }
  | .flex => some quote.flex
  | .priority => some quote.priority
  | .ultrafast => some quote.ultrafast
  | .unknown => none

def ratesFor (quote : TokenPrice) (priceClass : UsagePriceClass) (band : UsageContextBand) :
    Option TokenRateSet :=
  (classRates quote priceClass).bind fun rates =>
    let rates :=
      match contextRates quote band priceClass with
      | some above => rates.overlay above
      | none => rates
    if rates.isEmpty = true then none else some rates

/-! ### Components -/

def u128Max : Nat := 2 ^ 128 - 1

/-- Rounded to the nearest micro-USD. -/
def tokenCost (tokens microUsdPerMillion : Nat) : Nat :=
  let numerator := saturatingAdd u128Max (saturatingMul u128Max tokens microUsdPerMillion) 500000
  if numerator / 1000000 ≤ u64Max then numerator / 1000000 else u64Max

def componentValue (tokens rate : Option Nat) : Option ApiEquivalentSummary :=
  tokens.map fun tokens =>
    match rate with
    | some rate => ⟨tokenCost tokens rate, tokens, 0⟩
    | none => { ApiEquivalentSummary.default with unpricedTokens := tokens }

def sumComponentValues (values : List (Option ApiEquivalentSummary)) :
    Option ApiEquivalentSummary :=
  match values.reduceOption with
  | [] => none
  | first :: rest => some (rest.foldl ApiEquivalentSummary.merge first)

/-! ### The estimate -/

/-- `u64` subtraction; `none` where it underflows. -/
def checkedSub (left right : Nat) : Option Nat :=
  if right ≤ left then some (left - right) else none

/-- How the estimate divides the input tokens. -/
structure InputTokens where
  uncached : Option Nat
  cacheRead : Nat
  cacheWrite5m : Nat
  cacheWrite1h : Nat
  unknownCacheWrite : Nat
  deriving DecidableEq, Repr

/-- The count of one cache bucket, and what is left of the input. -/
def takeBucket (remaining tokens : Option Nat) : Option (Nat × Option Nat) :=
  let count := tokens.getD 0
  let count := min count (remaining.getD count)
  match remaining with
  | some left => (checkedSub left count).map fun left => (count, some left)
  | none => some (count, none)

/-- All cache buckets share one budget of input tokens, in a stable order. -/
def divideInput (usage : ApiEquivalentUsage) : Option InputTokens := do
  let cacheRead :=
    (usage.cachedInputTokens.map fun cached => min cached (usage.inputTokens.getD cached)).getD 0
  let remaining := usage.inputTokens.map fun input => input - cacheRead
  let (cacheWrite5m, remaining) ← takeBucket remaining usage.cacheWrite5mTokens
  let (cacheWrite1h, remaining) ← takeBucket remaining usage.cacheWrite1hTokens
  let (unknownCacheWrite, remaining) ← takeBucket remaining usage.unknownCacheWriteTokens
  return ⟨remaining, cacheRead, cacheWrite5m, cacheWrite1h, unknownCacheWrite⟩

/-- A generic write rate is no inferred window: beside a rate of a window that differs
from it, an unsplit write stays ambiguous. -/
def unsplitWriteRate (rates : TokenRateSet) : Option Nat :=
  rates.cacheWrite.filter fun generic =>
    [rates.cacheWrite5m, rates.cacheWrite1h].reduceOption.all fun rate => rate == generic

/-- No rate at all without a quote or a published schedule. -/
def quotedRates (quote : Option TokenPrice) (priceClass : UsagePriceClass)
    (band : UsageContextBand) : TokenRateSet :=
  (quote.bind fun quote => ratesFor quote priceClass band).getD TokenRateSet.EMPTY

/-- `estimate_api_equivalent_breakdown_with_token_price`; `none` is a subtraction that
underflows. -/
def estimateApiEquivalentBreakdownWithTokenPrice (usage : ApiEquivalentUsage)
    (quote : Option TokenPrice) : Option (ApiEquivalentSummary × ApiEquivalentBreakdown) := do
  let divided ← divideInput usage
  let cacheWriteTokens := [divided.cacheWrite5m, divided.cacheWrite1h, divided.unknownCacheWrite]
  let measuredInputTokens :=
    usage.inputTokens.getD (cacheWriteTokens.foldl (saturatingAdd u64Max) divided.cacheRead)
  let measuredTokens := saturatingAdd u64Max measuredInputTokens (usage.outputTokens.getD 0)
  let totalTokens := max (usage.totalTokens.getD measuredTokens) measuredTokens
  let rates := quotedRates quote usage.priceClass usage.contextBand
  let uncachedInput := componentValue divided.uncached rates.input
  let cacheRead :=
    componentValue (usage.cachedInputTokens.map fun _ => divided.cacheRead) rates.cacheRead
  let cacheWrite :=
    sumComponentValues
      [componentValue (usage.cacheWrite5mTokens.map fun _ => divided.cacheWrite5m)
          (rates.cacheWrite5m.or rates.cacheWrite),
        componentValue (usage.cacheWrite1hTokens.map fun _ => divided.cacheWrite1h)
          (rates.cacheWrite1h.or rates.cacheWrite),
        componentValue (usage.unknownCacheWriteTokens.map fun _ => divided.unknownCacheWrite)
          (unsplitWriteRate rates)]
  let input := sumComponentValues [uncachedInput, cacheRead, cacheWrite]
  let output := componentValue usage.outputTokens rates.output
  let summary := (sumComponentValues [input, output]).getD ApiEquivalentSummary.default
  return ({ summary with unpricedTokens := totalTokens - summary.pricedTokens },
    ⟨input, uncachedInput, cacheRead, cacheWrite, output⟩)

end ZenithRelay.Usage
