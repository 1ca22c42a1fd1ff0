import ZenithRelay.Usage.ApiEquivalent

/-!
# What the estimate accounts for

Every measured token is either priced or unpriced, every input token falls in one
component, each component is charged by its own tariff, and the amount is the exact cost
up to the rounding of each component.
-/

set_option autoImplicit false

namespace ZenithRelay.Usage

open Pricing

/-! ## Tariffs -/

/-- The kinds of tariffs that a rate set can have. -/
inductive Tariff where
  | input
  | read
  | write5m
  | write1h
  | write
  | output
  deriving DecidableEq, Repr

def Tariff.of : Tariff → TokenRateSet → Option Nat
  | .input => TokenRateSet.input
  | .read => TokenRateSet.cacheRead
  | .write5m => TokenRateSet.cacheWrite5m
  | .write1h => TokenRateSet.cacheWrite1h
  | .write => TokenRateSet.cacheWrite
  | .output => TokenRateSet.output

/-- The quote publishes `above` for the tier, and for no higher threshold that the band
reaches does it publish anything. -/
def PublishedAbove (quote : TokenPrice) (priceClass : UsagePriceClass) (band : UsageContextBand)
    (above : TokenRateSet) : Prop :=
  ∃ threshold rates, (threshold, rates) ∈ quote.contextRates ∧ threshold ≤ band.threshold ∧
    bandRates rates priceClass = some above ∧
    ∀ other otherRates, (other, otherRates) ∈ quote.contextRates → other ≤ band.threshold →
      bandRates otherRates priceClass ≠ none → other ≤ threshold

/-- The tariff that the quote publishes for the tier and the band: that of the highest
threshold, or else the one of the tier itself. -/
def PublishedTariff (quote : TokenPrice) (priceClass : UsagePriceClass) (band : UsageContextBand)
    (tariff : Tariff) (rate : Nat) : Prop :=
  ∃ base, classRates quote priceClass = some base ∧
    ((∃ above, PublishedAbove quote priceClass band above ∧ tariff.of above = some rate) ∨
      (∀ above, PublishedAbove quote priceClass band above → tariff.of above = none) ∧
        tariff.of base = some rate)

private theorem Tariff.of_overlay (tariff : Tariff) (rates above : TokenRateSet) :
    tariff.of (rates.overlay above) = (tariff.of above).or (tariff.of rates) := by
  cases tariff <;> rfl

theorem Tariff.of_isEmpty (tariff : Tariff) {rates : TokenRateSet}
    (empty : rates.isEmpty = true) : tariff.of rates = none := by
  simp only [TokenRateSet.isEmpty, Bool.and_eq_true, Option.isNone_iff_eq_none] at empty
  cases tariff <;> simp [Tariff.of, empty]

/-- The search from the top finds the highest threshold. -/
private theorem findSome?_filter_reverse {Value Found : Type} (limit : Nat) (find : Value → Option Found)
    (found : Found) (entries : List (Nat × Value))
    (ascending : entries.Pairwise fun first second => first.1 < second.1) :
    ((entries.reverse.filter fun entry => entry.1 ≤ limit).findSome? fun entry => find entry.2) =
        some found ↔
      ∃ threshold value, (threshold, value) ∈ entries ∧ threshold ≤ limit ∧
        find value = some found ∧
        ∀ other otherValue, (other, otherValue) ∈ entries → other ≤ limit →
          find otherValue ≠ none → other ≤ threshold := by
  induction entries using List.reverseRecOn with
  | nil => simp
  | append_singleton entries last ih =>
      obtain ⟨earlier, -, below⟩ := List.pairwise_append.mp ascending
      have lower : ∀ entry ∈ entries, entry.1 < last.1 := fun entry member =>
        below entry member last List.mem_cons_self
      rw [List.reverse_append, List.reverse_singleton, List.singleton_append, List.filter_cons]
      by_cases within : last.1 ≤ limit ∧ find last.2 ≠ none
      · rw [if_pos (by simpa using within.1), List.findSome?_cons]
        obtain ⟨reached, isFound⟩ := Option.ne_none_iff_exists'.mp within.2
        rw [isFound]
        constructor
        · intro same
          refine ⟨last.1, last.2, by simp, within.1, isFound.trans same, ?_⟩
          intro other otherValue member _ _
          rcases List.mem_append.mp member with member | member
          · exact (lower _ member).le
          · exact (congrArg Prod.fst (List.mem_singleton.mp member)).le
        · rintro ⟨threshold, value, member, _, holds, highest⟩
          have atLeast := highest last.1 last.2 (by simp) within.1 within.2
          rcases List.mem_append.mp member with member | member
          · exact absurd atLeast (Nat.not_le.mpr (lower _ member))
          · obtain rfl := List.mem_singleton.mp member
            exact isFound.symm.trans holds
      · -- the last entry is out of reach or publishes nothing
        have skipped : ∀ value other, (other, value) ∈ entries ++ [last] → other ≤ limit →
            find value ≠ none → (other, value) ∈ entries := by
          intro value other member reach publishes
          rcases List.mem_append.mp member with member | member
          · exact member
          · obtain rfl := List.mem_singleton.mp member
            exact absurd ⟨reach, publishes⟩ within
        have passes : ((if last.1 ≤ limit then
              last :: entries.reverse.filter fun entry => entry.1 ≤ limit
            else entries.reverse.filter fun entry => entry.1 ≤ limit).findSome?
              fun entry => find entry.2) =
            (entries.reverse.filter fun entry => entry.1 ≤ limit).findSome?
              fun entry => find entry.2 := by
          split
          next reach =>
            have nothing : find last.2 = none := by
              by_contra publishes
              exact within ⟨reach, publishes⟩
            rw [List.findSome?_cons, nothing]
          · rfl
        simp only [decide_eq_true_eq]
        rw [passes, ih earlier]
        constructor
        · rintro ⟨threshold, value, member, reach, holds, highest⟩
          refine ⟨threshold, value, List.mem_append_left _ member, reach, holds, ?_⟩
          exact fun other otherValue member reach publishes =>
            highest other otherValue (skipped _ _ member reach publishes) reach publishes
        · rintro ⟨threshold, value, member, reach, holds, highest⟩
          refine ⟨threshold, value, skipped _ _ member reach (by simp [holds]), reach, holds, ?_⟩
          exact fun other otherValue member => highest other otherValue (List.mem_append_left _ member)

theorem contextRates_eq_some {quote : TokenPrice} {priceClass : UsagePriceClass}
    {band : UsageContextBand} {above : TokenRateSet} :
    contextRates quote band priceClass = some above ↔ PublishedAbove quote priceClass band above :=
  findSome?_filter_reverse band.threshold (bandRates · priceClass) above quote.contextRates
    (by simp [TokenPrice.contextRates])

/-- The rates of an estimate have exactly the tariffs that are published. -/
private theorem quotedRates_tariff (quote : Option TokenPrice) (priceClass : UsagePriceClass)
    (band : UsageContextBand) (tariff : Tariff) (rate : Nat) :
    tariff.of (quotedRates quote priceClass band) = some rate ↔
      ∃ published ∈ quote, PublishedTariff published priceClass band tariff rate := by
  have nothing : tariff.of TokenRateSet.EMPTY = none := tariff.of_isEmpty rfl
  cases quote with
  | none => simp [quotedRates, nothing]
  | some quote =>
      simp only [quotedRates, Option.bind_some, ratesFor, Option.mem_some_iff, exists_eq_left',
        PublishedTariff]
      cases base : classRates quote priceClass with
      | none => simp [nothing]
      | some rates =>
          have filtered : ∀ rates : TokenRateSet,
              tariff.of ((if rates.isEmpty = true then none else some rates).getD
                TokenRateSet.EMPTY) = tariff.of rates := by
            intro rates
            split
            next empty => rw [Option.getD_none, nothing, tariff.of_isEmpty empty]
            · rfl
          rw [Option.bind_some, filtered]
          simp only [Option.some.injEq, exists_eq_left']
          cases overlaid : contextRates quote band priceClass with
          | none =>
              have unpublished : ∀ above, ¬PublishedAbove quote priceClass band above := by
                intro above published
                rw [contextRates_eq_some.mpr published] at overlaid
                cases overlaid
              simp [unpublished]
          | some above =>
              have published : ∀ other,
                  PublishedAbove quote priceClass band other ↔ other = above := by
                intro other
                rw [← contextRates_eq_some, overlaid, Option.some.injEq, eq_comm]
              simp only [published, exists_eq_left, forall_eq, tariff.of_overlay]
              cases tariff.of above <;> simp

/-- What the quote, where there is one, publishes for the tier and the band of the usage. -/
def Published (quote : Option TokenPrice) (usage : ApiEquivalentUsage) (tariff : Tariff)
    (rate : Nat) : Prop :=
  ∃ published ∈ quote, PublishedTariff published usage.priceClass usage.contextBand tariff rate

/-- How a window of cache writes is charged: by its own tariff, or else the generic one. -/
def WindowTariff (Published : Tariff → Nat → Prop) (window : Tariff) (rate : Nat) : Prop :=
  Published window rate ∨ (∀ own, ¬Published window own) ∧ Published .write rate

/-- How an unsplit write is charged: by the generic tariff, unless a window has another. -/
def UnsplitTariff (Published : Tariff → Nat → Prop) (rate : Nat) : Prop :=
  Published .write rate ∧ (∀ own, Published .write5m own → own = rate) ∧
    ∀ own, Published .write1h own → own = rate

theorem windowTariff_iff {Published : Tariff → Nat → Prop} {rates : TokenRateSet}
    (published : ∀ tariff rate, Tariff.of tariff rates = some rate ↔ Published tariff rate)
    (window : Tariff) (rate : Nat) :
    (window.of rates).or rates.cacheWrite = some rate ↔ WindowTariff Published window rate := by
  have generic : rates.cacheWrite = some rate ↔ Published .write rate := published .write rate
  simp only [WindowTariff, ← published window, ← generic]
  cases window.of rates <;> simp

theorem unsplitTariff_iff {Published : Tariff → Nat → Prop} {rates : TokenRateSet}
    (published : ∀ tariff rate, Tariff.of tariff rates = some rate ↔ Published tariff rate)
    (rate : Nat) : unsplitWriteRate rates = some rate ↔ UnsplitTariff Published rate := by
  have generic : rates.cacheWrite = some rate ↔ Published .write rate := published .write rate
  simp only [UnsplitTariff, unsplitWriteRate, ← published .write5m, ← published .write1h, ← generic,
    Tariff.of, Option.filter_eq_some_iff]
  refine and_congr_right fun _ => ?_
  cases rates.cacheWrite5m <;> cases rates.cacheWrite1h <;>
    simp [List.reduceOption]

/-! ## Components -/

inductive SummaryField where
  | microUsd
  | pricedTokens
  | unpricedTokens

def SummaryField.of : SummaryField → ApiEquivalentSummary → Nat
  | .microUsd => ApiEquivalentSummary.microUsd
  | .pricedTokens => ApiEquivalentSummary.pricedTokens
  | .unpricedTokens => ApiEquivalentSummary.unpricedTokens

/-- A component that is absent counts for nothing. -/
def part (value : Option ApiEquivalentSummary) : ApiEquivalentSummary :=
  value.getD ApiEquivalentSummary.default

theorem SummaryField.of_merge (field : SummaryField) (sum other : ApiEquivalentSummary) :
    field.of (sum.merge other) = saturatingAdd u64Max (field.of sum) (field.of other) := by
  cases field <;> rfl

theorem SummaryField.of_default (field : SummaryField) :
    field.of ApiEquivalentSummary.default = 0 := by
  cases field <;> rfl

private theorem foldl_merge_field (field : SummaryField) (first : ApiEquivalentSummary)
    (rest : List ApiEquivalentSummary) (fits : field.of first ≤ u64Max) :
    field.of (rest.foldl ApiEquivalentSummary.merge first) =
      min (field.of first + (rest.map field.of).sum) u64Max := by
  induction rest generalizing first with
  | nil => simp [Nat.min_eq_left fits]
  | cons next rest ih =>
      rw [List.foldl_cons, ih (first.merge next), field.of_merge, saturatingAdd, List.map_cons,
        List.sum_cons]
      · omega
      · rw [field.of_merge]
        exact saturatingAdd_le u64Max _ _

private theorem sum_reduceOption_field (field : SummaryField) (values : List (Option ApiEquivalentSummary)) :
    (values.reduceOption.map field.of).sum =
      (values.map fun value => field.of (part value)).sum := by
  induction values with
  | nil => rfl
  | cons value values ih =>
      cases value with
      | none => simp [part, field.of_default, ih]
      | some value => simp [part, ih]

/-- A sum of components, field by field; it saturates once. -/
theorem sumComponentValues_field (field : SummaryField)
    (values : List (Option ApiEquivalentSummary))
    (fits : ∀ value ∈ values, field.of (part value) ≤ u64Max) :
    field.of (part (sumComponentValues values)) =
      min ((values.map fun value => field.of (part value)).sum) u64Max := by
  rw [← sum_reduceOption_field]
  unfold sumComponentValues
  cases present : values.reduceOption with
  | nil => simp [part, field.of_default]
  | cons first rest =>
      have member : some first ∈ values := by
        rw [← List.reduceOption_mem_iff, present]
        exact List.mem_cons_self
      exact foldl_merge_field field first rest (fits _ member)

private theorem sumComponentValues_isSome (values : List (Option ApiEquivalentSummary)) :
    (sumComponentValues values).isSome = values.any Option.isSome := by
  unfold sumComponentValues
  induction values with
  | nil => rfl
  | cons value values ih =>
      cases value with
      | none => simpa using ih
      | some value => simp

theorem tokenCost_eq (tokens rate : Nat) :
    tokenCost tokens rate = min ((tokens * rate + 500000) / 1000000) u64Max := by
  have wide : u64Max * 1000000 + 1000000 ≤ u128Max := by decide +kernel
  unfold tokenCost saturatingAdd saturatingMul
  dsimp only
  generalize tokens * rate = product at *
  generalize u128Max = bound at *
  generalize u64Max = limit at *
  by_cases fits : min (min product bound + 500000) bound / 1000000 ≤ limit
  · rw [if_pos fits]
    omega
  · rw [if_neg fits]
    omega

private theorem tokenCost_le (tokens rate : Nat) : tokenCost tokens rate ≤ u64Max := by
  rw [tokenCost_eq]
  exact Nat.min_le_right _ _

/-- A component has all its tokens either priced or unpriced. -/
theorem componentValue_tokens (tokens rate : Option Nat) :
    (part (componentValue tokens rate)).pricedTokens +
      (part (componentValue tokens rate)).unpricedTokens = tokens.getD 0 := by
  cases tokens <;> cases rate <;> simp [componentValue, part, ApiEquivalentSummary.default]

private theorem microUsd_part (cost priced unpriced : Nat) :
    SummaryField.microUsd.of (part (some ⟨cost, priced, unpriced⟩)) = cost := rfl

private theorem componentValue_fits (field : SummaryField) {tokens : Option Nat} (rate : Option Nat)
    (fits : tokens.getD 0 ≤ u64Max) : field.of (part (componentValue tokens rate)) ≤ u64Max := by
  have whole := (componentValue_tokens tokens rate).trans_le fits
  cases field with
  | microUsd =>
      cases tokens with
      | none => exact Nat.zero_le _
      | some tokens =>
          cases rate with
          | none => exact Nat.zero_le _
          | some rate =>
              have value : componentValue (some tokens) (some rate) =
                some ⟨tokenCost tokens rate, tokens, 0⟩ := rfl
              rw [value, microUsd_part]
              exact tokenCost_le tokens rate
  | pricedTokens => exact (Nat.le_add_right _ _).trans whole
  | unpricedTokens => exact (Nat.le_add_left _ _).trans whole

/-- The component is charged by its tariff when there is one, and is unpriced otherwise. -/
def Charges (value : Option ApiEquivalentSummary) (tokens : Option Nat) (tariff : Nat → Prop) :
    Prop :=
  match tokens with
  | none => value = none
  | some tokens =>
    (∃ rate, tariff rate ∧ value = some ⟨tokenCost tokens rate, tokens, 0⟩) ∨
      (∀ rate, ¬tariff rate) ∧ value = some ⟨0, 0, tokens⟩

theorem componentValue_charges (tokens : Option Nat) {rate : Option Nat} {tariff : Nat → Prop}
    (published : ∀ own, rate = some own ↔ tariff own) :
    Charges (componentValue tokens rate) tokens tariff := by
  cases tokens with
  | none => rfl
  | some tokens =>
      cases rate with
      | none => exact .inr ⟨fun rate charged => absurd ((published rate).mpr charged) (by rintro ⟨⟩), rfl⟩
      | some rate => exact .inl ⟨rate, (published rate).mp rfl, rfl⟩

/-! ## Division of the input -/

/-- Every counter is a `u64`. -/
structure ApiEquivalentUsage.InRange (usage : ApiEquivalentUsage) : Prop where
  input : usage.inputTokens.getD 0 ≤ u64Max
  cached : usage.cachedInputTokens.getD 0 ≤ u64Max
  write5m : usage.cacheWrite5mTokens.getD 0 ≤ u64Max
  write1h : usage.cacheWrite1hTokens.getD 0 ≤ u64Max
  unknown : usage.unknownCacheWriteTokens.getD 0 ≤ u64Max
  output : usage.outputTokens.getD 0 ≤ u64Max

/-- The tokens that were measured; an absent input is the sum of its cache counters. -/
def ApiEquivalentUsage.measuredTokens (usage : ApiEquivalentUsage) : Nat :=
  let cache :=
    usage.cachedInputTokens.getD 0 + usage.cacheWrite5mTokens.getD 0 +
      usage.cacheWrite1hTokens.getD 0 + usage.unknownCacheWriteTokens.getD 0
  min (usage.inputTokens.getD cache + usage.outputTokens.getD 0) u64Max

/-- The buckets take no more than was reported, and a known input is used up exactly. -/
structure Divides (usage : ApiEquivalentUsage) (divided : InputTokens) : Prop where
  cacheRead : divided.cacheRead ≤ usage.cachedInputTokens.getD 0
  cacheWrite5m : divided.cacheWrite5m ≤ usage.cacheWrite5mTokens.getD 0
  cacheWrite1h : divided.cacheWrite1h ≤ usage.cacheWrite1hTokens.getD 0
  unknownCacheWrite : divided.unknownCacheWrite ≤ usage.unknownCacheWriteTokens.getD 0
  whole : ∀ input ∈ usage.inputTokens, ∃ uncached, divided.uncached = some uncached ∧
    uncached + divided.cacheRead + divided.cacheWrite5m + divided.cacheWrite1h +
      divided.unknownCacheWrite = input
  unclamped : usage.inputTokens = none → divided =
    { uncached := none
      cacheRead := usage.cachedInputTokens.getD 0
      cacheWrite5m := usage.cacheWrite5mTokens.getD 0
      cacheWrite1h := usage.cacheWrite1hTokens.getD 0
      unknownCacheWrite := usage.unknownCacheWriteTokens.getD 0 }

/-- The count of a bucket never exceeds what remains, so the subtraction cannot underflow. -/
private theorem takeBucket_known (left : Nat) (tokens : Option Nat) :
    takeBucket (some left) tokens =
      some (min (tokens.getD 0) left, some (left - min (tokens.getD 0) left)) := by
  simp [takeBucket, checkedSub]

private theorem takeBucket_unknown (tokens : Option Nat) :
    takeBucket none tokens = some (tokens.getD 0, none) := by
  simp [takeBucket]

private theorem divideInput_divides (usage : ApiEquivalentUsage) :
    ∃ divided, divideInput usage = some divided ∧ Divides usage divided := by
  unfold divideInput
  cases known : usage.inputTokens with
  | none =>
      refine ⟨_, by simp only [Option.map_none, takeBucket_unknown, Option.bind_eq_bind, Option.bind_some]; rfl, ?_⟩
      constructor <;> cases usage.cachedInputTokens <;> simp [known]
  | some input =>
      refine ⟨_, by simp only [Option.map_some, takeBucket_known, Option.bind_eq_bind, Option.bind_some]; rfl, ?_⟩
      constructor <;> cases usage.cachedInputTokens <;> simp [known] <;> omega

theorem Divides.total {usage : ApiEquivalentUsage} {divided : InputTokens}
    (divides : Divides usage divided) :
    divided.uncached.getD 0 + divided.cacheRead + divided.cacheWrite5m + divided.cacheWrite1h +
        divided.unknownCacheWrite =
      usage.inputTokens.getD
        (usage.cachedInputTokens.getD 0 + usage.cacheWrite5mTokens.getD 0 +
          usage.cacheWrite1hTokens.getD 0 + usage.unknownCacheWriteTokens.getD 0) := by
  cases known : usage.inputTokens with
  | none =>
      rw [divides.unclamped known]
      simp
  | some input =>
      obtain ⟨uncached, isUncached, whole⟩ := divides.whole input known
      rw [isUncached]
      simpa using whole

/-- The count of a bucket, where its counter was reported; else it is zero anyway. -/
theorem reported_count {counter : Option Nat} {count : Nat} (within : count ≤ counter.getD 0) :
    (counter.map fun _ => count).getD 0 = count := by
  cases counter with
  | none => exact (Nat.le_zero.mp within).symm
  | some reported => rfl

/-! ## The estimate -/

/-- The components of an estimate: the tokens and the rate of each. -/
def components (usage : ApiEquivalentUsage) (divided : InputTokens) (rates : TokenRateSet) :
    List (Option Nat × Option Nat) :=
  [(divided.uncached, rates.input),
    (usage.cachedInputTokens.map fun _ => divided.cacheRead, rates.cacheRead),
    (usage.cacheWrite5mTokens.map fun _ => divided.cacheWrite5m,
      rates.cacheWrite5m.or rates.cacheWrite),
    (usage.cacheWrite1hTokens.map fun _ => divided.cacheWrite1h,
      rates.cacheWrite1h.or rates.cacheWrite),
    (usage.unknownCacheWriteTokens.map fun _ => divided.unknownCacheWrite, unsplitWriteRate rates),
    (usage.outputTokens, rates.output)]

/-- The tokens that are charged, each with its rate. -/
def charges (usage : ApiEquivalentUsage) (divided : InputTokens) (rates : TokenRateSet) :
    List (Nat × Nat) :=
  (components usage divided rates).filterMap fun component =>
    component.1.bind fun tokens => component.2.map fun rate => (tokens, rate)

/-- The cost of the charges in micro-USD, without rounding. -/
def exactCost (charged : List (Nat × Nat)) : Rat :=
  (charged.map fun charge => (charge.1 * charge.2 : Rat) / 1000000).sum

/-- The components of an estimate as they are published: the tokens and the tariff of each. -/
def publishedComponents (quote : Option TokenPrice) (usage : ApiEquivalentUsage)
    (divided : InputTokens) : List (Option Nat × (Nat → Prop)) :=
  [(divided.uncached, Published quote usage .input),
    (usage.cachedInputTokens.map fun _ => divided.cacheRead, Published quote usage .read),
    (usage.cacheWrite5mTokens.map fun _ => divided.cacheWrite5m,
      WindowTariff (Published quote usage) .write5m),
    (usage.cacheWrite1hTokens.map fun _ => divided.cacheWrite1h,
      WindowTariff (Published quote usage) .write1h),
    (usage.unknownCacheWriteTokens.map fun _ => divided.unknownCacheWrite,
      UnsplitTariff (Published quote usage)),
    (usage.outputTokens, Published quote usage .output)]

/-- The charge of a component: its tokens and the rate of its tariff, where there are both. -/
def ChargeOf (component : Option Nat × (Nat → Prop)) (charge : Option (Nat × Nat)) : Prop :=
  ∀ tokens rate, charge = some (tokens, rate) ↔ component.1 = some tokens ∧ component.2 rate

private theorem chargeOf_rate {rate : Option Nat} {tariff : Nat → Prop}
    (published : ∀ own, rate = some own ↔ tariff own) (tokens : Option Nat) :
    ChargeOf (tokens, tariff)
      (tokens.bind fun tokens => rate.map fun rate => (tokens, rate)) := by
  intro count own
  simp only [← published]
  cases tokens <;> cases rate <;> simp

private theorem tokenCost_rounds (tokens rate : Nat) (below : tokenCost tokens rate < u64Max) :
    |(tokenCost tokens rate : Rat) - (tokens * rate : Rat) / 1000000| ≤ 1 / 2 := by
  rw [tokenCost_eq] at below ⊢
  rw [Nat.min_eq_left (by omega)]
  have low : (tokens * rate + 500000) / 1000000 * 1000000 ≤ tokens * rate + 500000 := by omega
  have high : tokens * rate + 500000 < ((tokens * rate + 500000) / 1000000 + 1) * 1000000 := by
    omega
  generalize (tokens * rate + 500000) / 1000000 = cost at *
  have low : (cost : Rat) * 1000000 ≤ tokens * rate + 500000 := by exact_mod_cast low
  have high : (tokens * rate : Rat) + 500000 < (cost + 1) * 1000000 := by exact_mod_cast high
  rw [abs_le]
  constructor <;> linarith

private theorem charges_rounded (charged : List (Nat × Nat))
    (below : (charged.map fun charge => tokenCost charge.1 charge.2).sum < u64Max) :
    |(((charged.map fun charge => tokenCost charge.1 charge.2).sum : Nat) : Rat) -
      exactCost charged| ≤ charged.length / 2 := by
  induction charged with
  | nil => simp [exactCost]
  | cons charge charged ih =>
      rw [List.map_cons, List.sum_cons] at below ⊢
      have first := tokenCost_rounds charge.1 charge.2 (by omega)
      have rest := ih (by omega)
      simp only [exactCost, List.map_cons, List.sum_cons, List.length_cons, Nat.cast_add,
        Nat.cast_one] at rest ⊢
      rw [abs_le] at *
      constructor <;> linarith [first.1, first.2, rest.1, rest.2]

/-- What is charged for the components is what their values cost. -/
private theorem charges_cost (usage : ApiEquivalentUsage) (divided : InputTokens) (rates : TokenRateSet) :
    ((charges usage divided rates).map fun charge => tokenCost charge.1 charge.2).sum =
      ((components usage divided rates).map fun component =>
        (part (componentValue component.1 component.2)).microUsd).sum := by
  unfold charges
  induction components usage divided rates with
  | nil => rfl
  | cons component rest ih =>
      obtain ⟨tokens, rate⟩ := component
      rw [List.map_cons, List.sum_cons, ← ih]
      cases tokens <;> cases rate <;>
        simp [componentValue, part, ApiEquivalentSummary.default]

/-- What an estimate owes to its usage and its quote. -/
structure Accounts (usage : ApiEquivalentUsage) (quote : Option TokenPrice) (divided : InputTokens)
    (summary : ApiEquivalentSummary) (breakdown : ApiEquivalentBreakdown) : Prop where
  conserved : summary.pricedTokens + summary.unpricedTokens =
    max (usage.totalTokens.getD 0) usage.measuredTokens
  pricedWithin : summary.pricedTokens ≤ max (usage.totalTokens.getD 0) usage.measuredTokens
  divides : Divides usage divided
  uncachedTokens : (part breakdown.uncachedInput).pricedTokens +
    (part breakdown.uncachedInput).unpricedTokens = divided.uncached.getD 0
  inputPresent : breakdown.input.isSome =
    (breakdown.uncachedInput.isSome || breakdown.cacheRead.isSome || breakdown.cacheWrite.isSome)
  inputMerged : ∀ field : SummaryField,
    field.of (part breakdown.uncachedInput) + field.of (part breakdown.cacheRead) +
      field.of (part breakdown.cacheWrite) ≤ u64Max →
    field.of (part breakdown.input) = field.of (part breakdown.uncachedInput) +
      field.of (part breakdown.cacheRead) + field.of (part breakdown.cacheWrite)
  summaryCost : (part breakdown.input).microUsd + (part breakdown.output).microUsd ≤ u64Max →
    summary.microUsd = (part breakdown.input).microUsd + (part breakdown.output).microUsd
  summaryPriced :
    (part breakdown.input).pricedTokens + (part breakdown.output).pricedTokens ≤ u64Max →
    summary.pricedTokens = (part breakdown.input).pricedTokens + (part breakdown.output).pricedTokens
  uncachedInput : Charges breakdown.uncachedInput divided.uncached (Published quote usage .input)
  output : Charges breakdown.output usage.outputTokens (Published quote usage .output)
  cacheRead : Charges breakdown.cacheRead
    (usage.cachedInputTokens.map fun _ => divided.cacheRead) (Published quote usage .read)
  cacheWrite : ∃ write5m write1h unsplit,
    breakdown.cacheWrite = sumComponentValues [write5m, write1h, unsplit] ∧
    Charges write5m (usage.cacheWrite5mTokens.map fun _ => divided.cacheWrite5m)
      (WindowTariff (Published quote usage) .write5m) ∧
    Charges write1h (usage.cacheWrite1hTokens.map fun _ => divided.cacheWrite1h)
      (WindowTariff (Published quote usage) .write1h) ∧
    Charges unsplit (usage.unknownCacheWriteTokens.map fun _ => divided.unknownCacheWrite)
      (UnsplitTariff (Published quote usage))
  /-- Half a micro-USD for each component that is charged. -/
  rounded : ∃ charged : List (Option (Nat × Nat)),
    List.Forall₂ ChargeOf (publishedComponents quote usage divided) charged ∧
      (summary.microUsd = u64Max ∨
        |(summary.microUsd : Rat) - exactCost charged.reduceOption| ≤
          charged.reduceOption.length / 2)

section

variable {usage : ApiEquivalentUsage} {divided : InputTokens}

theorem Divides.component_fits (divides : Divides usage divided) (inRange : usage.InRange)
    (rates : TokenRateSet) (field : SummaryField) :
    ∀ component ∈ components usage divided rates,
      field.of (part (componentValue component.1 component.2)) ≤ u64Max := by
  have total := divides.total
  have read := divides.cacheRead
  have write5m := divides.cacheWrite5m
  have write1h := divides.cacheWrite1h
  have unknown := divides.unknownCacheWrite
  have uncached : divided.uncached.getD 0 ≤ u64Max := by
    cases known : usage.inputTokens with
    | none =>
        rw [divides.unclamped known]
        exact Nat.zero_le _
    | some input =>
        have bound := inRange.input
        rw [known] at total bound
        simp only [Option.getD_some] at total bound
        omega
  intro component member
  refine componentValue_fits field component.2 ?_
  simp only [components, List.mem_cons, List.not_mem_nil, or_false] at member
  rcases member with rfl | rfl | rfl | rfl | rfl | rfl
  · exact uncached
  · exact (reported_count read).trans_le (read.trans inRange.cached)
  · exact (reported_count write5m).trans_le (write5m.trans inRange.write5m)
  · exact (reported_count write1h).trans_le (write1h.trans inRange.write1h)
  · exact (reported_count unknown).trans_le (unknown.trans inRange.unknown)
  · exact inRange.output

/-- All tokens of the components are the measured ones, up to saturation. -/
private theorem Divides.component_tokens (divides : Divides usage divided) (rates : TokenRateSet) :
    min ((components usage divided rates).map fun component => component.1.getD 0).sum u64Max =
      usage.measuredTokens := by
  simp only [components, List.map_cons, List.map_nil, List.sum_cons, List.sum_nil,
    reported_count divides.cacheRead, reported_count divides.cacheWrite5m,
    reported_count divides.cacheWrite1h, reported_count divides.unknownCacheWrite,
    ApiEquivalentUsage.measuredTokens, ← divides.total]
  congr 1
  omega

private theorem Divides.measuredInput (divides : Divides usage divided) :
    saturatingAdd u64Max
        (usage.inputTokens.getD
          ([divided.cacheWrite5m, divided.cacheWrite1h, divided.unknownCacheWrite].foldl
            (saturatingAdd u64Max) divided.cacheRead))
        (usage.outputTokens.getD 0) = usage.measuredTokens := by
  cases known : usage.inputTokens with
  | none =>
      simp only [ApiEquivalentUsage.measuredTokens, known, divides.unclamped known, saturatingAdd,
        List.foldl_cons, List.foldl_nil, Option.getD_none]
      omega
  | some input => simp [ApiEquivalentUsage.measuredTokens, known, saturatingAdd]

end

section

variable (usage : ApiEquivalentUsage) (divided : InputTokens) (rates : TokenRateSet)

/-- The breakdown of an estimate, once the input is divided. -/
def itemized : ApiEquivalentBreakdown :=
  let uncachedInput := componentValue divided.uncached rates.input
  let cacheRead :=
    componentValue (usage.cachedInputTokens.map fun _ => divided.cacheRead) rates.cacheRead
  let cacheWrite :=
    sumComponentValues
      [componentValue (usage.cacheWrite5mTokens.map fun _ => divided.cacheWrite5m)
          (rates.cacheWrite5m.or rates.cacheWrite),
        componentValue (usage.cacheWrite1hTokens.map fun _ => divided.cacheWrite1h)
          (rates.cacheWrite1h.or rates.cacheWrite),
        componentValue (usage.unknownCacheWriteTokens.map fun _ => divided.unknownCacheWrite)
          (unsplitWriteRate rates)]
  ⟨sumComponentValues [uncachedInput, cacheRead, cacheWrite], uncachedInput, cacheRead, cacheWrite,
    componentValue usage.outputTokens rates.output⟩

/-- The summary before the unpriced tokens are set. -/
def summarized : ApiEquivalentSummary :=
  part (sumComponentValues
    [(itemized usage divided rates).input, (itemized usage divided rates).output])

variable {usage divided}

theorem itemized_input (divides : Divides usage divided) (inRange : usage.InRange)
    (field : SummaryField) :
    field.of (part (itemized usage divided rates).input) =
      min (field.of (part (itemized usage divided rates).uncachedInput) +
        field.of (part (itemized usage divided rates).cacheRead) +
        field.of (part (itemized usage divided rates).cacheWrite)) u64Max := by
  have fits := divides.component_fits inRange rates field
  simp only [components, List.forall_mem_cons, List.not_mem_nil, false_implies, implies_true,
    and_true] at fits
  obtain ⟨uncached, read, write5m, write1h, unsplit, -⟩ := fits
  have write : field.of (part (itemized usage divided rates).cacheWrite) ≤ u64Max := by
    refine (sumComponentValues_field field _ ?_).trans_le (Nat.min_le_right _ _)
    simp only [List.forall_mem_cons, List.not_mem_nil, false_implies, implies_true, and_true]
    exact ⟨write5m, write1h, unsplit⟩
  refine (sumComponentValues_field field _ ?_).trans ?_
  · simp only [List.forall_mem_cons, List.not_mem_nil, false_implies, implies_true, and_true]
    exact ⟨uncached, read, write⟩
  · simp only [List.map_cons, List.map_nil, List.sum_cons, List.sum_nil, itemized, Nat.add_zero,
      Nat.add_assoc]

theorem summarized_parts (divides : Divides usage divided) (inRange : usage.InRange)
    (field : SummaryField) :
    field.of (summarized usage divided rates) =
      min (field.of (part (itemized usage divided rates).input) +
        field.of (part (itemized usage divided rates).output)) u64Max := by
  have fits := divides.component_fits inRange rates field
  simp only [components, List.forall_mem_cons, List.not_mem_nil, false_implies, implies_true,
    and_true] at fits
  refine (sumComponentValues_field field _ ?_).trans ?_
  · simp only [List.forall_mem_cons, List.not_mem_nil, false_implies, implies_true, and_true]
    refine ⟨?_, fits.2.2.2.2.2⟩
    rw [itemized_input rates divides inRange]
    exact Nat.min_le_right _ _
  · simp only [List.map_cons, List.map_nil, List.sum_cons, List.sum_nil, Nat.add_zero]

/-- The summary saturates once, however its components were grouped. -/
private theorem summarized_components (divides : Divides usage divided) (inRange : usage.InRange)
    (field : SummaryField) :
    field.of (summarized usage divided rates) =
      min ((components usage divided rates).map fun component =>
        field.of (part (componentValue component.1 component.2))).sum u64Max := by
  have fits := divides.component_fits inRange rates field
  simp only [components, List.forall_mem_cons, List.not_mem_nil, false_implies, implies_true,
    and_true] at fits
  have write : field.of (part (itemized usage divided rates).cacheWrite) = _ :=
    sumComponentValues_field field _ (by
      simp only [List.forall_mem_cons, List.not_mem_nil, false_implies, implies_true, and_true]
      exact ⟨fits.2.2.1, fits.2.2.2.1, fits.2.2.2.2.1⟩)
  rw [summarized_parts rates divides inRange, itemized_input rates divides inRange, write]
  simp only [itemized, components, List.map_cons, List.map_nil, List.sum_cons, List.sum_nil]
  omega

end

/-- An estimate never fails, and accounts for every token and every cost. -/
theorem estimate_accounts (usage : ApiEquivalentUsage) (quote : Option TokenPrice)
    (inRange : usage.InRange) :
    ∃ divided summary breakdown, divideInput usage = some divided ∧
      estimateApiEquivalentBreakdownWithTokenPrice usage quote = some (summary, breakdown) ∧
      Accounts usage quote divided summary breakdown := by
  obtain ⟨divided, isDivided, divides⟩ := divideInput_divides usage
  have tariffs := quotedRates_tariff quote usage.priceClass usage.contextBand
  generalize ratesAre : quotedRates quote usage.priceClass usage.contextBand = rates at *
  have parts := fun field => itemized_input rates divides inRange field
  have sums := fun field => summarized_parts rates divides inRange field
  have whole := fun field => summarized_components rates divides inRange field
  have measured : max (usage.totalTokens.getD usage.measuredTokens) usage.measuredTokens =
      max (usage.totalTokens.getD 0) usage.measuredTokens := by
    cases usage.totalTokens <;> simp
  have priced : (summarized usage divided rates).pricedTokens ≤ usage.measuredTokens := by
    rw [← divides.component_tokens rates]
    refine (whole .pricedTokens).trans_le (min_le_min_right _ (List.sum_le_sum fun component _ => ?_))
    rw [← componentValue_tokens component.1 component.2]
    exact Nat.le_add_right _ _
  refine ⟨divided, { summarized usage divided rates with
      unpricedTokens := max (usage.totalTokens.getD usage.measuredTokens) usage.measuredTokens -
        (summarized usage divided rates).pricedTokens },
    itemized usage divided rates, isDivided, ?_, ?_⟩
  · rw [estimateApiEquivalentBreakdownWithTokenPrice, isDivided]
    simp only [Option.bind_eq_bind, Option.bind_some, divides.measuredInput, ratesAre]
    rfl
  rw [measured]
  have within := priced.trans (Nat.le_max_right (usage.totalTokens.getD 0) usage.measuredTokens)
  constructor
  · exact Nat.add_sub_cancel' within
  · exact within
  · exact divides
  · exact componentValue_tokens divided.uncached rates.input
  · exact (sumComponentValues_isSome _).trans (by simp [itemized, Bool.or_assoc])
  · exact fun field fits => (parts field).trans (Nat.min_eq_left fits)
  · exact fun fits => (sums .microUsd).trans (Nat.min_eq_left fits)
  · exact fun fits => (sums .pricedTokens).trans (Nat.min_eq_left fits)
  · exact componentValue_charges _ (tariffs .input)
  · exact componentValue_charges _ (tariffs .output)
  · exact componentValue_charges _ (tariffs .read)
  · exact ⟨_, _, _, rfl, componentValue_charges _ (windowTariff_iff tariffs .write5m),
      componentValue_charges _ (windowTariff_iff tariffs .write1h),
      componentValue_charges _ (unsplitTariff_iff tariffs)⟩
  · refine ⟨(components usage divided rates).map fun component =>
      component.1.bind fun tokens => component.2.map fun rate => (tokens, rate), ?_, ?_⟩
    · exact .cons (chargeOf_rate (tariffs .input) _) (.cons (chargeOf_rate (tariffs .read) _)
        (.cons (chargeOf_rate (windowTariff_iff tariffs .write5m) _)
          (.cons (chargeOf_rate (windowTariff_iff tariffs .write1h) _)
            (.cons (chargeOf_rate (unsplitTariff_iff tariffs) _)
              (.cons (chargeOf_rate (tariffs .output) _) .nil)))))
    have same : ((components usage divided rates).map fun component =>
        component.1.bind fun tokens => component.2.map fun rate => (tokens, rate)).reduceOption =
          charges usage divided rates := by
      rw [List.reduceOption, List.filterMap_map]
      rfl
    rw [same]
    have cost : (summarized usage divided rates).microUsd =
        min ((charges usage divided rates).map fun charge =>
          tokenCost charge.1 charge.2).sum u64Max :=
      (whole .microUsd).trans (congrArg (min · u64Max) (charges_cost usage divided rates).symm)
    by_cases below : ((charges usage divided rates).map fun charge =>
        tokenCost charge.1 charge.2).sum < u64Max
    · refine .inr ?_
      rw [cost, Nat.min_eq_left below.le]
      exact charges_rounded _ below
    · exact .inl (cost.trans (Nat.min_eq_right (Nat.not_lt.mp below)))

/-- Cache counters above the input, one of them without a tariff. -/
theorem estimate_accounts_clamped :
    let noRates := TokenRateSet.EMPTY
    let noContext : LongContextRates := ⟨noRates, noRates, noRates, noRates⟩
    let usage : ApiEquivalentUsage :=
      ⟨some 100, some 70, some 20, none, some 90, some 5, none, .standard, .above200k⟩
    let quote : TokenPrice :=
      ⟨5000000, some 500000, some 6000000, none, some 7000000, 10000000, noRates, noRates, noRates,
        noContext, noContext, noContext, noContext, noContext⟩
    ∃ divided summary breakdown, divideInput usage = some divided ∧
      estimateApiEquivalentBreakdownWithTokenPrice usage (some quote) = some (summary, breakdown) ∧
      Accounts usage (some quote) divided summary breakdown := by
  intro noRates noContext usage quote
  refine estimate_accounts usage (some quote) ⟨?_, ?_, ?_, ?_, ?_, ?_⟩ <;> decide

end ZenithRelay.Usage
