import ZenithRelay.Scheduler.Rotation.Engine.AccountingProperties

/-!
# Physical capacity limits

The limit of a capacity key is derived from its current members. It is recomputed
one key at a time, and is exact for every key in every reachable state; a
reservation that succeeds leaves every limit it is subject to respected.
-/

set_option autoImplicit false

namespace ZenithRelay.Scheduler.Rotation

/-- A record's capacity key and the two limits it puts on it. -/
def CandidateRuntime.limits (runtime : CandidateRuntime) : String × Nat × Nat :=
  (runtime.candidate.capacityKey, runtime.candidate.capacityLimit, runtime.candidate.maxConcurrency)

namespace RotationEngine

/-- The two limits a record puts on its capacity key. -/
def contribution (engine : RotationEngine) (capacityKey id : String) : Option (Nat × Nat) :=
  engine.candidates[id]?.bind fun runtime =>
    if runtime.candidate.capacityKey = capacityKey then
      some (runtime.candidate.capacityLimit, runtime.candidate.maxConcurrency)
    else none

/-- The positive limits that members put on a capacity key. -/
def positiveLimits (engine : RotationEngine) (capacityKey : String) : Set Nat :=
  { limit | 0 < limit ∧ ∃ id limits, engine.contribution capacityKey id = some limits ∧
      (limit = limits.1 ∨ limit = limits.2) }

/-- What the stored limit of a capacity key has to be. -/
def IsPhysicalLimit (engine : RotationEngine) (capacityKey : String) : Option Nat → Prop
  | none => ∀ id, engine.contribution capacityKey id = none
  | some limit => (∃ id, engine.contribution capacityKey id ≠ none) ∧
      ((limit = 0 ∧ engine.positiveLimits capacityKey = ∅) ∨
        IsLeast (engine.positiveLimits capacityKey) limit)

end RotationEngine

/-- Every stored limit is the one its members ask for. -/
def PhysicalLimits (engine : RotationEngine) : Prop :=
  ∀ capacityKey : String, engine.IsPhysicalLimit capacityKey engine.capacityLimits[capacityKey]?

namespace RotationEngine

variable {engine after : RotationEngine} {capacityKey : String}

theorem contribution_eq_some {id : String} {limits : Nat × Nat} :
    engine.contribution capacityKey id = some limits ↔
      ∃ runtime, engine.candidates[id]? = some runtime ∧
        runtime.candidate.capacityKey = capacityKey ∧
        (runtime.candidate.capacityLimit, runtime.candidate.maxConcurrency) = limits := by
  unfold contribution
  rw [Option.bind_eq_some_iff]
  constructor
  · rintro ⟨runtime, found, limits⟩
    split at limits
    next same => exact ⟨runtime, found, same, Option.some.inj limits⟩
    next => cases limits
  · rintro ⟨runtime, found, same, limits⟩
    exact ⟨runtime, found, by rw [if_pos same, limits]⟩

/-- A limit depends on the members only through what they contribute to its key. -/
theorem IsPhysicalLimit.congr
    (same : ∀ id, after.contribution capacityKey id = engine.contribution capacityKey id)
    {limit : Option Nat} (physical : engine.IsPhysicalLimit capacityKey limit) :
    after.IsPhysicalLimit capacityKey limit := by
  have limits : after.positiveLimits capacityKey = engine.positiveLimits capacityKey := by
    unfold positiveLimits
    simp only [same]
  cases limit with
  | none => exact fun id => (same id).trans (physical id)
  | some limit =>
      unfold IsPhysicalLimit at physical ⊢
      rw [limits]
      simpa only [same] using physical

theorem mem_membersOf {runtime : CandidateRuntime} :
    runtime ∈ engine.membersOf capacityKey ↔
      ∃ id : String, engine.candidates[id]? = some runtime ∧
        runtime.candidate.capacityKey = capacityKey := by
  unfold membersOf
  rw [List.mem_filter, BTreeMap.mem_values_iff]
  simp

/-- The smallest positive limit of a list, zero when there is none. -/
private theorem memberLimit_spec (members : List CandidateRuntime) :
    (memberLimit members = 0 ∧ ∀ runtime ∈ members,
        runtime.candidate.capacityLimit = 0 ∧ runtime.candidate.maxConcurrency = 0) ∨
      IsLeast { limit | 0 < limit ∧ ∃ runtime ∈ members,
        limit = runtime.candidate.capacityLimit ∨ limit = runtime.candidate.maxConcurrency }
        (memberLimit members) := by
  have listed : ∀ limit, limit ∈ ((members.flatMap fun runtime =>
      [runtime.candidate.capacityLimit, runtime.candidate.maxConcurrency]).filter (· > 0)) ↔
        0 < limit ∧ ∃ runtime ∈ members,
          limit = runtime.candidate.capacityLimit ∨ limit = runtime.candidate.maxConcurrency := by
    intro limit
    simp only [List.mem_filter, List.mem_flatMap, List.mem_cons, List.not_mem_nil, or_false,
      decide_eq_true_eq]
    exact and_comm
  unfold memberLimit
  cases least : ((members.flatMap fun runtime =>
      [runtime.candidate.capacityLimit, runtime.candidate.maxConcurrency]).filter (· > 0)).min? with
  | none =>
      refine .inl ⟨rfl, fun runtime member => ?_⟩
      have empty := List.min?_eq_none_iff.mp least
      simp only [empty, List.not_mem_nil, false_iff, not_and, not_exists] at listed
      constructor
      · by_contra nonzero
        exact listed _ (Nat.pos_of_ne_zero nonzero) runtime member (.inl rfl)
      · by_contra nonzero
        exact listed _ (Nat.pos_of_ne_zero nonzero) runtime member (.inr rfl)
  | some limit =>
      obtain ⟨member, lower⟩ := List.min?_eq_some_iff.mp least
      exact .inr ⟨(listed limit).mp member, fun other inside => lower other ((listed other).mpr inside)⟩

/-- The recomputed entry is the one the members ask for. -/
private theorem recomputed_isPhysicalLimit (engine : RotationEngine) (capacityKey : String) :
    engine.IsPhysicalLimit capacityKey
      (if (engine.membersOf capacityKey).isEmpty then none
        else some (memberLimit (engine.membersOf capacityKey))) := by
  have members : ∀ id limits, engine.contribution capacityKey id = some limits →
      ∃ runtime ∈ engine.membersOf capacityKey,
        (runtime.candidate.capacityLimit, runtime.candidate.maxConcurrency) = limits := by
    intro id limits contributes
    obtain ⟨runtime, found, same, limits⟩ := contribution_eq_some.mp contributes
    exact ⟨runtime, mem_membersOf.mpr ⟨id, found, same⟩, limits⟩
  have contributes : ∀ runtime ∈ engine.membersOf capacityKey, ∃ id,
      engine.contribution capacityKey id =
        some (runtime.candidate.capacityLimit, runtime.candidate.maxConcurrency) := by
    intro runtime member
    obtain ⟨id, found, same⟩ := mem_membersOf.mp member
    exact ⟨id, contribution_eq_some.mpr ⟨runtime, found, same, rfl⟩⟩
  have limits : engine.positiveLimits capacityKey =
      { limit | 0 < limit ∧ ∃ runtime ∈ engine.membersOf capacityKey,
        limit = runtime.candidate.capacityLimit ∨ limit = runtime.candidate.maxConcurrency } := by
    ext limit
    constructor
    · rintro ⟨positive, id, limits, contribution, either⟩
      obtain ⟨runtime, member, rfl⟩ := members id limits contribution
      exact ⟨positive, runtime, member, either⟩
    · rintro ⟨positive, runtime, member, either⟩
      obtain ⟨id, contribution⟩ := contributes runtime member
      exact ⟨positive, id, _, contribution, either⟩
  split
  next empty =>
    intro id
    cases contribution : engine.contribution capacityKey id with
    | none => rfl
    | some stored =>
        obtain ⟨runtime, member, -⟩ := members id stored contribution
        simp [List.isEmpty_iff.mp empty] at member
  next nonempty =>
    obtain ⟨runtime, member⟩ := List.exists_mem_of_ne_nil (engine.membersOf capacityKey)
      fun empty => nonempty (by rw [empty]; rfl)
    obtain ⟨id, contribution⟩ := contributes runtime member
    refine ⟨⟨id, by rw [contribution]; exact Option.some_ne_none _⟩, ?_⟩
    rw [limits]
    rcases memberLimit_spec (engine.membersOf capacityKey) with ⟨zero, none⟩ | least
    · refine .inl ⟨zero, Set.eq_empty_iff_forall_notMem.mpr ?_⟩
      rintro limit ⟨positive, other, inside, rfl | rfl⟩
      · exact absurd (none other inside).1 (Nat.ne_of_gt positive)
      · exact absurd (none other inside).2 (Nat.ne_of_gt positive)
    · exact .inr least

/-- Recomputing one key makes it exact and leaves the others as they are. -/
theorem recomputeCapacityLimit_limits (engine : RotationEngine) (capacityKey other : String)
    (others : other ≠ capacityKey →
      engine.IsPhysicalLimit other engine.capacityLimits[other]?) :
    (engine.recomputeCapacityLimit capacityKey).IsPhysicalLimit other
      (engine.recomputeCapacityLimit capacityKey).capacityLimits[other]? := by
  have same : ∀ id, (engine.recomputeCapacityLimit capacityKey).contribution other id =
      engine.contribution other id := by
    intro id
    rw [engine.recomputeCapacityLimit_same capacityKey]
    rfl
  apply IsPhysicalLimit.congr same
  rw [recomputeCapacityLimit_lookup]
  split
  next equal =>
    subst equal
    exact engine.recomputed_isPhysicalLimit other
  next different => exact others different

/-- A record under another capacity key contributes nothing to this one. -/
theorem contribution_insert {candidates : BTreeMap String CandidateRuntime} {inserted : String}
    {runtime : CandidateRuntime} (engine : RotationEngine)
    (shape : engine.candidates = candidates.insert inserted runtime)
    (different : capacityKey ≠ runtime.candidate.capacityKey) (id : String) :
    engine.contribution capacityKey id = if id = inserted then none else
      ({ engine with candidates } : RotationEngine).contribution capacityKey id := by
  unfold contribution
  rw [shape, BTreeMap.lookup_insert]
  split
  next => rw [Option.bind_some, if_neg (Ne.symm different)]
  next => rfl

/-- Records that keep their key and limits keep what they contribute. -/
private theorem contribution_congr
    (kept : ∀ id : String, after.candidates[id]?.map (·.limits) =
      engine.candidates[id]?.map (·.limits)) (id : String) :
    after.contribution capacityKey id = engine.contribution capacityKey id := by
  have same := kept id
  unfold contribution
  cases stored : after.candidates[id]? with
  | none =>
      cases found : engine.candidates[id]? with
      | none => rfl
      | some runtime => simp [stored, found] at same
  | some later =>
      cases found : engine.candidates[id]? with
      | none => simp [stored, found] at same
      | some runtime =>
          simp only [stored, found, CandidateRuntime.limits, Option.map_some, Option.some.injEq,
            Prod.mk.injEq] at same
          obtain ⟨key, limit, concurrency⟩ := same
          simp only [Option.bind_some, key, limit, concurrency]

end RotationEngine

/-- An engine whose records keep their limits is as exact. -/
theorem PhysicalLimits.congr {engine after : RotationEngine} (physical : PhysicalLimits engine)
    (kept : ∀ id : String, after.candidates[id]?.map (·.limits) =
      engine.candidates[id]?.map (·.limits))
    (limits : after.capacityLimits = engine.capacityLimits) : PhysicalLimits after := by
  intro capacityKey
  rw [limits]
  exact (physical capacityKey).congr (RotationEngine.contribution_congr kept)

/-- The limits of the replaced record's old and new key are both recomputed. -/
theorem PhysicalLimits.replace {engine : RotationEngine} {candidate : RotationCandidate}
    {runtime : CandidateRuntime} (found : engine.candidates[candidate.id]? = some runtime)
    (physical : PhysicalLimits engine) :
    PhysicalLimits
      ((engine.replaceCandidate runtime candidate).recomputeDerived runtime.candidate
        candidate) := by
  set replaced := engine.replaceCandidate runtime candidate with replacedEq
  -- Away from both keys the replacement is invisible.
  have away : ∀ capacityKey : String, capacityKey ≠ candidate.capacityKey →
      capacityKey ≠ runtime.candidate.capacityKey →
        replaced.IsPhysicalLimit capacityKey replaced.capacityLimits[capacityKey]? := by
    intro capacityKey new old
    refine (physical capacityKey).congr fun id => ?_
    rw [RotationEngine.contribution_insert replaced rfl new id]
    split
    next same =>
      unfold RotationEngine.contribution
      rw [same, found, Option.bind_some, if_neg (Ne.symm old)]
    next => rfl
  have first : ∀ capacityKey : String, capacityKey ≠ runtime.candidate.capacityKey ∨
      candidate.capacityKey = runtime.candidate.capacityKey →
        (replaced.recomputeCapacityLimit candidate.capacityKey).IsPhysicalLimit capacityKey
          (replaced.recomputeCapacityLimit candidate.capacityKey).capacityLimits[capacityKey]? := by
    intro capacityKey old
    refine replaced.recomputeCapacityLimit_limits candidate.capacityKey capacityKey fun new => ?_
    rcases old with old | same
    · exact away capacityKey new old
    · exact away capacityKey new (same ▸ new)
  have second : PhysicalLimits
      (if runtime.candidate.capacityKey ≠ candidate.capacityKey then
        (replaced.recomputeCapacityLimit candidate.capacityKey).recomputeCapacityLimit
          runtime.candidate.capacityKey
      else replaced.recomputeCapacityLimit candidate.capacityKey) := by
    intro capacityKey
    split
    next =>
      exact (replaced.recomputeCapacityLimit candidate.capacityKey).recomputeCapacityLimit_limits
        runtime.candidate.capacityKey capacityKey fun old => first capacityKey (.inl old)
    next same => exact first capacityKey (.inr (not_not.mp same).symm)
  unfold RotationEngine.recomputeDerived
  dsimp only
  split
  · exact second.congr (fun _ => rfl) rfl
  · exact second

/-- Permits given back change no limit. -/
theorem PhysicalLimits.dropLease {engine : RotationEngine} (physical : PhysicalLimits engine)
    (leaseId : LeaseId) (lease : LeaseRuntime) :
    PhysicalLimits (engine.dropLease leaseId lease) := by
  unfold RotationEngine.dropLease RotationEngine.releaseCapacity
  dsimp only
  split
  · refine physical.congr (fun id => ?_) rfl
    rw [BTreeMap.lookup_modify]
    split
    next => rw [Option.map_map]; rfl
    next => rfl
  · exact physical.congr (fun _ => rfl) rfl

/-- The limits stay exact under every operation. -/
theorem Transition.physicalLimits {engine after : RotationEngine} {event : EngineEvent}
    (transition : Transition engine event after) (physical : PhysicalLimits engine) :
    PhysicalLimits after := by
  cases transition with
  | configure | recoveryPolicy => exact physical.congr (fun _ => rfl) rfl
  | edit candidateId edit quotaRevisions keeps =>
      refine physical.congr (fun id => ?_) rfl
      change (engine.candidates.modify candidateId _)[id]?.map _ = _
      rw [BTreeMap.lookup_modify]
      split
      next =>
        rw [Option.map_map]
        congr 1
        funext runtime
        have same := keeps runtime.candidate
        simp [CandidateRuntime.limits, same.capacityKey, same.capacityLimit, same.maxConcurrency]
      next => rfl
  | install candidate valid absent room =>
      intro capacityKey
      refine RotationEngine.recomputeCapacityLimit_limits _ _ _ fun different => ?_
      refine (physical capacityKey).congr fun id => ?_
      rw [RotationEngine.contribution_insert (engine.installCandidate candidate) rfl different id]
      split
      next same =>
        unfold RotationEngine.contribution
        rw [same, absent, Option.bind_none]
      next => rfl
  | replace candidate runtime valid found => exact physical.replace found
  | remove candidateId runtime found =>
      have recomputed : PhysicalLimits ((engine.eraseCandidate candidateId).recomputeCapacityLimit
          runtime.candidate.capacityKey) := by
        intro capacityKey
        refine RotationEngine.recomputeCapacityLimit_limits _ _ _ fun different => ?_
        refine (physical capacityKey).congr fun id => ?_
        unfold RotationEngine.contribution RotationEngine.eraseCandidate
        rw [BTreeMap.lookup_erase]
        split
        next same => rw [same, found, Option.bind_some, if_neg (Ne.symm different)]; rfl
        next => rfl
      exact recomputed.congr (fun _ => rfl) rfl
  | @reserve request nowMs group selected runtime admission =>
      obtain ⟨rotationCredit, roundRobinCursor, same⟩ :=
        engine.takeLease_same request group selected runtime
          (engine.selectionCandidates request nowMs).2
      rw [same]
      refine physical.congr (fun id => ?_) rfl
      change (engine.candidates.insert selected.id _)[id]?.map _ = _
      rw [BTreeMap.lookup_insert]
      split
      next same => rw [same, admission.found]; rfl
      next => rfl
  | dispatch => exact physical.congr (fun _ => rfl) rfl
  | release leaseId lease found unstarted => exact physical.dropLease leaseId lease
  | settle leaseId settlement found dispatched =>
      have dropped := physical.dropLease leaseId settlement.lease
      obtain ⟨circuits, healthRecords, recoveryCredits, successes, same⟩ :=
        engine.settleLease_same leaseId settlement.lease settlement.health settlement.nowMs
          settlement.firstOutputLatencyMs
      rw [same]
      exact dropped.congr (fun _ => rfl) rfl

theorem PhysicalLimits.default : PhysicalLimits .default := fun _ _ => rfl

namespace RotationEngine

variable {engine : RotationEngine}

theorem Reachable.physicalLimits (reachable : engine.Reachable) : PhysicalLimits engine :=
  Execution.Reachable.invariant PhysicalLimits reachable PhysicalLimits.default
    fun engine operation => (engine.apply_transition operation).physicalLimits

/-- A saturated increment of one counter adds at most one. -/
private theorem incrementCapacity_le (counts : BTreeMap String Nat) (capacityKey : String) :
    (incrementCapacity counts capacityKey)[capacityKey]?.getD 0 ≤
      counts[capacityKey]?.getD 0 + 1 := by
  rw [incrementCapacity_lookup, if_pos rfl, Option.getD_some]
  cases counts[capacityKey]? with
  | none => exact Nat.le_refl _
  | some count => exact Nat.min_le_left _ _

/-- A reservation leaves the engine within each limit it was subject to. -/
private theorem reserve_within_limits {request : RotationRequest} {nowMs : Nat} {reserved : RotationLease}
    (success : (engine.reserve request nowMs).2 = .ok reserved) :
    let after := (engine.reserve request nowMs).1
    after.activeLeases ≤ after.maxInFlight ∧
      ∃ runtime, after.candidates[reserved.candidateId]? = some runtime ∧
        (∀ limit, after.capacityLimits[runtime.candidate.capacityKey]? = some limit → 0 < limit →
          after.capacityInFlightOf runtime.candidate.capacityKey ≤ limit) ∧
        (0 < runtime.candidate.maxConcurrency →
          after.inFlight reserved.candidateId ≤ runtime.candidate.maxConcurrency) := by
  intro after
  rcases engine.reserve_cases request nowMs with
    ⟨error, refused⟩ | ⟨group, selected, runtime, admission, outcome⟩
  · rw [refused] at success
    cases success
  · obtain ⟨rotationCredit, roundRobinCursor, same⟩ :=
      engine.takeLease_same request group selected runtime
        (engine.selectionCandidates request nowMs).2
    have afterEq : after = { engine.insertLease runtime (engine.newLease request selected
        runtime (engine.selectionCandidates request nowMs).2) with
          rotationCredit, roundRobinCursor } := by
      rw [← same]
      exact congrArg Prod.fst outcome
    have candidateId : reserved.candidateId = selected.id := by
      rw [outcome] at success
      cases success
      rfl
    obtain ⟨recovery, ready⟩ := admission.isReady
    have stored : after.candidates[selected.id]? =
        some { runtime with inFlight := saturatingAdd u32Max runtime.inFlight 1 } := by
      rw [afterEq]
      change (engine.candidates.insert selected.id _)[selected.id]? = _
      rw [BTreeMap.lookup_insert, if_pos rfl]
    rw [candidateId]
    refine ⟨?_, _, stored, fun limit lookup positive => ?_, fun limited => ?_⟩
    · rw [afterEq]
      exact Nat.le_trans Std.ExtTreeMap.size_insert_le ready.leaseRoom
    · have room := ready.capacityRoom limit (by rw [afterEq] at lookup; exact lookup) positive
      have raised := incrementCapacity_le engine.capacityInFlight runtime.candidate.capacityKey
      rw [afterEq]
      exact raised.trans room
    · unfold inFlight
      rw [stored]
      exact (Nat.min_le_left _ _).trans (ready.concurrencyRoom limited)

/-- In every reachable state the limits are exact, and every reservation that
succeeds there respects the limits that apply to it. -/
theorem capacity_limits_respected (reachable : engine.Reachable) :
    (∀ capacityKey : String,
      engine.IsPhysicalLimit capacityKey engine.capacityLimits[capacityKey]?) ∧
    ∀ (request : RotationRequest) (nowMs : Nat) (reserved : RotationLease),
      (engine.reserve request nowMs).2 = .ok reserved →
        let after := (engine.reserve request nowMs).1
        after.activeLeases ≤ after.maxInFlight ∧
          ∃ runtime, after.candidates[reserved.candidateId]? = some runtime ∧
            (∀ limit, after.capacityLimits[runtime.candidate.capacityKey]? = some limit →
              0 < limit → after.capacityInFlightOf runtime.candidate.capacityKey ≤ limit) ∧
            (0 < runtime.candidate.maxConcurrency →
              after.inFlight reserved.candidateId ≤ runtime.candidate.maxConcurrency) :=
  ⟨reachable.physicalLimits, fun _ _ _ success => reserve_within_limits success⟩

/-- A member with room for one lease takes one. -/
theorem capacity_limits_respected_single :
    let engine := RotationEngine.default.runOperations
      [.upsert ((RotationCandidate.create "a" "r" "m").withCapacity "k" 1)]
    engine.IsPhysicalLimit "k" (some 1) ∧
      (engine.reserve (.create 1 "r" "m") 0).1.activeLeases ≤ 1024 :=
  have respected := capacity_limits_respected
    ⟨[.upsert ((RotationCandidate.create "a" "r" "m").withCapacity "k" 1)], rfl⟩
  ⟨respected.1 "k", (respected.2 (.create 1 "r" "m") 0 _ rfl).1⟩

end RotationEngine

end ZenithRelay.Scheduler.Rotation
