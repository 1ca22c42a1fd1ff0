import ZenithRelay.Scheduler.Rotation.Engine.RegistryProperties

/-!
# Permit accounting

Every counter of the engine is a count over the live leases, in every reachable
state. What a lease takes and gives back follows from the counts alone.
-/

set_option autoImplicit false

namespace ZenithRelay.Scheduler.Rotation

/-- The stored form of a counter: zero is not stored. -/
def positiveEntry (count : Nat) : Option Nat := if count = 0 then none else some count

private theorem positiveEntry_getD (count : Nat) : (positiveEntry count).getD 0 = count := by
  unfold positiveEntry
  split
  next zero => simp [zero]
  next => rfl

private theorem positiveEntry_ne_zero (count : Nat) : positiveEntry count ≠ some 0 := by
  unfold positiveEntry
  split <;> simp_all

namespace RotationEngine

/-- The lease was taken on this candidate id under its current registration. -/
def holdsCandidate (engine : RotationEngine) (candidateId : String) (lease : LeaseRuntime) : Bool :=
  lease.candidateId = candidateId &&
    engine.candidateGenerations[candidateId]? = some lease.candidateGeneration

theorem incrementCapacity_lookup (counts : BTreeMap String Nat) (capacityKey other : String) :
    (incrementCapacity counts capacityKey)[other]? =
      if other = capacityKey then
        some ((counts[capacityKey]?.map fun count => saturatingAdd u32Max count 1).getD 1)
      else counts[other]? := by
  rw [incrementCapacity, BTreeMap.lookup_insert]

private theorem decrementCapacity_lookup (counts : BTreeMap String Nat) (capacityKey other : String) :
    (decrementCapacity counts capacityKey)[other]? =
      if other = capacityKey then
        counts[capacityKey]?.bind fun count => positiveEntry (count - 1)
      else counts[other]? := by
  unfold decrementCapacity
  cases found : counts[capacityKey]? with
  | none =>
      dsimp only
      split
      next same => rw [same, found]; rfl
      next => rfl
  | some count =>
      dsimp only [Option.bind_some]
      unfold positiveEntry
      split
      next zero => rw [BTreeMap.lookup_erase]
      next positive => rw [BTreeMap.lookup_insert]

end RotationEngine

/-- Every counter is the number of live leases it stands for. -/
structure Accounted (engine : RotationEngine) : Prop where
  capacity : ∀ capacityKey : String, engine.capacityInFlight[capacityKey]? =
    positiveEntry (engine.leaseCount fun lease => lease.capacityKey = capacityKey)
  inFlight : ∀ {id : String} {runtime : CandidateRuntime},
    engine.candidates[id]? = some runtime →
      runtime.inFlight = engine.leaseCount (engine.holdsCandidate id)
  recovery : engine.recoveryInFlight = engine.leaseCount (·.recovery)

namespace Accounted

variable {engine : RotationEngine}

theorem default : Accounted .default where
  capacity capacityKey := rfl
  inFlight found := by simp [RotationEngine.default] at found
  recovery := rfl

theorem derived {after : RotationEngine} (same : engine.SameUpToDerived after)
    (accounted : Accounted engine) : Accounted after := by
  rw [same]
  exact { accounted with }

/-- Counts over the registry never come near a counter's width. -/
theorem leaseCount_lt (registered : Registered engine) (test : LeaseRuntime → Bool) :
    engine.leaseCount test + 1 ≤ u32Max := by
  have size := (BTreeMap.countValues_le_size engine.leases test).trans registered.size_le
  unfold RotationEngine.leaseCount u32Max
  omega

/-- Record changes that keep the permit count of every stored record. -/
theorem withCandidates (accounted : Accounted engine)
    (candidates : BTreeMap String CandidateRuntime)
    (kept : ∀ {id : String} {runtime : CandidateRuntime}, candidates[id]? = some runtime →
      ∃ earlier, engine.candidates[id]? = some earlier ∧ runtime.inFlight = earlier.inFlight) :
    Accounted { engine with candidates } where
  capacity := accounted.capacity
  inFlight found := by
    obtain ⟨earlier, stored, same⟩ := kept found
    rw [same]
    exact accounted.inFlight stored
  recovery := accounted.recovery

/-- A stored lease takes one of each permit it needs. -/
theorem insertLease (accounted : Accounted engine) (registered : Registered engine)
    {runtime : CandidateRuntime} {lease : LeaseRuntime}
    (found : engine.candidates[lease.candidateId]? = some runtime)
    (current : engine.candidateGenerations[lease.candidateId]? = some lease.candidateGeneration)
    (absent : engine.leases[lease.leaseId]? = none) :
    Accounted (engine.insertLease runtime lease) := by
  have counts : ∀ test, (engine.insertLease runtime lease).leaseCount test =
      engine.leaseCount test + if test lease then 1 else 0 := fun test =>
    BTreeMap.countValues_insert_fresh test absent lease
  refine ⟨fun capacityKey => ?_, fun {id stored} lookup => ?_, ?_⟩
  · rw [counts]
    change (RotationEngine.incrementCapacity engine.capacityInFlight lease.capacityKey)[
      capacityKey]? = _
    rw [RotationEngine.incrementCapacity_lookup]
    have room := leaseCount_lt registered fun other => other.capacityKey = lease.capacityKey
    by_cases same : capacityKey = lease.capacityKey
    · subst same
      rw [if_pos rfl, accounted.capacity]
      unfold positiveEntry
      split
      next zero => simp [zero]
      next positive => simp [saturatingAdd_eq room]
    · rw [if_neg same, accounted.capacity]
      simp [Ne.symm same]
  · rw [counts]
    change (engine.candidates.insert lease.candidateId _)[id]? = some stored at lookup
    change _ = engine.leaseCount (engine.holdsCandidate id) +
      if engine.holdsCandidate id lease then 1 else 0
    rw [BTreeMap.lookup_insert] at lookup
    split at lookup
    next same =>
      subst same
      cases lookup
      have room := leaseCount_lt registered (engine.holdsCandidate lease.candidateId)
      simp [RotationEngine.holdsCandidate, current, accounted.inFlight found] at room ⊢
      exact saturatingAdd_eq room
    next different =>
      rw [accounted.inFlight lookup]
      simp [RotationEngine.holdsCandidate, Ne.symm different]
  · rw [counts]
    change (if lease.recovery then _ else _) = _
    rw [accounted.recovery]
    have room := leaseCount_lt registered (·.recovery)
    cases recovers : lease.recovery with
    | false => simp
    | true => simp [saturatingAdd_eq room]

/-- A dropped lease gives back one of each permit it holds. -/
theorem dropLease (accounted : Accounted engine) {leaseId : LeaseId} {lease : LeaseRuntime}
    (found : engine.leases[leaseId]? = some lease) :
    Accounted (engine.dropLease leaseId lease) := by
  have counts : ∀ test, (engine.dropLease leaseId lease).leaseCount test +
      (if test lease then 1 else 0) = engine.leaseCount test := fun test =>
    BTreeMap.countValues_erase test found
  refine ⟨fun capacityKey => ?_, fun {id stored} lookup => ?_, ?_⟩
  · have count := counts fun other => other.capacityKey = capacityKey
    change (RotationEngine.decrementCapacity engine.capacityInFlight lease.capacityKey)[
      capacityKey]? = _
    rw [RotationEngine.decrementCapacity_lookup]
    by_cases same : capacityKey = lease.capacityKey
    · subst same
      simp only [decide_true, ↓reduceIte] at count
      rw [if_pos rfl, accounted.capacity, ← count]
      simp [positiveEntry]
    · simp only [Ne.symm same, decide_false, Bool.false_eq_true, ↓reduceIte] at count
      rw [if_neg same, accounted.capacity, ← count]
      rfl
  · have count := counts (engine.holdsCandidate id)
    change stored.inFlight = (engine.dropLease leaseId lease).leaseCount (engine.holdsCandidate id)
    have taken : engine.holdsCandidate id lease = true ↔ id = lease.candidateId ∧
        engine.candidateGenerations[lease.candidateId]? = some lease.candidateGeneration := by
      simp only [RotationEngine.holdsCandidate, Bool.and_eq_true, decide_eq_true_eq]
      constructor
      · rintro ⟨rfl, current⟩
        exact ⟨rfl, current⟩
      · rintro ⟨rfl, current⟩
        exact ⟨rfl, current⟩
    change (if engine.candidateGenerations[lease.candidateId]? = some lease.candidateGeneration then
      engine.candidates.modify lease.candidateId _ else engine.candidates)[id]? = some stored
      at lookup
    split at lookup
    next current =>
      rw [BTreeMap.lookup_modify] at lookup
      split at lookup
      next same =>
        obtain ⟨earlier, before, rfl⟩ := Option.map_eq_some_iff.mp lookup
        rw [if_pos (taken.mpr ⟨same, current⟩)] at count
        have held := accounted.inFlight before
        dsimp only
        omega
      next different =>
        rw [if_neg fun holds => different (taken.mp holds).1] at count
        rw [accounted.inFlight lookup]
        omega
    next stale =>
      rw [if_neg fun holds => stale (taken.mp holds).2] at count
      rw [accounted.inFlight lookup]
      omega
  · have count := counts (·.recovery)
    change (if lease.recovery then engine.recoveryInFlight - 1 else engine.recoveryInFlight) = _
    rw [accounted.recovery]
    cases recovers : lease.recovery <;> simp only [recovers, Bool.false_eq_true, ↓reduceIte] at count ⊢ <;> omega

/-- Recording a dispatch moves no permit. -/
theorem recordDispatch (accounted : Accounted engine) {leaseId : LeaseId} {pending : LeaseRuntime}
    (found : engine.leases[leaseId]? = some pending) (attemptId : AttemptId) :
    Accounted (engine.recordDispatch leaseId pending attemptId) := by
  have counts : ∀ test : LeaseRuntime → Bool,
      test { pending with recoveryCreditRequired := false, attemptId := some attemptId } =
        test pending →
      (engine.recordDispatch leaseId pending attemptId).leaseCount test =
        engine.leaseCount test := by
    intro test same
    unfold RotationEngine.leaseCount RotationEngine.recordDispatch
    rw [BTreeMap.modify_eq_insert found]
    exact BTreeMap.countValues_replace test found same
  refine ⟨fun capacityKey => ?_, fun {id stored} lookup => ?_, ?_⟩
  · rw [counts _ rfl]
    exact accounted.capacity capacityKey
  · rw [counts _ rfl]
    exact accounted.inFlight lookup
  · rw [counts _ rfl]
    exact accounted.recovery

end Accounted

/-- The counters stay counts under every operation. -/
theorem Transition.accounted {engine after : RotationEngine} {event : EngineEvent}
    (transition : Transition engine event after)
    (registered : Registered engine) (accounted : Accounted engine) : Accounted after := by
  cases transition with
  | configure | recoveryPolicy => exact { accounted with }
  | edit candidateId edit quotaRevisions keeps =>
      have edited := accounted.withCandidates
        (engine.candidates.modify candidateId fun runtime =>
          { runtime with candidate := edit runtime.candidate }) fun {id runtime} lookup => by
          rw [BTreeMap.lookup_modify] at lookup
          split at lookup
          next =>
            obtain ⟨earlier, stored, rfl⟩ := Option.map_eq_some_iff.mp lookup
            exact ⟨earlier, stored, rfl⟩
          next => exact ⟨runtime, lookup, rfl⟩
      exact { edited with }
  | install candidate valid absent room =>
      refine .derived (RotationEngine.recomputeCapacityLimit_same _ _) ?_
      refine { accounted with inFlight := fun {id runtime} lookup => ?_ }
      change (engine.candidates.insert candidate.id ⟨candidate, 0⟩)[id]? = some runtime at lookup
      change runtime.inFlight = engine.leaseCount
        ((engine.installCandidate candidate).holdsCandidate id)
      rw [BTreeMap.lookup_insert] at lookup
      split at lookup
      next same =>
        -- No live lease has the new generation: all of theirs are older.
        cases lookup
        refine (BTreeMap.countValues_eq_zero _ fun leaseId lease found => ?_).symm
        have older := registered.lease_generation_le found
        simp only [RotationEngine.holdsCandidate, RotationEngine.installCandidate, same,
          BTreeMap.lookup_insert, ↓reduceIte, Option.some.injEq, Bool.and_eq_false_imp,
          decide_eq_true_eq, decide_eq_false_iff_not]
        omega
      next different =>
        rw [accounted.inFlight lookup]
        unfold RotationEngine.holdsCandidate RotationEngine.installCandidate
        simp only [BTreeMap.lookup_insert, if_neg different]
  | replace candidate runtime valid found =>
      refine .derived (RotationEngine.recomputeDerived_same _ _ _) ?_
      have replaced := accounted.withCandidates (engine.candidates.insert candidate.id
        { runtime with
          candidate := RotationEngine.keepObservations runtime.candidate candidate })
        fun {id stored} lookup => by
          rw [BTreeMap.lookup_insert] at lookup
          split at lookup
          next same =>
            cases lookup
            exact ⟨runtime, same ▸ found, rfl⟩
          next => exact ⟨stored, lookup, rfl⟩
      exact { replaced with }
  | remove candidateId runtime found =>
      refine .derived (RotationEngine.eraseCandidate_same _ _ _) ?_
      refine { accounted with inFlight := fun {id stored} lookup => ?_ }
      change (engine.candidates.erase candidateId)[id]? = some stored at lookup
      change stored.inFlight = engine.leaseCount
        ((engine.eraseCandidate candidateId).holdsCandidate id)
      rw [BTreeMap.lookup_erase] at lookup
      split at lookup
      next => cases lookup
      next different =>
        rw [accounted.inFlight lookup]
        unfold RotationEngine.holdsCandidate RotationEngine.eraseCandidate
        simp only [BTreeMap.lookup_erase, if_neg different]
  | @reserve request nowMs group selected runtime admission =>
      have current := RotationEngine.newLease_generation registered request
        admission.found (engine.selectionCandidates request nowMs).2
      have absent : engine.leases[(engine.newLease request selected runtime
          (engine.selectionCandidates request nowMs).2).leaseId]? = none := registered.fresh
      have inserted := accounted.insertLease registered admission.found current absent
      obtain ⟨rotationCredit, roundRobinCursor, same⟩ :=
        engine.takeLease_same request group selected runtime
          (engine.selectionCandidates request nowMs).2
      rw [same]
      exact { inserted with }
  | dispatch leaseId pending budget allowRetainedLease attemptId found allowed =>
      exact accounted.recordDispatch found attemptId
  | release leaseId lease found unstarted => exact accounted.dropLease found
  | settle leaseId settlement found dispatched =>
      have dropped := accounted.dropLease found
      obtain ⟨circuits, healthRecords, recoveryCredits, successes, same⟩ :=
        engine.settleLease_same leaseId settlement.lease settlement.health settlement.nowMs
          settlement.firstOutputLatencyMs
      rw [same]
      exact { dropped with }

theorem RotationEngine.Reachable.accounted {engine : RotationEngine}
    (reachable : engine.Reachable) : Registered engine ∧ Accounted engine :=
  Execution.Reachable.invariant (fun engine => Registered engine ∧ Accounted engine) reachable
    ⟨Registered.default, Accounted.default⟩ fun engine operation ⟨registered, accounted⟩ =>
      ⟨(engine.apply_transition operation).registered registered,
        (engine.apply_transition operation).accounted registered accounted⟩

/-- `before` holds exactly the permits of `lease` more than `after`. The permit on
the candidate exists as long as its registration does. -/
structure ReturnsPermits (before after : RotationEngine) (lease : LeaseRuntime) : Prop where
  capacity : ∀ capacityKey : String, before.capacityInFlightOf capacityKey =
    after.capacityInFlightOf capacityKey + if lease.capacityKey = capacityKey then 1 else 0
  inFlight : ∀ candidateId : String, before.inFlight candidateId =
    after.inFlight candidateId + if before.holdsCandidate candidateId lease then 1 else 0
  recovery : before.recoveryInFlight = after.recoveryInFlight + if lease.recovery then 1 else 0

theorem ReturnsPermits.congr {before after : RotationEngine} {earlier later : LeaseRuntime}
    (same : SameReservation earlier later) (returns : ReturnsPermits before after later) :
    ReturnsPermits before after earlier := by
  have held : ∀ candidateId, before.holdsCandidate candidateId earlier =
      before.holdsCandidate candidateId later := fun candidateId => by
    rw [RotationEngine.holdsCandidate, RotationEngine.holdsCandidate, same.candidateId,
      same.candidateGeneration]
  exact {
    capacity := fun capacityKey => by
      rw [← same.capacityKey]
      exact returns.capacity capacityKey
    inFlight := fun candidateId => by
      rw [held]
      exact returns.inFlight candidateId
    recovery := by
      rw [← same.recovery]
      exact returns.recovery }

namespace Accounted

variable {engine after : RotationEngine}

theorem capacityInFlightOf_eq (accounted : Accounted engine) (capacityKey : String) :
    engine.capacityInFlightOf capacityKey =
      engine.leaseCount fun lease => lease.capacityKey = capacityKey := by
  rw [RotationEngine.capacityInFlightOf, accounted.capacity, positiveEntry_getD]

/-- A candidate that is not registered has no permits out. -/
theorem inFlight_eq (accounted : Accounted engine) (registered : Registered engine)
    (candidateId : String) :
    engine.inFlight candidateId = engine.leaseCount (engine.holdsCandidate candidateId) := by
  unfold RotationEngine.inFlight
  cases found : engine.candidates[candidateId]? with
  | some runtime => exact accounted.inFlight found
  | none =>
      refine (BTreeMap.countValues_eq_zero _ fun leaseId lease _ => ?_).symm
      cases stored : engine.candidateGenerations[candidateId]? with
      | none => simp [RotationEngine.holdsCandidate, stored]
      | some generation =>
          obtain ⟨runtime, present⟩ := registered.member stored
          rw [found] at present
          cases present

/-- Engines whose registries differ in one lease differ in its permits. -/
theorem returnsPermits {before after : RotationEngine} {lease : LeaseRuntime}
    (accountedBefore : Accounted before) (registeredBefore : Registered before)
    (accountedAfter : Accounted after) (registeredAfter : Registered after)
    (generations : after.candidateGenerations = before.candidateGenerations)
    (counts : ∀ test, before.leaseCount test = after.leaseCount test + if test lease then 1 else 0) :
    ReturnsPermits before after lease where
  capacity capacityKey := by
    rw [accountedBefore.capacityInFlightOf_eq, accountedAfter.capacityInFlightOf_eq, counts]
    simp
  inFlight candidateId := by
    have held : after.holdsCandidate candidateId = before.holdsCandidate candidateId := by
      unfold RotationEngine.holdsCandidate
      rw [generations]
    rw [accountedBefore.inFlight_eq registeredBefore, accountedAfter.inFlight_eq registeredAfter,
      counts, held]
  recovery := by rw [accountedBefore.recovery, accountedAfter.recovery, counts]

end Accounted

namespace RotationEngine

variable {engine : RotationEngine}

/-- A reservation takes exactly the permits of its lease. -/
private theorem reserve_takes_permits (reachable : engine.Reachable) {request : RotationRequest}
    {nowMs : Nat} {reserved : RotationLease}
    (success : (engine.reserve request nowMs).2 = .ok reserved) :
    ∃ lease, (engine.reserve request nowMs).1.leases[reserved.leaseId]? = some lease ∧
      engine.leases[reserved.leaseId]? = none ∧
      ReturnsPermits (engine.reserve request nowMs).1 engine lease := by
  obtain ⟨registered, accounted⟩ := reachable.accounted
  obtain ⟨registeredAfter, accountedAfter⟩ :=
    (reachable.next (.reserve request nowMs)).accounted
  rcases engine.reserve_cases request nowMs with
    ⟨error, refused⟩ | ⟨group, selected, runtime, admission, outcome⟩
  · rw [refused] at success
    cases success
  · change Registered (engine.reserve request nowMs).1 at registeredAfter
    change Accounted (engine.reserve request nowMs).1 at accountedAfter
    rw [outcome] at success registeredAfter accountedAfter ⊢
    cases success
    obtain ⟨rotationCredit, roundRobinCursor, same⟩ :=
      engine.takeLease_same request group selected runtime
        (engine.selectionCandidates request nowMs).2
    rw [same] at registeredAfter accountedAfter ⊢
    refine ⟨_, ?_, registered.fresh, accountedAfter.returnsPermits registeredAfter accounted
      registered rfl fun test => BTreeMap.countValues_insert_fresh test registered.fresh _⟩
    change (engine.leases.insert _ _)[engine.nextLeaseId + 1]? = _
    rw [BTreeMap.lookup_insert]
    exact if_pos rfl

/-- The operation that ends a lease gives back exactly its permits. -/
private theorem end_returns_permits (reachable : engine.Reachable) {leaseId : LeaseId}
    {lease : LeaseRuntime} (found : engine.leases[leaseId]? = some lease)
    (operation : EngineOperation) (ended : (engine.apply operation).leases[leaseId]? = none) :
    ReturnsPermits engine (engine.apply operation) lease := by
  obtain ⟨registered, accounted⟩ := reachable.accounted
  obtain ⟨registeredAfter, accountedAfter⟩ :=
    (reachable.next operation).accounted
  obtain ⟨leases, generations⟩ := (engine.apply_leaseChange operation).ended found ended
  refine accounted.returnsPermits registered accountedAfter registeredAfter generations
    fun test => ?_
  unfold leaseCount
  rw [leases, BTreeMap.countValues_erase test found]

/-- In every reachable state the counters are the counts of live leases, lease ids
are distinct and already drawn, a reservation takes exactly its lease's permits,
and whatever ends the lease gives exactly these back, once. -/
theorem permit_accounting (reachable : engine.Reachable) :
    (∀ capacityKey : String,
      engine.capacityInFlightOf capacityKey =
          engine.leaseCount (fun lease => lease.capacityKey = capacityKey) ∧
        engine.capacityInFlight[capacityKey]? ≠ some 0) ∧
    (∀ candidateId : String, engine.inFlight candidateId = engine.leaseCount fun lease =>
      lease.candidateId = candidateId &&
        engine.candidateGenerations[candidateId]? = some lease.candidateGeneration) ∧
    engine.recoveryInFlight = engine.leaseCount (·.recovery) ∧
    (engine.leases.values.map (·.leaseId)).Nodup ∧
    (∀ lease ∈ engine.leases.values, lease.leaseId ≤ engine.nextLeaseId) ∧
    (∀ (request : RotationRequest) (nowMs : Nat) (reserved : RotationLease),
      (engine.reserve request nowMs).2 = .ok reserved →
        ∃ lease, (engine.reserve request nowMs).1.leases[reserved.leaseId]? = some lease ∧
          engine.leases[reserved.leaseId]? = none ∧
          ReturnsPermits (engine.reserve request nowMs).1 engine lease) ∧
    ∀ (leaseId : LeaseId) (lease : LeaseRuntime), engine.leases[leaseId]? = some lease →
      ∀ (operations : List EngineOperation) (operation : EngineOperation),
        ((engine.runOperations operations).leases[leaseId]?).isSome →
        ((engine.runOperations operations).apply operation).leases[leaseId]? = none →
          ReturnsPermits (engine.runOperations operations)
              ((engine.runOperations operations).apply operation) lease ∧
            ∀ later, (((engine.runOperations operations).apply operation).runOperations
              later).leases[leaseId]? = none := by
  obtain ⟨registered, accounted⟩ := reachable.accounted
  refine ⟨fun capacityKey => ⟨accounted.capacityInFlightOf_eq capacityKey, ?_⟩,
    fun candidateId => accounted.inFlight_eq registered candidateId, accounted.recovery, ?_, ?_,
    fun request nowMs reserved success => reserve_takes_permits reachable success, ?_⟩
  · rw [accounted.capacity]
    exact positiveEntry_ne_zero _
  · have ids : engine.leases.values.map (·.leaseId) = engine.leases.toList.map Prod.fst := by
      rw [BTreeMap.values, List.map_map]
      apply List.map_congr_left
      rintro ⟨leaseId, lease⟩ member
      exact registered.lease_id (BTreeMap.mem_toList_iff.mp member)
    rw [ids]
    exact BTreeMap.keys_nodup engine.leases
  · intro lease member
    obtain ⟨leaseId, found⟩ := BTreeMap.mem_values_iff.mp member
    rw [registered.lease_id found]
    exact registered.lease_id_le found
  · intro leaseId lease found operations operation live ended
    obtain ⟨current, stored⟩ := Option.isSome_iff_exists.mp live
    have used := registered.lease_id_le found
    have reachableBefore := reachable.run operations
    have usedBefore := reachableBefore.registered.lease_id_le stored
    have usedAfter := usedBefore.trans
      (apply_leaseChange (engine.runOperations operations) operation).nextLeaseId_le
    exact ⟨(end_returns_permits reachableBefore stored operation ended).congr
        (lease_kept used found operations stored),
      fun later => lease_never_returns usedAfter ended later⟩

/-- The lease of a removed member is no permit of the member installed again. -/
theorem permit_accounting_readded_member :
    let engine := RotationEngine.default.runOperations [.upsert (.create "a" "r" "m"),
      .reserve (.create 1 "r" "m") 0, .remove "a", .upsert (.create "a" "r" "m")]
    engine.activeLeases = 1 ∧ engine.capacityInFlightOf "a" = 1 ∧ engine.inFlight "a" = 0 ∧
      engine.recoveryInFlight = engine.leaseCount (·.recovery) :=
  ⟨rfl, ((permit_accounting ⟨_, rfl⟩).1 "a").1, (permit_accounting ⟨_, rfl⟩).2.1 "a",
    (permit_accounting ⟨_, rfl⟩).2.2.1⟩

end RotationEngine

end ZenithRelay.Scheduler.Rotation
