import ZenithRelay.Scheduler.Rotation.Engine.Operation

/-!
# Identities of members and leases

Generations are never reused and lease ids are never reused, so a lease names at
most one registration of its candidate, and no later lease has its id.
-/

set_option autoImplicit false

namespace ZenithRelay.Scheduler.Rotation

/-- The registry knows every member by its id and by a generation, and every
lease by its id; nothing it holds is newer than its counters. -/
structure Registered (engine : RotationEngine) : Prop where
  keyed : ∀ {id : String} {runtime : CandidateRuntime}, engine.candidates[id]? = some runtime → runtime.candidate.id = id
  generation : ∀ {id : String} {runtime : CandidateRuntime}, engine.candidates[id]? = some runtime →
    ∃ generation, engine.candidateGenerations[id]? = some generation
  member : ∀ {id : String} {generation : Nat}, engine.candidateGenerations[id]? = some generation →
    ∃ runtime, engine.candidates[id]? = some runtime
  generation_le : ∀ {id : String} {generation : Nat},
    engine.candidateGenerations[id]? = some generation →
      generation ≤ engine.nextCandidateGeneration
  lease_generation_le : ∀ {leaseId : LeaseId} {lease : LeaseRuntime}, engine.leases[leaseId]? = some lease →
    lease.candidateGeneration ≤ engine.nextCandidateGeneration
  lease_id : ∀ {leaseId : LeaseId} {lease : LeaseRuntime}, engine.leases[leaseId]? = some lease → lease.leaseId = leaseId
  lease_id_le : ∀ {leaseId : LeaseId} {lease : LeaseRuntime}, engine.leases[leaseId]? = some lease →
    leaseId ≤ engine.nextLeaseId
  next_le : engine.nextLeaseId ≤ u64Max
  size_le : engine.leases.size ≤ 65536
  limit : 1 ≤ engine.maxInFlight ∧ engine.maxInFlight ≤ 65536

namespace Registered

variable {engine : RotationEngine}

theorem default : Registered .default where
  keyed found := by simp [RotationEngine.default] at found
  generation found := by simp [RotationEngine.default] at found
  member found := by simp [RotationEngine.default] at found
  generation_le found := by simp [RotationEngine.default] at found
  lease_generation_le found := by simp [RotationEngine.default] at found
  lease_id found := by simp [RotationEngine.default] at found
  lease_id_le found := by simp [RotationEngine.default] at found
  next_le := by decide
  size_le := by decide
  limit := by decide

/-- The id of the next lease is not in use. -/
theorem fresh (registered : Registered engine) : engine.leases[engine.nextLeaseId + 1]? = none := by
  cases found : engine.leases[engine.nextLeaseId + 1]? with
  | none => rfl
  | some lease =>
      exact absurd (registered.lease_id_le found) (Nat.not_succ_le_self _)

/-- What is derived from the members carries no identity. -/
theorem derived {after : RotationEngine} (same : engine.SameUpToDerived after)
    (registered : Registered engine) : Registered after := by
  rw [same]
  exact { registered with }

/-- Records may change as long as their identity does not. -/
theorem withCandidates (registered : Registered engine)
    (candidates : BTreeMap String CandidateRuntime)
    (keyed : ∀ {id : String} {runtime : CandidateRuntime}, candidates[id]? = some runtime →
      runtime.candidate.id = id)
    (domain : ∀ id : String, candidates[id]?.isSome = engine.candidates[id]?.isSome) :
    Registered { engine with candidates } := by
  refine { registered with
    keyed, generation := fun {id runtime} found => ?_, member := fun {id generation} found => ?_ }
  · have stored := domain id
    rw [found, Option.isSome_some] at stored
    obtain ⟨earlier, stored⟩ := Option.isSome_iff_exists.mp stored.symm
    exact registered.generation stored
  · obtain ⟨earlier, stored⟩ := registered.member found
    apply Option.isSome_iff_exists.mp
    rw [domain id, stored]
    rfl

/-- A change of one stored record that keeps its id. -/
theorem modifyCandidate (registered : Registered engine) (candidateId : String)
    (update : CandidateRuntime → CandidateRuntime)
    (keeps : ∀ runtime, (update runtime).candidate.id = runtime.candidate.id) :
    Registered { engine with candidates := engine.candidates.modify candidateId update } := by
  refine registered.withCandidates _ (fun {id runtime} found => ?_) fun id => ?_
  · rw [BTreeMap.lookup_modify] at found
    split at found
    next =>
      obtain ⟨earlier, stored, rfl⟩ := Option.map_eq_some_iff.mp found
      rw [keeps, registered.keyed stored]
    next => exact registered.keyed found
  · rw [BTreeMap.lookup_modify]
    split <;> simp

/-- A stored record is replaced by one with its id. -/
theorem replaceCandidate (registered : Registered engine) {candidateId : String}
    {runtime : CandidateRuntime} (found : engine.candidates[candidateId]? = some runtime)
    (replacement : CandidateRuntime) (same : replacement.candidate.id = candidateId) :
    Registered { engine with candidates := engine.candidates.insert candidateId replacement } := by
  refine registered.withCandidates _ (fun {id stored} lookup => ?_) fun id => ?_
  · rw [BTreeMap.lookup_insert] at lookup
    split at lookup
    next equal =>
      obtain rfl := Option.some.inj lookup
      rw [same, equal]
    next => exact registered.keyed lookup
  · rw [BTreeMap.lookup_insert]
    split
    next equal => rw [equal, found]; rfl
    next => rfl

/-- Leases may change as long as no id changes and none is added. -/
theorem withLeases (registered : Registered engine) (leases : BTreeMap LeaseId LeaseRuntime)
    (known : ∀ {leaseId : LeaseId} {lease : LeaseRuntime}, leases[leaseId]? = some lease →
      ∃ earlier, engine.leases[leaseId]? = some earlier ∧ lease.leaseId = earlier.leaseId ∧
        lease.candidateGeneration = earlier.candidateGeneration)
    (size : leases.size ≤ engine.leases.size) : Registered { engine with leases } := by
  refine { registered with
    lease_generation_le := fun {leaseId lease} found => ?_
    lease_id := fun {leaseId lease} found => ?_
    lease_id_le := fun {leaseId lease} found => ?_
    size_le := size.trans registered.size_le }
  · obtain ⟨earlier, stored, -, generation⟩ := known found
    rw [generation]
    exact registered.lease_generation_le stored
  · obtain ⟨earlier, stored, id, -⟩ := known found
    rw [id]
    exact registered.lease_id stored
  · obtain ⟨earlier, stored, -, -⟩ := known found
    exact registered.lease_id_le stored

/-- A lease that leaves and gives its permits back takes no identity with it. -/
theorem dropLease (registered : Registered engine) {leaseId : LeaseId} {lease : LeaseRuntime}
    (found : engine.leases[leaseId]? = some lease) :
    Registered (engine.dropLease leaseId lease) := by
  have erased := registered.withLeases (engine.leases.erase leaseId)
    (fun {other stored} lookup => by
      rw [BTreeMap.lookup_erase] at lookup
      split at lookup
      next => cases lookup
      next => exact ⟨stored, lookup, rfl, rfl⟩)
    (by have size := BTreeMap.size_erase_found found; omega)
  have released := erased.modifyCandidate lease.candidateId
    (fun runtime => { runtime with inFlight := runtime.inFlight - 1 }) fun runtime => rfl
  unfold RotationEngine.dropLease RotationEngine.releaseCapacity
  dsimp only
  split
  · exact { released with }
  · exact { erased with }

/-- A stored lease keeps its identity when its dispatch is recorded. -/
theorem recordDispatch (registered : Registered engine) (leaseId : LeaseId)
    (pending : LeaseRuntime) (attemptId : AttemptId) :
    Registered (engine.recordDispatch leaseId pending attemptId) := by
  have recorded := registered.withLeases (engine.leases.modify leaseId fun lease =>
      { lease with recoveryCreditRequired := false, attemptId := some attemptId })
    (fun {other stored} lookup => by
      rw [BTreeMap.lookup_modify] at lookup
      split at lookup
      next =>
        obtain ⟨earlier, found, rfl⟩ := Option.map_eq_some_iff.mp lookup
        exact ⟨earlier, found, rfl, rfl⟩
      next => exact ⟨stored, lookup, rfl, rfl⟩)
    (Nat.le_of_eq (by rw [Std.ExtTreeMap.size_modify]))
  exact { recorded with }

/-- A new lease takes the next id. -/
theorem insertLease (registered : Registered engine) {runtime : CandidateRuntime}
    {lease : LeaseRuntime} (found : engine.candidates[lease.candidateId]? = some runtime)
    (id : lease.leaseId = engine.nextLeaseId + 1) (idRoom : engine.nextLeaseId < u64Max)
    (generation : lease.candidateGeneration ≤ engine.nextCandidateGeneration)
    (leaseRoom : engine.leases.size < engine.maxInFlight) :
    Registered (engine.insertLease runtime lease) := by
  have keyed : runtime.candidate.id = lease.candidateId := registered.keyed found
  have replaced := registered.replaceCandidate found
    { runtime with inFlight := saturatingAdd u32Max runtime.inFlight 1 } keyed
  have absent : engine.leases[lease.leaseId]? = none := by
    rw [id]
    exact registered.fresh
  refine { replaced with
    lease_generation_le := fun {leaseId stored} lookup => ?_
    lease_id := fun {leaseId stored} lookup => ?_
    lease_id_le := fun {leaseId stored} lookup => ?_
    next_le := ?_
    size_le := ?_ }
  all_goals simp only [RotationEngine.insertLease] at *
  · rw [BTreeMap.lookup_insert] at lookup
    split at lookup
    next => cases lookup; exact generation
    next => exact registered.lease_generation_le lookup
  · rw [BTreeMap.lookup_insert] at lookup
    split at lookup
    next same => cases lookup; exact same.symm
    next => exact registered.lease_id lookup
  · rw [BTreeMap.lookup_insert] at lookup
    split at lookup
    next same => exact Nat.le_of_eq same
    next =>
      rw [id]
      exact (registered.lease_id_le lookup).trans (Nat.le_succ _)
  · rw [id]
    exact idRoom
  · rw [BTreeMap.size_insert_fresh absent]
    have limit := registered.limit
    omega

end Registered

namespace RotationEngine

variable {engine : RotationEngine}

/-- The reserved lease carries the current generation of its member. -/
theorem newLease_generation (registered : Registered engine) (request : RotationRequest)
    {selected : ReadyCandidate} {runtime : CandidateRuntime}
    (found : engine.candidates[selected.id]? = some runtime) (ordinaryAlternatives : Bool) :
    engine.candidateGenerations[selected.id]? =
      some (engine.newLease request selected runtime ordinaryAlternatives).candidateGeneration := by
  obtain ⟨generation, stored⟩ := registered.generation found
  simp [newLease, stored]

end RotationEngine

theorem Admission.isReady {engine : RotationEngine} {request : RotationRequest} {nowMs : Nat}
    {group : List ReadyCandidate} {selected : ReadyCandidate} {runtime : CandidateRuntime}
    (admission : Admission engine request nowMs group selected runtime) :
    ∃ recovery, RotationEngine.IsReady engine request runtime nowMs recovery := by
  obtain ⟨recovery, ready⟩ := admission.available
  obtain ⟨stored, found, isReady⟩ := RotationEngine.candidateAvailability_ready ready
  rw [admission.found] at found
  cases found
  exact ⟨recovery, isReady⟩

/-- Identities survive every operation. -/
theorem Transition.registered {engine after : RotationEngine} {event : EngineEvent}
    (transition : Transition engine event after) (registered : Registered engine) :
    Registered after := by
  cases transition with
  | configure mode maxInFlight staleAfterMs rotationCredit bounded =>
      refine { registered with limit := ?_ }
      rcases bounded with same | bounded
      · rw [same]
        exact registered.limit
      · exact bounded
  | recoveryPolicy policy => exact { registered with }
  | edit candidateId edit quotaRevisions keeps =>
      have edited := registered.modifyCandidate candidateId
        (fun runtime => { runtime with candidate := edit runtime.candidate })
        fun runtime => (keeps runtime.candidate).id
      exact { edited with }
  | install candidate valid absent room =>
      refine .derived (RotationEngine.recomputeCapacityLimit_same _ _) ?_
      refine { registered with
        keyed := fun {id runtime} lookup => ?_
        generation := fun {id runtime} lookup => ?_
        member := fun {id generation} lookup => ?_
        generation_le := fun {id generation} lookup => ?_
        lease_generation_le := fun {leaseId lease} lookup => ?_ }
      all_goals simp only [RotationEngine.installCandidate, BTreeMap.lookup_insert] at *
      · split at lookup
        next same => cases lookup; exact same.symm
        next => exact registered.keyed lookup
      · split at lookup
        next same => simp [same]
        next different =>
          rw [if_neg different]
          exact registered.generation lookup
      · split at lookup
        next same => simp [same]
        next different =>
          rw [if_neg different]
          exact registered.member lookup
      · split at lookup
        next => cases lookup; exact Nat.le_refl _
        next => exact (registered.generation_le lookup).trans (Nat.le_succ _)
      · exact (registered.lease_generation_le lookup).trans (Nat.le_succ _)
  | replace candidate runtime valid found =>
      have replaced := registered.replaceCandidate found
        { runtime with candidate := RotationEngine.keepObservations runtime.candidate candidate } rfl
      exact .derived (RotationEngine.recomputeDerived_same _ _ _) { replaced with }
  | remove candidateId runtime found =>
      refine .derived (RotationEngine.eraseCandidate_same _ _ _) ?_
      refine { registered with
        keyed := fun {id runtime} lookup => ?_
        generation := fun {id runtime} lookup => ?_
        member := fun {id generation} lookup => ?_
        generation_le := fun {id generation} lookup => ?_ }
      all_goals
        simp only [RotationEngine.eraseCandidate, BTreeMap.lookup_erase] at *
        split at lookup
        · cases lookup
      · exact registered.keyed lookup
      · rw [if_neg ‹_›]
        exact registered.generation lookup
      · rw [if_neg ‹_›]
        exact registered.member lookup
      · exact registered.generation_le lookup
  | @reserve request nowMs group selected runtime admission =>
      have current := RotationEngine.newLease_generation registered request
        admission.found (engine.selectionCandidates request nowMs).2
      obtain ⟨recovery, ready⟩ := admission.isReady
      have inserted := registered.insertLease admission.found rfl admission.leaseRoom
        (registered.generation_le current) ready.leaseRoom
      obtain ⟨rotationCredit, roundRobinCursor, same⟩ :=
        engine.takeLease_same request group selected runtime
          (engine.selectionCandidates request nowMs).2
      rw [same]
      exact { inserted with }
  | dispatch leaseId pending budget allowRetainedLease attemptId found allowed =>
      exact registered.recordDispatch leaseId pending attemptId
  | release leaseId lease found unstarted => exact registered.dropLease found
  | settle leaseId settlement found dispatched =>
      have dropped := registered.dropLease found
      obtain ⟨circuits, healthRecords, recoveryCredits, successes, same⟩ :=
        engine.settleLease_same leaseId settlement.lease settlement.health settlement.nowMs
          settlement.firstOutputLatencyMs
      rw [same]
      exact { dropped with }

theorem RotationEngine.Reachable.registered {engine : RotationEngine}
    (reachable : engine.Reachable) : Registered engine :=
  Execution.Reachable.invariant Registered reachable Registered.default fun engine operation =>
    (engine.apply_transition operation).registered

/-- The lease an event ends. -/
def EngineEvent.ended : EngineEvent → Option LeaseRuntime
  | .released lease => some lease
  | .settled settlement => some settlement.lease
  | .quiet | .recoveryPolicySet _ | .reserved _ | .dispatched _ _ => none

/-- What one operation does to the lease registry, under the event that shows it. -/
inductive LeaseChange (engine : RotationEngine) : EngineEvent → RotationEngine → Prop where
  | same {event : EngineEvent} {after : RotationEngine} :
      event = .quiet ∨ (∃ policy, event = .recoveryPolicySet policy) →
      after.leases = engine.leases → after.nextLeaseId = engine.nextLeaseId →
      LeaseChange engine event after
  | insert {after : RotationEngine} (lease : LeaseRuntime) :
      lease.leaseId = engine.nextLeaseId + 1 → lease.attemptId = none →
      after.leases = engine.leases.insert lease.leaseId lease →
      after.nextLeaseId = lease.leaseId →
      after.candidateGenerations = engine.candidateGenerations →
      LeaseChange engine (.reserved lease) after
  | record {after : RotationEngine} (leaseId : LeaseId) (pending : LeaseRuntime)
      (attemptId : AttemptId) :
      engine.leases[leaseId]? = some pending →
      after.leases = engine.leases.insert leaseId
        { pending with recoveryCreditRequired := false, attemptId := some attemptId } →
      after.nextLeaseId = engine.nextLeaseId →
      after.candidateGenerations = engine.candidateGenerations →
      LeaseChange engine (.dispatched pending attemptId) after
  | erase {event : EngineEvent} {after : RotationEngine} (leaseId : LeaseId)
      (lease : LeaseRuntime) : event.ended = some lease →
      engine.leases[leaseId]? = some lease → after.leases = engine.leases.erase leaseId →
      after.nextLeaseId = engine.nextLeaseId →
      after.candidateGenerations = engine.candidateGenerations → LeaseChange engine event after

theorem Transition.leaseChange {engine after : RotationEngine} {event : EngineEvent}
    (transition : Transition engine event after) : LeaseChange engine event after := by
  cases transition with
  | configure => exact .same (.inl rfl) rfl rfl
  | recoveryPolicy policy => exact .same (.inr ⟨policy, rfl⟩) rfl rfl
  | edit => exact .same (.inl rfl) rfl rfl
  | install candidate valid absent room =>
      rw [RotationEngine.recomputeCapacityLimit_same (engine.installCandidate candidate)
        candidate.capacityKey]
      exact .same (.inl rfl) rfl rfl
  | replace candidate runtime valid found =>
      rw [RotationEngine.recomputeDerived_same (engine.replaceCandidate runtime candidate)
        runtime.candidate candidate]
      exact .same (.inl rfl) rfl rfl
  | remove candidateId runtime found =>
      rw [RotationEngine.eraseCandidate_same engine candidateId runtime.candidate.capacityKey]
      exact .same (.inl rfl) rfl rfl
  | @reserve request nowMs group selected runtime admission =>
      obtain ⟨rotationCredit, roundRobinCursor, same⟩ :=
        engine.takeLease_same request group selected runtime
          (engine.selectionCandidates request nowMs).2
      rw [same]
      exact .insert _ rfl rfl rfl rfl rfl
  | dispatch leaseId pending budget allowRetainedLease attemptId found allowed =>
      refine .record leaseId pending attemptId found ?_ rfl rfl
      exact BTreeMap.modify_eq_insert found _
  | release leaseId lease found unstarted => exact .erase leaseId lease rfl found rfl rfl rfl
  | settle leaseId settlement found dispatched =>
      obtain ⟨circuits, healthRecords, recoveryCredits, successes, same⟩ :=
        engine.settleLease_same leaseId settlement.lease settlement.health settlement.nowMs
          settlement.firstOutputLatencyMs
      rw [same]
      exact .erase leaseId settlement.lease rfl found rfl rfl rfl

/-- The part of a lease that says which permits it holds and what was reserved. -/
structure SameReservation (earlier later : LeaseRuntime) : Prop where
  leaseId : later.leaseId = earlier.leaseId
  candidateId : later.candidateId = earlier.candidateId
  candidateGeneration : later.candidateGeneration = earlier.candidateGeneration
  requestId : later.requestId = earlier.requestId
  routeKey : later.routeKey = earlier.routeKey
  route : later.route = earlier.route
  capacityKey : later.capacityKey = earlier.capacityKey
  recovery : later.recovery = earlier.recovery
  circuitEpoch : later.circuitEpoch = earlier.circuitEpoch
  circuitIncident : later.circuitIncident = earlier.circuitIncident

theorem SameReservation.refl (lease : LeaseRuntime) : SameReservation lease lease :=
  ⟨rfl, rfl, rfl, rfl, rfl, rfl, rfl, rfl, rfl, rfl⟩

theorem SameReservation.trans {first second third : LeaseRuntime}
    (earlier : SameReservation first second) (later : SameReservation second third) :
    SameReservation first third where
  leaseId := later.leaseId.trans earlier.leaseId
  candidateId := later.candidateId.trans earlier.candidateId
  candidateGeneration := later.candidateGeneration.trans earlier.candidateGeneration
  requestId := later.requestId.trans earlier.requestId
  routeKey := later.routeKey.trans earlier.routeKey
  route := later.route.trans earlier.route
  capacityKey := later.capacityKey.trans earlier.capacityKey
  recovery := later.recovery.trans earlier.recovery
  circuitEpoch := later.circuitEpoch.trans earlier.circuitEpoch
  circuitIncident := later.circuitIncident.trans earlier.circuitIncident

namespace LeaseChange

variable {engine after : RotationEngine} {event : EngineEvent}

theorem nextLeaseId_le (change : LeaseChange engine event after) :
    engine.nextLeaseId ≤ after.nextLeaseId := by
  cases change with
  | same _ _ next => exact Nat.le_of_eq next.symm
  | insert lease id _ _ next _ =>
      rw [next, id]
      exact Nat.le_succ _
  | record _ _ _ _ _ next _ => exact Nat.le_of_eq next.symm
  | erase _ _ _ _ _ next _ => exact Nat.le_of_eq next.symm

/-- A used id that is not live stays unused. -/
theorem gone (change : LeaseChange engine event after) {leaseId : LeaseId}
    (used : leaseId ≤ engine.nextLeaseId) (absent : engine.leases[leaseId]? = none) :
    after.leases[leaseId]? = none := by
  cases change with
  | same _ leases _ => rw [leases, absent]
  | insert lease id _ leases _ _ =>
      have different : leaseId ≠ lease.leaseId := by
        rw [id]
        exact fun equal => absurd (equal ▸ used) (Nat.not_succ_le_self _)
      rw [leases, BTreeMap.lookup_insert, if_neg different, absent]
  | record other pending attemptId found leases _ _ =>
      have different : leaseId ≠ other := by
        rintro rfl
        rw [absent] at found
        cases found
      rw [leases, BTreeMap.lookup_insert, if_neg different, absent]
  | erase other lease _ found leases _ _ =>
      rw [leases, BTreeMap.lookup_erase, absent, ite_self]

/-- An event that ends a lease takes one lease away. -/
theorem ended_size (change : LeaseChange engine event after) {lease : LeaseRuntime}
    (ended : event.ended = some lease) : after.leases.size + 1 = engine.leases.size := by
  cases change with
  | same quiet _ _ => rcases quiet with rfl | ⟨policy, rfl⟩ <;> cases ended
  | insert => cases ended
  | record => cases ended
  | erase leaseId lease _ found leases _ _ =>
      rw [leases]
      exact BTreeMap.size_erase_found found

/-- Only an erasure ends a live lease, and it erases nothing else. -/
theorem ended (change : LeaseChange engine event after) {leaseId : LeaseId} {lease : LeaseRuntime}
    (found : engine.leases[leaseId]? = some lease) (absent : after.leases[leaseId]? = none) :
    after.leases = engine.leases.erase leaseId ∧
      after.candidateGenerations = engine.candidateGenerations := by
  cases change with
  | same _ leases _ =>
      rw [leases, found] at absent
      cases absent
  | insert lease id _ leases _ _ =>
      rw [leases, BTreeMap.lookup_insert] at absent
      split at absent
      next => cases absent
      next =>
        rw [found] at absent
        cases absent
  | record other pending attemptId stored leases _ _ =>
      rw [leases, BTreeMap.lookup_insert] at absent
      split at absent
      next => cases absent
      next =>
        rw [found] at absent
        cases absent
  | erase other lease _ stored leases _ generations =>
      rw [leases, BTreeMap.lookup_erase] at absent
      split at absent
      next same => exact ⟨same ▸ leases, generations⟩
      next =>
        rw [found] at absent
        cases absent

/-- A lease that stays live is stored as before, unless the event is its dispatch. -/
theorem same_or_dispatched (change : LeaseChange engine event after) {leaseId : LeaseId}
    {earlier later : LeaseRuntime} (used : leaseId ≤ engine.nextLeaseId)
    (found : engine.leases[leaseId]? = some earlier)
    (lookup : after.leases[leaseId]? = some later) :
    later = earlier ∨ ∃ attemptId, event = .dispatched earlier attemptId ∧
      later = { earlier with recoveryCreditRequired := false, attemptId := some attemptId } := by
  cases change with
  | same _ leases _ =>
      rw [leases, found] at lookup
      cases lookup
      exact .inl rfl
  | insert lease id _ leases _ _ =>
      have different : leaseId ≠ lease.leaseId := by
        rw [id]
        exact fun equal => absurd (equal ▸ used) (Nat.not_succ_le_self _)
      rw [leases, BTreeMap.lookup_insert, if_neg different, found] at lookup
      cases lookup
      exact .inl rfl
  | record other pending attemptId stored leases _ _ =>
      rw [leases, BTreeMap.lookup_insert] at lookup
      split at lookup
      next same =>
        rw [← same, found] at stored
        cases stored
        cases lookup
        exact .inr ⟨attemptId, rfl, rfl⟩
      next =>
        rw [found] at lookup
        cases lookup
        exact .inl rfl
  | erase other lease _ stored leases _ _ =>
      rw [leases, BTreeMap.lookup_erase] at lookup
      split at lookup
      next => cases lookup
      next =>
        rw [found] at lookup
        cases lookup
        exact .inl rfl

/-- A live lease stays the same reservation until it is gone. -/
theorem kept (change : LeaseChange engine event after) {leaseId : LeaseId}
    {earlier later : LeaseRuntime} (used : leaseId ≤ engine.nextLeaseId)
    (found : engine.leases[leaseId]? = some earlier)
    (lookup : after.leases[leaseId]? = some later) : SameReservation earlier later := by
  rcases change.same_or_dispatched used found lookup with rfl | ⟨attemptId, -, rfl⟩
  · exact .refl _
  · exact ⟨rfl, rfl, rfl, rfl, rfl, rfl, rfl, rfl, rfl, rfl⟩

end LeaseChange

namespace RotationEngine

variable {engine : RotationEngine} {leaseId : LeaseId}

theorem apply_leaseChange (engine : RotationEngine) (operation : EngineOperation) :
    LeaseChange engine (engine.event operation) (engine.apply operation) :=
  (engine.apply_transition operation).leaseChange

/-- No run brings a used lease id back. -/
theorem lease_never_returns (used : leaseId ≤ engine.nextLeaseId)
    (absent : engine.leases[leaseId]? = none) (operations : List EngineOperation) :
    (engine.runOperations operations).leases[leaseId]? = none :=
  (Execution.run_invariant
    (fun engine : RotationEngine =>
      leaseId ≤ engine.nextLeaseId ∧ engine.leases[leaseId]? = none)
    (fun engine operation ⟨used, absent⟩ =>
      have change := engine.apply_leaseChange operation
      ⟨used.trans change.nextLeaseId_le, change.gone used absent⟩)
    ⟨used, absent⟩ operations).2

/-- Along every run a live lease stays the reservation it was made as. -/
theorem lease_kept {earlier later : LeaseRuntime} (used : leaseId ≤ engine.nextLeaseId)
    (found : engine.leases[leaseId]? = some earlier) (operations : List EngineOperation)
    (lookup : (engine.runOperations operations).leases[leaseId]? = some later) :
    SameReservation earlier later := by
  induction operations generalizing engine earlier with
  | nil =>
      rw [runOperations_nil, found] at lookup
      cases lookup
      exact .refl _
  | cons operation operations ih =>
      have change := engine.apply_leaseChange operation
      have usedAfter := used.trans change.nextLeaseId_le
      cases next : (engine.apply operation).leases[leaseId]? with
      | none =>
          rw [runOperations_cons, lease_never_returns usedAfter next operations] at lookup
          cases lookup
      | some middle => exact (change.kept used found next).trans (ih usedAfter next lookup)

theorem used_stays (used : leaseId ≤ engine.nextLeaseId) (operations : List EngineOperation) :
    leaseId ≤ (engine.runOperations operations).nextLeaseId :=
  Execution.run_invariant (fun engine : RotationEngine => leaseId ≤ engine.nextLeaseId)
    (fun engine operation used => used.trans (engine.apply_leaseChange operation).nextLeaseId_le)
    used operations

/-- A lease live at the end of a run was the same reservation all along. -/
theorem live_before {later : LeaseRuntime} (used : leaseId ≤ engine.nextLeaseId)
    (operations : List EngineOperation)
    (live : (engine.runOperations operations).leases[leaseId]? = some later) :
    ∃ earlier, engine.leases[leaseId]? = some earlier ∧ SameReservation earlier later := by
  cases found : engine.leases[leaseId]? with
  | none =>
      rw [lease_never_returns used found operations] at live
      cases live
  | some earlier => exact ⟨earlier, rfl, lease_kept used found operations live⟩

/-- After a reservation the lease is stored as it was made. -/
theorem reserved_found {initial : LeaseRuntime} {operation : EngineOperation}
    (shown : engine.event operation = .reserved initial) :
    (engine.apply operation).leases[initial.leaseId]? = some initial := by
  have change := engine.apply_leaseChange operation
  rw [shown] at change
  cases change with
  | same quiet => rcases quiet with quiet | ⟨policy, quiet⟩ <;> cases quiet
  | insert _ _ _ leases => rw [leases, BTreeMap.lookup_insert, if_pos rfl]
  | erase leaseId lease ended => cases ended

theorem reserveEvent_kind (engine : RotationEngine) (request : RotationRequest) (nowMs : Nat) :
    engine.reserveEvent request nowMs = .quiet ∨
      ∃ lease, engine.reserveEvent request nowMs = .reserved lease := by
  unfold reserveEvent
  split
  next after reserved _ =>
    cases after.leases[reserved.leaseId]? with
    | none => exact .inl rfl
    | some lease => exact .inr ⟨lease, rfl⟩
  next => exact .inl rfl

theorem releaseEvent_kind (engine : RotationEngine) (leaseId : LeaseId) :
    engine.releaseEvent leaseId = .quiet ∨ ∃ lease, engine.releaseEvent leaseId = .released lease := by
  unfold releaseEvent
  split
  · exact .inr ⟨_, rfl⟩
  · exact .inl rfl

theorem dispatchEvent_kind (engine : RotationEngine) (leaseId : LeaseId) (budget : RequestBudget)
    (clock : ClockReadings) (allowRetainedLease : Bool) :
    engine.dispatchEvent leaseId budget clock allowRetainedLease = .quiet ∨
      ∃ pending attemptId, engine.dispatchEvent leaseId budget clock allowRetainedLease =
        .dispatched pending attemptId := by
  unfold dispatchEvent
  split
  · exact .inr ⟨_, _, rfl⟩
  · exact .inl rfl

theorem settleEvent_kind (engine : RotationEngine) (leaseId : LeaseId)
    (observation : AttemptObservation) (budget : RequestBudget) (clock : ClockReadings)
    (nowMs : Nat) (firstOutputLatencyMs : Option Nat) :
    engine.settleEvent leaseId observation budget clock nowMs firstOutputLatencyMs = .quiet ∨
      ∃ lease, engine.settleEvent leaseId observation budget clock nowMs firstOutputLatencyMs =
        .settled { lease, health := observation.health, nowMs, firstOutputLatencyMs } := by
  unfold settleEvent
  split
  · exact .inr ⟨_, rfl⟩
  · exact .inl rfl

/-- Each event is shown by its own operations. -/
theorem event_kind (engine : RotationEngine) (operation : EngineOperation) :
    engine.event operation = .quiet ∨
      match engine.event operation with
      | .quiet => True
      | .recoveryPolicySet policy => operation = .setRecoveryPolicy policy
      | .reserved _ => ∃ request nowMs, operation = .reserve request nowMs
      | .dispatched _ _ => ∃ leaseId budget clock,
          operation = .beginDispatch leaseId budget clock ∨
            operation = .beginTransportDispatch leaseId budget clock
      | .released _ => ∃ leaseId, operation = .releaseUnstarted leaseId
      | .settled _ => ∃ leaseId observation budget clock nowMs firstOutputLatencyMs,
          operation = .settleWithLatency leaseId observation budget clock nowMs
              firstOutputLatencyMs ∨
            operation = .settle leaseId observation budget clock nowMs ∨
              operation = .cancel leaseId budget clock nowMs := by
  cases operation with
  | setRecoveryPolicy policy => exact .inr rfl
  | reserve request nowMs =>
      rcases engine.reserveEvent_kind request nowMs with quiet | ⟨lease, shown⟩
      · exact .inl quiet
      · exact .inr (by rw [event, shown]; exact ⟨request, nowMs, rfl⟩)
  | releaseUnstarted leaseId =>
      rcases engine.releaseEvent_kind leaseId with quiet | ⟨lease, shown⟩
      · exact .inl quiet
      · exact .inr (by rw [event, shown]; exact ⟨leaseId, rfl⟩)
  | beginDispatch leaseId budget clock =>
      rcases engine.dispatchEvent_kind leaseId budget clock false with
        quiet | ⟨pending, attemptId, shown⟩
      · exact .inl quiet
      · exact .inr (by rw [event, shown]; exact ⟨leaseId, budget, clock, .inl rfl⟩)
  | beginTransportDispatch leaseId budget clock =>
      rcases engine.dispatchEvent_kind leaseId budget clock true with
        quiet | ⟨pending, attemptId, shown⟩
      · exact .inl quiet
      · exact .inr (by rw [event, shown]; exact ⟨leaseId, budget, clock, .inr rfl⟩)
  | settleWithLatency leaseId observation budget clock nowMs firstOutputLatencyMs =>
      rcases engine.settleEvent_kind leaseId observation budget clock nowMs firstOutputLatencyMs
        with quiet | ⟨lease, shown⟩
      · exact .inl quiet
      · exact .inr (by rw [event, shown]; exact ⟨_, _, _, _, _, _, .inl rfl⟩)
  | settle leaseId observation budget clock nowMs =>
      rcases engine.settleEvent_kind leaseId observation budget clock nowMs none with
        quiet | ⟨lease, shown⟩
      · exact .inl quiet
      · exact .inr (by rw [event, shown]; exact ⟨_, _, _, _, _, none, .inr (.inl rfl)⟩)
  | cancel leaseId budget clock nowMs =>
      rcases engine.settleEvent_kind leaseId ⟨.unknown, .cancelled⟩ budget clock nowMs none with
        quiet | ⟨lease, shown⟩
      · exact .inl quiet
      · exact .inr (by
          rw [event, shown]
          exact ⟨_, ⟨.unknown, .cancelled⟩, _, _, _, none, .inr (.inr rfl)⟩)
  | _ => exact .inl rfl

/-- Only a reservation shows a reserved lease. -/
private theorem event_reserved {operation : EngineOperation} {lease : LeaseRuntime}
    (shown : engine.event operation = .reserved lease) :
    ∃ request nowMs, operation = .reserve request nowMs := by
  rcases engine.event_kind operation with quiet | kind
  · rw [shown] at quiet
    cases quiet
  · rw [shown] at kind
    exact kind

theorem event_recoveryPolicySet {operation : EngineOperation} {policy : RecoveryPolicy}
    (shown : engine.event operation = .recoveryPolicySet policy) :
    operation = .setRecoveryPolicy policy := by
  rcases engine.event_kind operation with quiet | kind
  · rw [shown] at quiet
    cases quiet
  · rw [shown] at kind
    exact kind

/-- The one reservation of a run that a live lease goes back to. -/
structure ReservedAt (operations : List EngineOperation) (leaseId : LeaseId)
    (initial : LeaseRuntime) (earlier : List EngineOperation) (request : RotationRequest)
    (nowMs : Nat) (later : List EngineOperation) : Prop where
  split : operations = earlier ++ .reserve request nowMs :: later
  shown : (RotationEngine.default.runOperations earlier).event (.reserve request nowMs) =
    .reserved initial
  id : initial.leaseId = leaseId

theorem live_lease_reserved {operations : List EngineOperation} {lease : LeaseRuntime}
    (found : (RotationEngine.default.runOperations operations).leases[leaseId]? = some lease) :
    ∃ initial earlier request nowMs later,
      ReservedAt operations leaseId initial earlier request nowMs later ∧
        SameReservation initial lease := by
  induction operations using List.reverseRecOn generalizing lease with
  | nil => simp [RotationEngine.default] at found
  | append_singleton operations operation ih =>
      have reachable : (RotationEngine.default.runOperations operations).Reachable :=
        ⟨operations, rfl⟩
      rw [runOperations_append] at found
      -- A lease that was live before keeps its reservation.
      have extend : ∀ {earlierLease : LeaseRuntime},
          (RotationEngine.default.runOperations operations).leases[leaseId]? = some earlierLease →
          ∃ initial earlier request nowMs later,
            ReservedAt (operations ++ [operation]) leaseId initial earlier request nowMs later ∧
              SameReservation initial lease := by
        intro earlierLease stored
        obtain ⟨initial, earlier, request, nowMs, later, reserved, same⟩ := ih stored
        have kept := (apply_leaseChange _ operation).kept (reachable.registered.lease_id_le stored)
          stored found
        exact ⟨initial, earlier, request, nowMs, later ++ [operation],
          ⟨by rw [reserved.split]; simp, reserved.shown, reserved.id⟩, same.trans kept⟩
      cases stored : (RotationEngine.default.runOperations operations).leases[leaseId]? with
      | some earlierLease => exact extend stored
      | none =>
          generalize shown : (RotationEngine.default.runOperations operations).event operation =
            event at *
          have change := apply_leaseChange (RotationEngine.default.runOperations operations)
            operation
          rw [shown] at change
          change ((RotationEngine.default.runOperations operations).apply operation).leases[
            leaseId]? = some lease at found
          cases change with
          | same _ leases _ =>
              rw [leases, stored] at found
              cases found
          | insert initial id attempt leases _ _ =>
              rw [leases, BTreeMap.lookup_insert] at found
              split at found
              next equal =>
                cases found
                obtain ⟨request, nowMs, rfl⟩ := event_reserved shown
                exact ⟨lease, operations, request, nowMs, [], ⟨rfl, shown, equal.symm⟩, .refl lease⟩
              next =>
                rw [stored] at found
                cases found
          | record other pending attemptId present leases _ _ =>
              rw [leases, BTreeMap.lookup_insert] at found
              split at found
              next equal =>
                rw [← equal, stored] at present
                cases present
              next =>
                rw [stored] at found
                cases found
          | erase other ended _ _ leases _ _ =>
              rw [leases, BTreeMap.lookup_erase, stored, ite_self] at found
              cases found

end RotationEngine

end ZenithRelay.Scheduler.Rotation
