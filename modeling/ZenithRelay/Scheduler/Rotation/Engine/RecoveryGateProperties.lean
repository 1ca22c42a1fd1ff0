import ZenithRelay.Scheduler.Rotation.Engine.AccountingProperties

/-!
# The recovery gate

A half-open circuit is held by a live recovery lease of that very route, so the
gate opens again no later than that lease ends.
-/

set_option autoImplicit false

namespace ZenithRelay.Scheduler.Rotation

/-- Every half-open permit is in the hands of a live recovery lease. -/
structure GatesHeld (engine : RotationEngine) : Prop where
  held : ∀ {key : String × String} {circuit : CircuitRuntime},
    engine.circuits[key]? = some circuit → circuit.state = .halfOpen →
      ∃ leaseId, circuit.halfOpenLease = some leaseId
  live : ∀ {key : String × String} {circuit : CircuitRuntime} {leaseId : LeaseId},
    engine.circuits[key]? = some circuit → circuit.halfOpenLease = some leaseId →
      ∃ lease, engine.leases[leaseId]? = some lease ∧ lease.recovery = true ∧
        lease.candidateId = key.1 ∧ lease.routeKey = key.2

namespace GatesHeld

variable {engine after : RotationEngine}

theorem default : GatesHeld .default where
  held found := by simp [RotationEngine.default] at found
  live found := by simp [RotationEngine.default] at found

/-- Dropping circuits, and leases that change no reservation, keep every gate held. -/
theorem restrict (gates : GatesHeld engine)
    (circuits : ∀ {key : String × String} {circuit : CircuitRuntime},
      after.circuits[key]? = some circuit → engine.circuits[key]? = some circuit)
    (leases : ∀ {leaseId : LeaseId} {lease : LeaseRuntime}, engine.leases[leaseId]? = some lease →
      ∃ later, after.leases[leaseId]? = some later ∧ SameReservation lease later) :
    GatesHeld after where
  held found halfOpen := gates.held (circuits found) halfOpen
  live found holder := by
    obtain ⟨lease, stored, recovers, candidate, route⟩ := gates.live (circuits found) holder
    obtain ⟨later, storedLater, same⟩ := leases stored
    exact ⟨later, storedLater, same.recovery.trans recovers, same.candidateId.trans candidate,
      same.routeKey.trans route⟩

/-- The same leases and fewer circuits. -/
theorem withFewerCircuits (gates : GatesHeld engine) (leases : after.leases = engine.leases)
    (circuits : ∀ {key : String × String} {circuit : CircuitRuntime},
      after.circuits[key]? = some circuit → engine.circuits[key]? = some circuit) :
    GatesHeld after :=
  gates.restrict circuits fun stored => ⟨_, leases ▸ stored, .refl _⟩

/-- A lease that ends opens its own gate. -/
theorem dropLease (gates : GatesHeld engine) (registered : Registered engine)
    {leaseId : LeaseId} {lease : LeaseRuntime} (found : engine.leases[leaseId]? = some lease) :
    GatesHeld (engine.dropLease leaseId lease) := by
  -- Every circuit is one from before, and none still names the lease.
  have circuits : ∀ {key : String × String} {circuit : CircuitRuntime},
      (engine.dropLease leaseId lease).circuits[key]? = some circuit →
        circuit.halfOpenLease ≠ some leaseId ∧
          ((circuit.state = .open ∧ circuit.halfOpenLease = none) ∨
            engine.circuits[key]? = some circuit) := by
    intro key circuit stored
    have holder : ∀ {earlier : CircuitRuntime}, engine.circuits[key]? = some earlier →
        earlier.halfOpenLease = some leaseId →
          lease.recovery = true ∧ key = (lease.candidateId, lease.routeKey) := by
      intro earlier before holds
      obtain ⟨holding, live, recovers, candidate, route⟩ := gates.live before holds
      rw [found] at live
      cases live
      exact ⟨recovers, Prod.ext candidate.symm route.symm⟩
    change (if lease.recovery then engine.circuits.modify (lease.candidateId, lease.routeKey)
      (·.releaseGate lease.leaseId) else engine.circuits)[key]? = some circuit at stored
    split at stored
    next recovers =>
      rw [BTreeMap.lookup_modify] at stored
      split at stored
      next same =>
        obtain ⟨earlier, before, rfl⟩ := Option.map_eq_some_iff.mp stored
        rw [registered.lease_id found]
        unfold CircuitRuntime.releaseGate
        split
        next => exact ⟨nofun, .inl ⟨rfl, rfl⟩⟩
        next other => exact ⟨other, .inr before⟩
      next different => exact ⟨fun holds => different (holder stored holds).2, .inr stored⟩
    next ordinary => exact ⟨fun holds => ordinary (holder stored holds).1, .inr stored⟩
  constructor
  · intro key circuit stored halfOpen
    rcases (circuits stored).2 with ⟨«open», -⟩ | before
    · rw [halfOpen] at «open»
      cases «open»
    · exact gates.held before halfOpen
  · intro key circuit holder stored holds
    obtain ⟨other, ⟨-, none⟩ | before⟩ := circuits stored
    · rw [none] at holds
      cases holds
    · obtain ⟨holding, live, rest⟩ := gates.live before holds
      have different : holder ≠ leaseId := fun same => other (same ▸ holds)
      refine ⟨holding, ?_, rest⟩
      change (engine.leases.erase leaseId)[holder]? = some holding
      rw [BTreeMap.lookup_erase, if_neg different, live]

/-- An outcome of a lease that is gone touches nobody's gate. -/
theorem applyOutcome (gates : GatesHeld engine) {lease : LeaseRuntime}
    (gone : engine.leases[lease.leaseId]? = none) (health : HealthObservation) (nowMs : Nat)
    (firstOutputLatencyMs : Option Nat) :
    GatesHeld (engine.applyOutcome lease health nowMs firstOutputLatencyMs).1 := by
  obtain ⟨healthRecords, same⟩ :=
    engine.applyOutcome_same lease health nowMs firstOutputLatencyMs
  rw [same]
  set circuit := engine.circuitRuntime lease.candidateId lease.routeKey with circuitEq
  have stored : engine.circuits[(lease.candidateId, lease.routeKey)]? = some circuit ∨
      circuit = .default := by
    rw [circuitEq, RotationEngine.circuitRuntime]
    cases engine.circuits[(lease.candidateId, lease.routeKey)]? with
    | none => exact .inr rfl
    | some circuit => exact .inl rfl
  have other : circuit.halfOpenLease ≠ some lease.leaseId := by
    rcases stored with stored | untouched
    · intro holds
      obtain ⟨holding, live, -⟩ := gates.live stored holds
      rw [gone] at live
      cases live
    · rw [untouched]
      exact nofun
  have permit := CircuitRuntime.update_halfOpenLease other health nowMs
  constructor
  · intro key updated lookup halfOpen
    rw [BTreeMap.lookup_insert] at lookup
    split at lookup
    next =>
      cases lookup
      rw [permit]
      rcases stored with stored | untouched
      · exact gates.held stored (CircuitRuntime.update_halfOpen halfOpen)
      · have state := CircuitRuntime.update_halfOpen halfOpen
        rw [untouched] at state
        cases state
    next => exact gates.held lookup halfOpen
  · intro key updated holder lookup holds
    rw [BTreeMap.lookup_insert] at lookup
    split at lookup
    next equal =>
      cases lookup
      rw [permit] at holds
      rcases stored with stored | untouched
      · rw [equal]
        exact gates.live stored holds
      · rw [untouched] at holds
        cases holds
    next => exact gates.live lookup holds

end GatesHeld

/-- The gates stay held under every operation. -/
theorem Transition.gatesHeld {engine after : RotationEngine} {event : EngineEvent}
    (transition : Transition engine event after)
    (registered : Registered engine) (gates : GatesHeld engine) : GatesHeld after := by
  cases transition with
  | configure | recoveryPolicy => exact { gates with }
  | edit => exact { gates with }
  | install candidate valid absent room =>
      rw [RotationEngine.recomputeCapacityLimit_same (engine.installCandidate candidate)]
      exact { gates with }
  | replace candidate runtime valid found =>
      rw [RotationEngine.recomputeDerived_same (engine.replaceCandidate runtime candidate)]
      refine gates.withFewerCircuits rfl fun {key circuit} stored => ?_
      change (engine.circuits.filter _)[key]? = some circuit at stored
      rw [BTreeMap.lookup_filter] at stored
      exact (Option.filter_eq_some_iff.mp stored).1
  | remove candidateId runtime found =>
      rw [RotationEngine.eraseCandidate_same engine candidateId]
      refine gates.withFewerCircuits rfl fun {key circuit} stored => ?_
      change (engine.circuits.filter _)[key]? = some circuit at stored
      rw [BTreeMap.lookup_filter] at stored
      exact (Option.filter_eq_some_iff.mp stored).1
  | @reserve request nowMs group selected runtime admission =>
      set lease := engine.newLease request selected runtime
        (engine.selectionCandidates request nowMs).2
      obtain ⟨rotationCredit, roundRobinCursor, same⟩ :=
        engine.takeLease_same request group selected runtime
          (engine.selectionCandidates request nowMs).2
      rw [same]
      have absent : engine.leases[lease.leaseId]? = none := registered.fresh
      have older : ∀ {leaseId : LeaseId} {stored : LeaseRuntime},
          engine.leases[leaseId]? = some stored →
            (engine.leases.insert lease.leaseId lease)[leaseId]? = some stored := by
        intro leaseId stored found
        have different : leaseId ≠ lease.leaseId := by
          rintro rfl
          rw [absent] at found
          cases found
        rw [BTreeMap.lookup_insert, if_neg different, found]
      have trial : ∀ {key : String × String} {circuit : CircuitRuntime},
          (engine.insertLease runtime lease).circuits[key]? = some circuit →
            engine.circuits[key]? = some circuit ∨
              (circuit.halfOpenLease = some lease.leaseId ∧ lease.recovery = true ∧
                key = (lease.candidateId, lease.routeKey)) := by
        intro key circuit stored
        change (if lease.recovery then engine.circuits.insert _ _ else engine.circuits)[key]? =
          some circuit at stored
        split at stored
        next recovers =>
          rw [BTreeMap.lookup_insert] at stored
          split at stored
          next equal =>
            cases stored
            exact .inr ⟨rfl, recovers, equal⟩
          next => exact .inl stored
        next => exact .inl stored
      constructor
      · intro key circuit stored halfOpen
        rcases trial stored with before | ⟨holds, -⟩
        · exact gates.held before halfOpen
        · exact ⟨_, holds⟩
      · intro key circuit leaseId stored holds
        rcases trial stored with before | ⟨holder, recovers, equal⟩
        · obtain ⟨holding, live, rest⟩ := gates.live before holds
          exact ⟨holding, older live, rest⟩
        · rw [holder] at holds
          cases holds
          rw [equal]
          refine ⟨lease, ?_, recovers, rfl, rfl⟩
          change (engine.leases.insert lease.leaseId lease)[lease.leaseId]? = some lease
          rw [BTreeMap.lookup_insert, if_pos rfl]
  | dispatch leaseId pending budget allowRetainedLease attemptId found allowed =>
      refine gates.restrict (fun stored => stored) fun {other lease} stored => ?_
      change ∃ later, (engine.leases.modify leaseId _)[other]? = some later ∧ _
      rw [BTreeMap.lookup_modify]
      split
      next =>
        rw [stored]
        exact ⟨_, rfl, rfl, rfl, rfl, rfl, rfl, rfl, rfl, rfl, rfl, rfl⟩
      next => exact ⟨lease, stored, .refl lease⟩
  | release leaseId lease found unstarted => exact gates.dropLease registered found
  | settle leaseId settlement found dispatched =>
      have dropped := gates.dropLease registered found
      unfold RotationEngine.settleLease
      dsimp only
      split
      · refine dropped.applyOutcome ?_ _ _ _
        change (engine.leases.erase leaseId)[settlement.lease.leaseId]? = none
        rw [BTreeMap.lookup_erase, if_pos (registered.lease_id found)]
      · exact dropped

namespace RotationEngine

variable {engine : RotationEngine}

theorem Reachable.gatesHeld (reachable : engine.Reachable) : GatesHeld engine :=
  (Execution.Reachable.invariant (fun engine => Registered engine ∧ GatesHeld engine) reachable
    ⟨Registered.default, GatesHeld.default⟩ fun engine operation ⟨registered, gates⟩ =>
      ⟨(engine.apply_transition operation).registered registered,
        (engine.apply_transition operation).gatesHeld registered gates⟩).2

/-- In every reachable state a half-open circuit is held, and only by a live recovery
lease of that route; without live leases nothing of a recovery trial remains. -/
theorem recovery_gate_held (reachable : engine.Reachable) :
    (∀ (candidateId routeKey : String) (circuit : CircuitRuntime),
      engine.circuits[(candidateId, routeKey)]? = some circuit →
        (circuit.state = .halfOpen → ∃ leaseId, circuit.halfOpenLease = some leaseId) ∧
        ∀ leaseId, circuit.halfOpenLease = some leaseId →
          ∃ lease, engine.leases[leaseId]? = some lease ∧ lease.recovery = true ∧
            lease.candidateId = candidateId ∧ lease.routeKey = routeKey) ∧
    (engine.activeLeases = 0 →
      (∀ (key : String × String) (circuit : CircuitRuntime),
        engine.circuits[key]? = some circuit →
          circuit.state ≠ .halfOpen ∧ circuit.halfOpenLease = none) ∧
      engine.recoveryInFlight = 0) := by
  have gates := reachable.gatesHeld
  refine ⟨fun candidateId routeKey circuit stored =>
    ⟨gates.held stored, fun leaseId holds => gates.live stored holds⟩, fun none => ?_⟩
  have empty : engine.leases = ∅ := Std.ExtTreeMap.eq_empty_iff_size_eq_zero.mpr none
  have free : ∀ (key : String × String) (circuit : CircuitRuntime),
      engine.circuits[key]? = some circuit → circuit.halfOpenLease = .none := by
    intro key circuit stored
    cases holder : circuit.halfOpenLease with
    | none => rfl
    | some leaseId =>
        obtain ⟨lease, live, -⟩ := gates.live stored holder
        simp [empty] at live
  refine ⟨fun key circuit stored => ⟨fun halfOpen => ?_, free key circuit stored⟩, ?_⟩
  · obtain ⟨leaseId, holds⟩ := gates.held stored halfOpen
    rw [free key circuit stored] at holds
    cases holds
  · rw [reachable.accounted.2.recovery, leaseCount, empty]
    rfl

/-- The trial after a first failure holds the gate of its route. -/
theorem recovery_gate_held_trial :
    let engine := RotationEngine.default.runOperations [.upsert (.create "a" "r" "m"),
      .reserve (.create 1 "r" "m") 0, .beginDispatch 1 (.defaultFor 1) ⟨0, 0⟩,
      .settle 1 ⟨.notSent, .countableTransient none⟩ (.defaultFor 1) ⟨0, 0⟩ 0,
      .reserve (.create 2 "r" "m") 1000]
    (engine.circuitRuntime "a" "r").state = .halfOpen ∧
      ∃ leaseId, (engine.circuitRuntime "a" "r").halfOpenLease = some leaseId := by
  intro engine
  have reachable : engine.Reachable := ⟨_, rfl⟩
  exact ⟨rfl, ((recovery_gate_held reachable).1 "a" "r" _ rfl).1 rfl⟩

end RotationEngine

end ZenithRelay.Scheduler.Rotation
