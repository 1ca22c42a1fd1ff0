import ZenithRelay.Scheduler.Rotation.Engine.RegistryProperties

/-!
# Circuit epochs

Every transition of a circuit is a settlement and raises the circuit's epoch, so
epochs order the outcomes of one circuit for as long as it is stored. They stay
below the number of leases ever drawn and never saturate.
-/

set_option autoImplicit false

namespace ZenithRelay.Scheduler.Rotation

namespace CircuitRuntime

theorem UpdatesCooldown.refl (circuit : CircuitRuntime) : UpdatesCooldown circuit circuit .none where
  epoch := rfl
  notBefore _ := by
    cases circuit.notBeforeMs with
    | none => trivial
    | some deadline => exact Nat.le_refl deadline
  closed _ closed := closed
  lastTransition := rfl

/-- A change of the permit alone comes before an update unnoticed. -/
theorem UpdatesCooldown.of_same {circuit released after : CircuitRuntime}
    {transition : CircuitTransition} (epoch : released.epoch = circuit.epoch)
    (notBefore : released.notBeforeMs = circuit.notBeforeMs)
    (closed : released.state = .closed → circuit.state = .closed)
    (last : released.lastTransition = circuit.lastTransition)
    (updates : UpdatesCooldown released after transition) :
    UpdatesCooldown circuit after transition where
  epoch := by rw [updates.epoch, epoch]
  notBefore other := notBefore ▸ updates.notBefore other
  closed other state := closed (updates.closed other state)
  lastTransition := by rw [updates.lastTransition, last]

theorem releaseGate_cases (circuit : CircuitRuntime) (leaseId : LeaseId) :
    circuit.releaseGate leaseId = circuit ∨
      circuit.releaseGate leaseId = { circuit with halfOpenLease := none, state := .open } := by
  unfold releaseGate
  split
  · exact .inr rfl
  · exact .inl rfl

private theorem UpdatesCooldown.of_releaseGate {circuit after : CircuitRuntime} {leaseId : LeaseId}
    {transition : CircuitTransition}
    (updates : UpdatesCooldown (circuit.releaseGate leaseId) after transition) :
    UpdatesCooldown circuit after transition := by
  rcases circuit.releaseGate_cases leaseId with same | same <;> rw [same] at updates
  · exact updates
  · refine .of_same ?_ ?_ ?_ ?_ updates
    · rfl
    · rfl
    · exact nofun
    · rfl

private theorem transition_releaseGate (circuit : CircuitRuntime) (leaseId : LeaseId)
    (lease : LeaseRuntime) (health : HealthObservation) (nowMs : Nat) :
    (circuit.releaseGate leaseId).transition lease health nowMs =
      circuit.transition lease health nowMs := by
  rcases circuit.releaseGate_cases leaseId with same | same <;> rw [same]
  have requests : (({ circuit with halfOpenLease := none, state := .open } :
      CircuitRuntime).forgetOldFailures nowMs).countedRequests =
        (circuit.forgetOldFailures nowMs).countedRequests := by
    unfold forgetOldFailures
    dsimp only
    split <;> rfl
  unfold transition
  rw [requests]

/-- The circuit as a lease leaves it, whether it held a recovery permit or none. -/
def handBack (circuit : CircuitRuntime) (lease : LeaseRuntime) : CircuitRuntime :=
  if lease.recovery then circuit.releaseGate lease.leaseId else circuit

theorem UpdatesCooldown.of_handBack {circuit after : CircuitRuntime} {lease : LeaseRuntime}
    {transition : CircuitTransition} (updates : UpdatesCooldown (circuit.handBack lease) after
      transition) : UpdatesCooldown circuit after transition := by
  unfold handBack at updates
  split at updates
  · exact updates.of_releaseGate
  · exact updates

theorem transition_handBack (circuit : CircuitRuntime) (dropped lease : LeaseRuntime)
    (health : HealthObservation) (nowMs : Nat) :
    (circuit.handBack dropped).transition lease health nowMs =
      circuit.transition lease health nowMs := by
  unfold handBack
  split
  · exact transition_releaseGate _ _ _ _ _
  · rfl

theorem transition_success_ne_failure (circuit : CircuitRuntime) (lease : LeaseRuntime)
    (nowMs : Nat) : circuit.transition lease .success nowMs ≠ .failure := by
  unfold transition
  split
  · exact nofun
  · dsimp only
    split <;> exact nofun

end CircuitRuntime

namespace RotationEngine

variable {engine after : RotationEngine} {event : EngineEvent} {candidateId routeKey : String}

/-- The transition an event makes on a circuit: that of a current settlement. -/
def circuitTransition (engine : RotationEngine) (candidateId routeKey : String) :
    EngineEvent → CircuitTransition
  | .settled settlement =>
    if settlement.lease.candidateId = candidateId ∧ settlement.lease.routeKey = routeKey ∧
        engine.observationCurrent settlement.lease then
      (engine.circuitRuntime candidateId routeKey).transition settlement.lease settlement.health
        settlement.nowMs
    else .none
  | .quiet | .recoveryPolicySet _ | .reserved _ | .dispatched _ _ | .released _ => .none

/-- The circuit of a route after a lease gave its permits back. -/
theorem dropLease_circuitRuntime (engine : RotationEngine) (leaseId : LeaseId)
    (lease : LeaseRuntime) (candidateId routeKey : String) :
    (engine.dropLease leaseId lease).circuitRuntime candidateId routeKey =
      if (candidateId, routeKey) = (lease.candidateId, lease.routeKey) then
        (engine.circuitRuntime candidateId routeKey).handBack lease
      else engine.circuitRuntime candidateId routeKey := by
  unfold circuitRuntime CircuitRuntime.handBack
  change (if lease.recovery then engine.circuits.modify (lease.candidateId, lease.routeKey)
      (·.releaseGate lease.leaseId) else engine.circuits)[(candidateId, routeKey)]?.getD .default = _
  by_cases own : (candidateId, routeKey) = (lease.candidateId, lease.routeKey)
  · rw [if_pos own]
    split
    · rw [BTreeMap.lookup_modify, if_pos own]
      cases engine.circuits[(candidateId, routeKey)]? <;> rfl
    · rfl
  · rw [if_neg own]
    split
    · rw [BTreeMap.lookup_modify, if_neg own]
    · rfl

theorem dropLease_transition (engine : RotationEngine) (leaseId : LeaseId)
    (dropped lease : LeaseRuntime) (health : HealthObservation) (nowMs : Nat) :
    ((engine.dropLease leaseId dropped).circuitRuntime candidateId routeKey).transition lease
        health nowMs =
      (engine.circuitRuntime candidateId routeKey).transition lease health nowMs := by
  rw [dropLease_circuitRuntime]
  split
  · exact CircuitRuntime.transition_handBack _ _ _ _ _
  · rfl

/-- The circuit an operation took out of the registry. -/
def DropsCircuit (engine after : RotationEngine) (candidateId routeKey : String) : Prop :=
  engine.circuits[(candidateId, routeKey)]?.isSome ∧
    after.circuits[(candidateId, routeKey)]?.isNone

/-- What an event can do to one circuit. -/
inductive CircuitChange (engine after : RotationEngine) (event : EngineEvent)
    (candidateId routeKey : String) : Prop where
  | dropped : engine.DropsCircuit after candidateId routeKey → event = .quiet →
      CircuitChange engine after event candidateId routeKey
  | same : engine.circuitTransition candidateId routeKey event = .none →
      after.circuitRuntime candidateId routeKey = engine.circuitRuntime candidateId routeKey →
      CircuitChange engine after event candidateId routeKey
  | tried (lease : LeaseRuntime) (permit : LeaseId) : event = .reserved lease →
      after.circuitRuntime candidateId routeKey =
        (engine.circuitRuntime candidateId routeKey).openGate permit →
      CircuitChange engine after event candidateId routeKey
  | handedBack (lease : LeaseRuntime) : event.ended = some lease →
      engine.circuitTransition candidateId routeKey event = .none →
      after.circuitRuntime candidateId routeKey =
        (engine.circuitRuntime candidateId routeKey).handBack lease →
      CircuitChange engine after event candidateId routeKey
  | settled (settlement : Settlement) : event = .settled settlement →
      engine.circuitTransition candidateId routeKey event =
        (engine.circuitRuntime candidateId routeKey).transition settlement.lease settlement.health
          settlement.nowMs →
      after.circuitRuntime candidateId routeKey =
        (((engine.circuitRuntime candidateId routeKey).handBack settlement.lease).update
          settlement.lease settlement.health settlement.nowMs).1 →
      CircuitChange engine after event candidateId routeKey

private theorem filter_circuitChange (circuits : BTreeMap (String × String) CircuitRuntime)
    (keep : String × String → CircuitRuntime → Bool) (key : String × String) :
    (circuits[key]?.isSome ∧ (circuits.filter keep)[key]?.isNone) ∨
      (circuits.filter keep)[key]? = circuits[key]? := by
  rw [BTreeMap.lookup_filter]
  cases circuits[key]? with
  | none => exact .inr rfl
  | some circuit =>
      cases kept : keep key circuit with
      | true => exact .inr (by simp [Option.filter, kept])
      | false => exact .inl (by simp [Option.filter, kept])

/-- A lease that ends without an outcome for the circuit only gives its permit back. -/
theorem CircuitChange.of_dropLease (leaseId : LeaseId) {lease : LeaseRuntime}
    (ended : event.ended = some lease)
    (still : engine.circuitTransition candidateId routeKey event = .none)
    (left : after.circuitRuntime candidateId routeKey =
      (engine.dropLease leaseId lease).circuitRuntime candidateId routeKey) :
    CircuitChange engine after event candidateId routeKey := by
  rw [dropLease_circuitRuntime] at left
  split at left
  · exact .handedBack lease ended still left
  · exact .same still left

end RotationEngine

/-- The inversion of the step relation for one circuit. -/
theorem Transition.circuitCases {engine after : RotationEngine} {event : EngineEvent}
    (transition : Transition engine event after) (candidateId routeKey : String) :
    engine.CircuitChange after event candidateId routeKey := by
  have unchanged : after.circuits[(candidateId, routeKey)]? =
      engine.circuits[(candidateId, routeKey)]? →
        after.circuitRuntime candidateId routeKey =
          engine.circuitRuntime candidateId routeKey := by
    intro same
    unfold RotationEngine.circuitRuntime
    rw [same]
  cases transition with
  | configure | recoveryPolicy | edit | dispatch => exact .same rfl (unchanged rfl)
  | install candidate valid absent room =>
      refine .same rfl (unchanged ?_)
      rw [RotationEngine.recomputeCapacityLimit_same (engine.installCandidate candidate)]
      rfl
  | replace candidate runtime valid found =>
      rw [RotationEngine.recomputeDerived_same (engine.replaceCandidate runtime candidate)]
        at unchanged ⊢
      rcases RotationEngine.filter_circuitChange engine.circuits
          (fun key _ => key.1 ≠ candidate.id ||
            candidate.routes[key.2]? == runtime.candidate.routes[key.2]?)
          (candidateId, routeKey) with dropped | same
      · exact .dropped dropped rfl
      · exact .same rfl (unchanged same)
  | remove removedId runtime found =>
      rw [RotationEngine.eraseCandidate_same engine removedId] at unchanged ⊢
      rcases RotationEngine.filter_circuitChange engine.circuits
          (fun key _ => key.1 ≠ removedId) (candidateId, routeKey) with dropped | same
      · exact .dropped dropped rfl
      · exact .same rfl (unchanged same)
  | @reserve request nowMs group selected runtime admission =>
      obtain ⟨rotationCredit, roundRobinCursor, same⟩ :=
        engine.takeLease_same request group selected runtime
          (engine.selectionCandidates request nowMs).2
      rw [same] at unchanged ⊢
      by_cases trial : selected.recovery = true ∧ (candidateId, routeKey) =
          (selected.id, request.routeKey)
      · obtain ⟨recovers, key⟩ := trial
        cases key
        refine .tried _ (engine.nextLeaseId + 1) rfl ?_
        unfold RotationEngine.circuitRuntime
        change (if selected.recovery then
          engine.circuits.insert (selected.id, request.routeKey)
            ((engine.circuitRuntime selected.id request.routeKey).openGate (engine.nextLeaseId + 1))
          else engine.circuits)[_]?.getD CircuitRuntime.default = _
        rw [if_pos recovers, BTreeMap.lookup_insert, if_pos rfl]
        rfl
      · refine .same rfl (unchanged ?_)
        change (if selected.recovery then engine.circuits.insert (selected.id, request.routeKey) _
          else engine.circuits)[(candidateId, routeKey)]? = _
        split
        next recovers =>
          rw [BTreeMap.lookup_insert, if_neg fun key => trial ⟨recovers, key⟩]
        next => rfl
  | release leaseId lease found unstarted => exact .of_dropLease leaseId rfl rfl rfl
  | settle leaseId settlement found dispatched =>
      unfold RotationEngine.settleLease
      dsimp only
      by_cases current : engine.observationCurrent settlement.lease = true
      · rw [if_pos current]
        obtain ⟨healthRecords, same⟩ := RotationEngine.applyOutcome_same
          (engine.dropLease leaseId settlement.lease) settlement.lease settlement.health
          settlement.nowMs settlement.firstOutputLatencyMs
        rw [same]
        by_cases own : settlement.lease.candidateId = candidateId ∧
            settlement.lease.routeKey = routeKey
        · obtain ⟨rfl, rfl⟩ := own
          refine .settled settlement rfl (if_pos ⟨rfl, rfl, current⟩) ?_
          have released := engine.dropLease_circuitRuntime leaseId settlement.lease
            settlement.lease.candidateId settlement.lease.routeKey
          rw [if_pos rfl] at released
          rw [← released]
          unfold RotationEngine.circuitRuntime
          dsimp only
          rw [BTreeMap.lookup_insert, if_pos rfl, Option.getD_some]
        · refine .of_dropLease leaseId rfl (if_neg fun all => own ⟨all.1, all.2.1⟩) ?_
          unfold RotationEngine.circuitRuntime
          dsimp only
          rw [BTreeMap.lookup_insert, if_neg fun key => own (by cases key; exact ⟨rfl, rfl⟩)]
      · rw [if_neg current]
        exact .of_dropLease leaseId rfl (if_neg fun all => current all.2.2) rfl

/-- An operation drops a circuit, or it makes the transition its event shows. -/
theorem Transition.circuitChange {engine after : RotationEngine} {event : EngineEvent}
    (transition : Transition engine event after) (candidateId routeKey : String) :
    (engine.DropsCircuit after candidateId routeKey ∧ event = .quiet) ∨
      (engine.circuitRuntime candidateId routeKey).UpdatesCooldown
        (after.circuitRuntime candidateId routeKey)
        (engine.circuitTransition candidateId routeKey event) := by
  cases transition.circuitCases candidateId routeKey with
  | dropped drops quiet => exact .inl ⟨drops, quiet⟩
  | same still left =>
      rw [still, left]
      exact .inr (.refl _)
  | tried lease permit reserved left =>
      rw [left, reserved]
      have gate := CircuitRuntime.UpdatesCooldown.refl (engine.circuitRuntime candidateId routeKey)
      exact .inr ⟨rfl, gate.notBefore, fun _ => nofun, rfl⟩
  | handedBack lease ended still left =>
      rw [still, left]
      exact .inr (.of_handBack (.refl _))
  | settled settlement event moves left =>
      rw [moves, left, ← CircuitRuntime.transition_handBack]
      exact .inr (.of_handBack (CircuitRuntime.update_cooldown _ _ _ _))

/-- An epoch counts settlements, and every settled lease was drawn. -/
def EpochsBounded (engine : RotationEngine) : Prop :=
  ∀ candidateId routeKey : String,
    (engine.circuitRuntime candidateId routeKey).epoch + engine.leases.size ≤ engine.nextLeaseId

private theorem RotationEngine.circuitTransition_eq_none {engine : RotationEngine} {event : EngineEvent}
    (lasting : event.ended = none) (candidateId routeKey : String) :
    engine.circuitTransition candidateId routeKey event = .none := by
  cases event with
  | released lease => cases lasting
  | settled settlement => cases lasting
  | _ => rfl

/-- Only an event that ends a lease moves a circuit, and by one epoch. -/
theorem Transition.epochsBounded {engine after : RotationEngine} {event : EngineEvent}
    (transition : Transition engine event after) (registered : Registered engine)
    (bounded : EpochsBounded engine) : EpochsBounded after := by
  intro candidateId routeKey
  have before := bounded candidateId routeKey
  have next : (after.circuitRuntime candidateId routeKey).epoch ≤
      (engine.circuitRuntime candidateId routeKey).epoch +
        if engine.circuitTransition candidateId routeKey event = .none then 0 else 1 := by
    rcases transition.circuitChange candidateId routeKey with ⟨dropped, -⟩ | updates
    · have absent := Option.isNone_iff_eq_none.mp dropped.2
      have fresh : (after.circuitRuntime candidateId routeKey).epoch = 0 := by
        unfold RotationEngine.circuitRuntime
        rw [absent]
        rfl
      omega
    · rw [updates.epoch]
      split
      · exact Nat.le_refl _
      · exact Nat.min_le_left _ _
  cases transition.leaseChange with
  | same quiet leases nextId =>
      have still : engine.circuitTransition candidateId routeKey event = .none := by
        rcases quiet with rfl | ⟨policy, rfl⟩ <;> rfl
      rw [if_pos still] at next
      rw [leases, nextId]
      omega
  | insert lease id attempt leases nextId generations =>
      have still : engine.circuitTransition candidateId routeKey (.reserved lease) = .none := rfl
      have absent : engine.leases[lease.leaseId]? = none := by
        rw [id]
        exact registered.fresh
      rw [if_pos still] at next
      rw [leases, nextId, id, BTreeMap.size_insert_fresh (by rw [← id]; exact absent)]
      omega
  | record leaseId pending attemptId found leases nextId generations =>
      have still : engine.circuitTransition candidateId routeKey
          (.dispatched pending attemptId) = .none := rfl
      rw [if_pos still] at next
      rw [leases, nextId, BTreeMap.size_replace found]
      omega
  | erase leaseId lease ended found leases nextId generations =>
      have size := BTreeMap.size_erase_found found
      have raised : (if engine.circuitTransition candidateId routeKey event = .none then 0 else 1) ≤
          1 := by split <;> omega
      rw [leases, nextId]
      omega

namespace RotationEngine

variable {engine : RotationEngine} {candidateId routeKey : String}

theorem Reachable.epochsBounded (reachable : engine.Reachable) : EpochsBounded engine :=
  (Execution.Reachable.invariant (fun engine => Registered engine ∧ EpochsBounded engine)
    reachable ⟨Registered.default, fun _ _ => Nat.le_refl 0⟩
    fun engine operation ⟨registered, bounded⟩ =>
      ⟨(engine.apply_transition operation).registered registered,
        (engine.apply_transition operation).epochsBounded registered bounded⟩).2

/-- While a circuit is stored its epoch never falls, and every transition raises it. -/
theorem Reachable.epoch_step (reachable : engine.Reachable) (operation : EngineOperation)
    (kept : ¬engine.DropsCircuit (engine.apply operation) candidateId routeKey) :
    (engine.circuitRuntime candidateId routeKey).epoch +
        (if engine.circuitTransition candidateId routeKey (engine.event operation) = .none then 0
          else 1) =
      ((engine.apply operation).circuitRuntime candidateId routeKey).epoch := by
  have transition := engine.apply_transition operation
  rcases transition.circuitChange candidateId routeKey with ⟨dropped, -⟩ | updates
  · exact absurd dropped kept
  · rw [updates.epoch]
    split
    · rfl
    next moves =>
      -- The settled lease was live, so the epoch is below the leases drawn.
      have room : (engine.circuitRuntime candidateId routeKey).epoch + 1 ≤ u64Max := by
        have bounded := reachable.epochsBounded candidateId routeKey
        have next := reachable.registered.next_le
        cases ended : (engine.event operation).ended with
        | none => exact absurd (circuitTransition_eq_none ended candidateId routeKey) moves
        | some lease =>
            have size := transition.leaseChange.ended_size ended
            omega
      exact (saturatingAdd_eq room).symm

end RotationEngine

end ZenithRelay.Scheduler.Rotation
