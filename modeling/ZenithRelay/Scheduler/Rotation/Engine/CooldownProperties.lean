import ZenithRelay.Scheduler.Rotation.Engine.CircuitProperties

/-!
# Cooldowns

A cooldown is shortened, or a circuit closed, only by the success of a lease that
was reserved after the last counted failure and the last recovery abort.
-/

set_option autoImplicit false

namespace ZenithRelay.Scheduler.Rotation

theorem Transition.reserved_epoch {engine after : RotationEngine} {initial : LeaseRuntime}
    (transition : Transition engine (.reserved initial) after) :
    initial.circuitEpoch =
      (engine.circuitRuntime initial.candidateId initial.routeKey).epoch := by
  cases transition with
  | reserve admission => rfl

private theorem Transition.settled_found {engine after : RotationEngine} {settlement : Settlement}
    (transition : Transition engine (.settled settlement) after) :
    ∃ leaseId : LeaseId, engine.leases[leaseId]? = some settlement.lease := by
  cases transition with
  | settle leaseId settlement found dispatched => exact ⟨leaseId, found⟩

namespace RotationEngine

variable {engine : RotationEngine} {candidateId routeKey : String}

/-- The wait got shorter, or the circuit was closed. -/
def ShortensCooldown (before after : CircuitSnapshot) : Prop :=
  ¬before.notBeforeMs ≤ after.notBeforeMs ∨ (before.state ≠ .closed ∧ after.state = .closed)

/-- The operation neither counts a failure nor aborts a recovery on the circuit. -/
def SparesCircuit (candidateId routeKey : String) (engine : RotationEngine)
    (operation : EngineOperation) : Prop :=
  engine.circuitTransition candidateId routeKey (engine.event operation) ≠ .failure ∧
    engine.circuitTransition candidateId routeKey (engine.event operation) ≠ .recoveryAbort

/-- The operation leaves the circuit in the registry. -/
def KeepsCircuit (candidateId routeKey : String) (engine : RotationEngine)
    (operation : EngineOperation) : Prop :=
  ¬engine.DropsCircuit (engine.apply operation) candidateId routeKey

/-- A run that keeps a circuit never lowers its epoch, and one that leaves the epoch
where it was counted no failure and aborted no recovery. -/
private theorem epoch_run (reachable : engine.Reachable) {operations : List EngineOperation}
    (kept : Execution.Along apply (KeepsCircuit candidateId routeKey) engine operations) :
    (engine.circuitRuntime candidateId routeKey).epoch ≤
        ((engine.runOperations operations).circuitRuntime candidateId routeKey).epoch ∧
      (((engine.runOperations operations).circuitRuntime candidateId routeKey).epoch ≤
          (engine.circuitRuntime candidateId routeKey).epoch →
        Execution.Along apply (SparesCircuit candidateId routeKey) engine operations) := by
  induction operations generalizing engine with
  | nil => exact ⟨Nat.le_refl _, fun _ => trivial⟩
  | cons operation operations ih =>
      have step := reachable.epoch_step operation kept.1
      obtain ⟨rises, spares⟩ := ih (reachable.next operation) kept.2
      rw [runOperations_cons]
      refine ⟨by omega, fun level => ?_⟩
      have still : engine.circuitTransition candidateId routeKey (engine.event operation) =
          .none := by
        by_contra moves
        rw [if_neg moves] at step
        omega
      rw [if_pos still] at step
      refine ⟨⟨?_, ?_⟩, spares (by omega)⟩ <;> rw [still] <;> nofun

/-- Only a current success of the circuit's epoch shortens a cooldown. -/
private theorem shortened_by_success {operation : EngineOperation}
    (kept : KeepsCircuit candidateId routeKey engine operation)
    (shortened : ShortensCooldown (engine.circuit candidateId routeKey)
      ((engine.apply operation).circuit candidateId routeKey)) :
    ∃ settlement, engine.event operation = .settled settlement ∧
      settlement.health = .success ∧ settlement.lease.candidateId = candidateId ∧
        settlement.lease.routeKey = routeKey ∧
          (engine.circuitRuntime candidateId routeKey).epoch = settlement.lease.circuitEpoch := by
  have transition := engine.apply_transition operation
  rcases transition.circuitChange candidateId routeKey with ⟨dropped, -⟩ | updates
  · exact absurd dropped kept
  · have success : engine.circuitTransition candidateId routeKey (engine.event operation) =
        .success := by
      by_contra other
      rcases shortened with shorter | ⟨waiting, closed⟩
      · exact shorter (updates.notBefore other)
      · exact waiting (updates.closed other closed)
    cases shown : engine.event operation with
    | settled settlement =>
        rw [shown] at success
        unfold circuitTransition at success
        dsimp only at success
        split at success
        next own =>
          refine ⟨settlement, rfl, ?_, own.1, own.2.1, ?_⟩
          all_goals
            unfold CircuitRuntime.transition at success
            split at success
            · cases success
          · cases health : settlement.health with
            | success => rfl
            | countableTransient providerNotBeforeMs =>
                simp only [health] at success
                split at success <;> cases success
            | _ =>
                simp only [health] at success
                split at success <;> cases success
          · cases health : settlement.health with
            | success =>
                simp only [health] at success
                split at success
                next current => exact current
                next => cases success
            | countableTransient providerNotBeforeMs =>
                simp only [health] at success
                split at success <;> cases success
            | _ =>
                simp only [health] at success
                split at success <;> cases success
        next => cases success
    | _ =>
        rw [shown] at success
        cases success

/-- A reservation notes the epoch its circuit has then. -/
theorem reserved_epoch {operation : EngineOperation} {initial : LeaseRuntime}
    (shown : engine.event operation = .reserved initial) (candidateId routeKey : String)
    (candidate : initial.candidateId = candidateId) (route : initial.routeKey = routeKey) :
    initial.circuitEpoch =
      ((engine.apply operation).circuitRuntime candidateId routeKey).epoch := by
  have transition := engine.apply_transition operation
  rw [shown] at transition
  have epoch := transition.reserved_epoch
  rw [candidate, route] at epoch
  rcases transition.circuitChange candidateId routeKey with ⟨-, quiet⟩ | updates
  · cases quiet
  · rw [epoch, updates.epoch]
    rfl

/-- In a run of any length and order, an operation that does not drop the circuit
shortens its cooldown or closes it only as the success of a lease of that circuit,
and then nothing was counted against the circuit since the lease was reserved,
unless the circuit was dropped in between. -/
theorem cooldown_shortened_only_by_fresh_success (candidateId routeKey : String)
    (operations : List EngineOperation) (operation : EngineOperation)
    (kept : KeepsCircuit candidateId routeKey (RotationEngine.default.runOperations operations)
      operation)
    (shortened : ShortensCooldown
      ((RotationEngine.default.runOperations operations).circuit candidateId routeKey)
      (((RotationEngine.default.runOperations operations).apply operation).circuit candidateId
        routeKey)) :
    ∃ settlement,
      (RotationEngine.default.runOperations operations).event operation = .settled settlement ∧
      settlement.health = .success ∧ settlement.lease.candidateId = candidateId ∧
      settlement.lease.routeKey = routeKey ∧
      ∃ initial earlier request nowMs later,
        ReservedAt operations settlement.lease.leaseId initial earlier request nowMs later ∧
          (Execution.Along apply (KeepsCircuit candidateId routeKey)
              (RotationEngine.default.runOperations (earlier ++ [.reserve request nowMs])) later →
            Execution.Along apply (SparesCircuit candidateId routeKey)
              (RotationEngine.default.runOperations (earlier ++ [.reserve request nowMs]))
              later) := by
  obtain ⟨settlement, shown, success, candidate, route, epoch⟩ :=
    shortened_by_success kept shortened
  refine ⟨settlement, shown, success, candidate, route, ?_⟩
  have reachable : (RotationEngine.default.runOperations operations).Reachable := ⟨operations, rfl⟩
  have live : (RotationEngine.default.runOperations operations).leases[
      settlement.lease.leaseId]? = some settlement.lease := by
    have transition := apply_transition (RotationEngine.default.runOperations operations) operation
    rw [shown] at transition
    obtain ⟨leaseId, found⟩ := transition.settled_found
    rw [reachable.registered.lease_id found]
    exact found
  obtain ⟨initial, earlier, request, nowMs, later, reserved, same⟩ := live_lease_reserved live
  refine ⟨initial, earlier, request, nowMs, later, reserved, fun keeps => ?_⟩
  have start := reserved_epoch reserved.shown candidateId routeKey
    (same.candidateId.symm.trans candidate) (same.routeKey.symm.trans route)
  have reachableStart : (RotationEngine.default.runOperations
      (earlier ++ [.reserve request nowMs])).Reachable := ⟨_, rfl⟩
  obtain ⟨-, spares⟩ := epoch_run reachableStart keeps
  refine spares ?_
  rw [← runOperations_append, List.append_assoc, List.singleton_append, ← reserved.split, epoch,
    same.circuitEpoch, start, runOperations_append]
  exact Nat.le_refl _

/-- The trial after a failure closes the circuit when it succeeds. -/
theorem cooldown_shortened_by_trial :
    let engine := RotationEngine.default.runOperations [.upsert (.create "a" "r" "m"),
      .reserve (.create 1 "r" "m") 0, .beginDispatch 1 (.defaultFor 1) ⟨0, 0⟩,
      .settle 1 ⟨.notSent, .countableTransient none⟩ (.defaultFor 1) ⟨0, 0⟩ 0,
      .reserve (.create 2 "r" "m") 1000, .beginDispatch 2 (.defaultFor 2) ⟨0, 0⟩]
    ∃ settlement, settlement.health = .success ∧
      engine.event (.settle 2 ⟨.accepted, .success⟩ (.defaultFor 2) ⟨0, 0⟩ 1500) =
        .settled settlement := by
  intro engine
  have kept : KeepsCircuit "a" "r" engine
      (.settle 2 ⟨.accepted, .success⟩ (.defaultFor 2) ⟨0, 0⟩ 1500) := fun dropped => by
    cases dropped.2
  obtain ⟨settlement, shown, success, -⟩ := cooldown_shortened_only_by_fresh_success
    "a" "r" _ _ kept (.inr ⟨by decide +kernel, rfl⟩)
  exact ⟨settlement, success, shown⟩

end RotationEngine

end ZenithRelay.Scheduler.Rotation
