import ZenithRelay.Runtime.Attempt.Lease
import ZenithRelay.Scheduler.Rotation.Engine.RegistryProperties

/-!
# At-most-budgeted dispatch

Every step charges the shared budget once or not at all and never takes a replay
stop back; a lease that was started keeps its attempt until it is gone.
-/

set_option autoImplicit false

namespace ZenithRelay.Scheduler.Rotation

/-- Evidence that the work may have been executed. -/
def ExecutionObservation.stopsReplay (observation : ExecutionObservation) : Bool :=
  observation.certainty != .notSent || observation.commitStage == .responseCommitted

/-- What one step may do to the budget, beside the attempt and the wire attempt it
returns. -/
structure RequestBudget.Step (before after : RequestBudget) (attempt : Option AttemptId)
    (wireAttempt : Option Nat) : Prop where
  maxDispatches : after.maxDispatches = before.maxDispatches
  charged : (attempt = none ∧ after.dispatches = before.dispatches) ∨
    (attempt = some after.dispatches ∧ before.dispatches < before.maxDispatches ∧
      after.dispatches = saturatingAdd u8Max before.dispatches 1)
  stopped : before.replayStopped = true →
    after.replayStopped = true ∧ attempt = none ∧ wireAttempt = none

namespace RequestBudget

/-- A step that starts nothing and changes no counter. -/
theorem Step.silent {before after : RequestBudget}
    (maxDispatches : after.maxDispatches = before.maxDispatches)
    (dispatches : after.dispatches = before.dispatches)
    (stopped : before.replayStopped = true → after.replayStopped = true) :
    Step before after none none :=
  ⟨maxDispatches, .inl ⟨rfl, dispatches⟩, fun before => ⟨stopped before, rfl, rfl⟩⟩

private theorem startDispatch_step (budget : RequestBudget) (clock : ClockReadings) :
    Step budget (budget.startDispatch clock).1 (budget.startDispatch clock).2 none := by
  unfold startDispatch
  split
  next allowed =>
    unfold canDispatch at allowed
    simp only [Bool.and_eq_true, Bool.not_eq_true', decide_eq_true_eq] at allowed
    refine ⟨rfl, .inr ⟨rfl, allowed.2, rfl⟩, fun stopped => ?_⟩
    rw [allowed.1.1.1] at stopped
    cases stopped
  next => exact .silent rfl rfl id

private theorem startWireAttempt_step (budget : RequestBudget) (clock : ClockReadings) :
    Step budget (budget.startWireAttempt clock).1 none (budget.startWireAttempt clock).2 := by
  unfold startWireAttempt
  split
  next allowed =>
    unfold canStartWire at allowed
    simp only [Bool.and_eq_true, Bool.not_eq_true', decide_eq_true_eq] at allowed
    refine ⟨rfl, .inl ⟨rfl, rfl⟩, fun stopped => ?_⟩
    rw [allowed.1.1.1] at stopped
    cases stopped
  next => exact .silent rfl rfl id

private theorem observeExecution_step (budget : RequestBudget) (observation : ExecutionObservation)
    (now : Instant) : Step budget (budget.observeExecution observation now) none none := by
  unfold observeExecution
  dsimp only
  split
  next stops => exact .silent rfl rfl fun _ => stops
  next proceeds => exact .silent rfl rfl fun stopped => absurd (by simp [stopped]) proceeds

theorem observeExecution_stops (budget : RequestBudget) {observation : ExecutionObservation}
    (stops : observation.stopsReplay = true) (now : Instant) :
    (budget.observeExecution observation now).replayStopped = true := by
  unfold ExecutionObservation.stopsReplay at stops
  unfold observeExecution
  dsimp only
  rw [Bool.or_assoc, stops, Bool.or_true, if_pos rfl]

end RequestBudget

namespace RotationEngine

/-- The budget after a dispatch is the one its charge leaves. -/
theorem beginDispatchInternal_step (engine : RotationEngine) (leaseId : LeaseId)
    (budget : RequestBudget) (clock : ClockReadings) (allowRetainedLease : Bool) :
    budget.Step (engine.beginDispatchInternal leaseId budget clock allowRetainedLease).2.1
      (engine.beginDispatchInternal leaseId budget clock allowRetainedLease).2.2.toOption none := by
  rcases engine.beginDispatchInternal_cases leaseId budget clock allowRetainedLease with
    ⟨refusal, refused⟩ | ⟨pending, attemptId, -, -, charged, started⟩
  · rw [refused]
    exact .silent rfl rfl id
  · have step := budget.startDispatch_step clock
    rw [charged] at step
    rw [started]
    exact step

/-- The lease was started: whoever finds it live finds its attempt. -/
def Started (engine : RotationEngine) (leaseId : LeaseId) : Prop :=
  leaseId ≤ engine.nextLeaseId ∧
    ∀ lease, engine.leases[leaseId]? = some lease → lease.attemptId.isSome

variable {engine : RotationEngine} {leaseId : LeaseId}

theorem Started.step (started : engine.Started leaseId) (operation : EngineOperation) :
    (engine.apply operation).Started leaseId := by
  have change := engine.apply_leaseChange operation
  refine ⟨started.1.trans change.nextLeaseId_le, fun later stored => ?_⟩
  cases found : engine.leases[leaseId]? with
  | none =>
      rw [change.gone started.1 found] at stored
      cases stored
  | some earlier =>
      rcases change.same_or_dispatched started.1 found stored with rfl | ⟨attemptId, -, rfl⟩
      · exact started.2 _ found
      · rfl

/-- A dispatch that succeeds leaves its lease started. -/
private theorem dispatched_started (registered : Registered engine) {operation : EngineOperation}
    (shown : (engine.event operation).dispatchedLease = some leaseId) :
    (engine.apply operation).Started leaseId := by
  cases event : engine.event operation with
  | dispatched pending attemptId =>
      have change := engine.apply_leaseChange operation
      rw [event] at shown change
      cases shown
      cases change with
      | same quiet => rcases quiet with quiet | ⟨policy, quiet⟩ <;> cases quiet
      | record other _ _ found leases nextId =>
          rw [registered.lease_id found]
          refine ⟨nextId ▸ registered.lease_id_le found, fun lease stored => ?_⟩
          rw [leases, BTreeMap.lookup_insert, if_pos rfl] at stored
          cases stored
          rfl
      | erase other lease ended => cases ended
  | _ =>
      rw [event] at shown
      cases shown

/-- Only a retained lease starts again. -/
theorem Started.refused (started : engine.Started leaseId) (budget : RequestBudget)
    (clock : ClockReadings) :
    ∃ refusal, engine.beginDispatchInternal leaseId budget clock false =
      (engine, budget, .error refusal) := by
  rcases engine.beginDispatchInternal_cases leaseId budget clock false with
    refused | ⟨pending, attemptId, found, allowed, -, -⟩
  · exact refused
  · obtain ⟨previous, attempt⟩ := Option.isSome_iff_exists.mp (started.2 pending found)
    unfold dispatchRefusal at allowed
    simp only [attempt, Option.any_some, Bool.not_false, Bool.true_or, ↓reduceIte] at allowed
    split at allowed <;> cases allowed

end RotationEngine

end ZenithRelay.Scheduler.Rotation

namespace ZenithRelay.Runtime

open Scheduler.Rotation

namespace RequestRuntime

variable {runtime : RequestRuntime} {operations : List RequestOperation}

/-- One step charges once or not at all, and keeps a replay stop. -/
theorem apply_step (runtime : RequestRuntime) (operation : RequestOperation) :
    runtime.shared.budget.Step (runtime.apply operation).shared.budget (runtime.attempt operation)
      (runtime.wireAttempt operation) := by
  cases operation with
  | beginDispatch leaseId clock => exact runtime.engine.beginDispatchInternal_step leaseId _ clock _
  | beginTransportDispatch leaseId clock =>
      exact runtime.engine.beginDispatchInternal_step leaseId _ clock _
  | startWireAttempt clock => exact runtime.shared.budget.startWireAttempt_step clock
  | observeExecution observation now =>
      exact runtime.shared.budget.observeExecution_step observation now
  | _ => exact .silent rfl rfl id

/-- The scheduler moves by its own operations, also under the budget. -/
theorem apply_engine (runtime : RequestRuntime) (operation : RequestOperation) :
    (runtime.apply operation).engine =
      ((runtime.engineOperation operation).map runtime.engine.apply).getD runtime.engine := by
  cases operation <;> rfl

private theorem apply_reachable (reachable : runtime.engine.Reachable) (operation : RequestOperation) :
    (runtime.apply operation).engine.Reachable := by
  rw [apply_engine]
  cases runtime.engineOperation operation with
  | none => exact reachable
  | some operation => exact reachable.next operation

theorem attempts_cons (runtime : RequestRuntime) (operation : RequestOperation)
    (operations : List RequestOperation) :
    runtime.attempts (operation :: operations) =
      (runtime.attempt operation).toList ++ (runtime.apply operation).attempts operations := rfl

private theorem wireAttempts_cons (runtime : RequestRuntime) (operation : RequestOperation)
    (operations : List RequestOperation) :
    runtime.wireAttempts (operation :: operations) =
      (runtime.wireAttempt operation).toList ++
        (runtime.apply operation).wireAttempts operations := rfl

/-- The attempts of a run count on from the dispatches before it, up to the limit. -/
private theorem attempts_run (within : runtime.shared.budget.dispatches ≤ runtime.shared.budget.maxDispatches)
    (fits : runtime.shared.budget.maxDispatches ≤ u8Max) :
    runtime.attempts operations =
        List.range' (runtime.shared.budget.dispatches + 1) (runtime.attempts operations).length ∧
      runtime.shared.budget.dispatches + (runtime.attempts operations).length ≤
        runtime.shared.budget.maxDispatches := by
  induction operations generalizing runtime with
  | nil => exact ⟨rfl, within⟩
  | cons operation operations ih =>
      have step := runtime.apply_step operation
      rw [attempts_cons]
      rcases step.charged with ⟨silent, same⟩ | ⟨returned, room, charged⟩
      · rw [silent]
        have rest := ih (by rw [same, step.maxDispatches]; exact within)
          (by rw [step.maxDispatches]; exact fits)
        rw [same, step.maxDispatches] at rest
        exact rest
      · rw [saturatingAdd_eq (Nat.succ_le_of_lt (room.trans_le fits))] at charged
        obtain ⟨counted, bounded⟩ := ih (by rw [charged, step.maxDispatches]; exact room)
          (by rw [step.maxDispatches]; exact fits)
        rw [charged] at counted bounded returned
        rw [step.maxDispatches] at bounded
        rw [returned, Option.toList_some, List.singleton_append, List.length_cons,
          List.range'_succ]
        exact ⟨congrArg _ counted, by omega⟩

/-- A stopped budget starts nothing any more. -/
private theorem stopped_run (stopped : runtime.shared.budget.replayStopped = true) :
    runtime.attempts operations = [] ∧ runtime.wireAttempts operations = [] := by
  induction operations generalizing runtime with
  | nil => exact ⟨rfl, rfl⟩
  | cons operation operations ih =>
      obtain ⟨still, noAttempt, noWire⟩ := (runtime.apply_step operation).stopped stopped
      obtain ⟨attempts, wires⟩ := ih still
      rw [attempts_cons, wireAttempts_cons, noAttempt, noWire, attempts, wires]
      exact ⟨rfl, rfl⟩

/-- A lease stays started along every run. -/
private theorem started_run {leaseId : LeaseId} (started : runtime.engine.Started leaseId)
    (operations : List RequestOperation) :
    (runtime.runOperations operations).engine.Started leaseId :=
  Execution.run_invariant (fun runtime : RequestRuntime => runtime.engine.Started leaseId)
    (fun runtime operation started => by
      rw [apply_engine]
      cases runtime.engineOperation operation with
      | none => exact started
      | some operation => exact started.step operation)
    started operations

/-- Every lease a run starts is started at its end. -/
private theorem startedLeases_started (reachable : runtime.engine.Reachable) {leaseId : LeaseId}
    (member : leaseId ∈ runtime.startedLeases operations) :
    (runtime.runOperations operations).engine.Started leaseId := by
  induction operations generalizing runtime with
  | nil => cases member
  | cons operation operations ih =>
      rcases List.mem_append.mp member with head | tail
      · refine started_run ?_ operations
        dsimp only at head
        rw [apply_engine]
        cases step : runtime.engineOperation operation with
        | none =>
            rw [step] at head
            cases head
        | some operation =>
            rw [step] at head
            exact RotationEngine.dispatched_started reachable.registered (Option.mem_toList.mp head)
      · exact ih (apply_reachable reachable operation) tail

/-- One budget over any run of its request: the attempt ids are drawn in order from
one up to the limit; `begin_dispatch` starts a lease only if nothing started it
before; and after evidence that the work may have been executed neither a dispatch
nor a wire attempt of the budget succeeds again. -/
theorem dispatches_within_budget {requestId : RequestId} {maxDispatches maxWireAttempts : Nat}
    (fits : maxDispatches ≤ u8Max)
    (fresh : RequestBudget.withLimits requestId maxDispatches maxWireAttempts =
      some runtime.shared.budget) (operations : List RequestOperation) :
    (runtime.attempts operations = List.range' 1 (runtime.attempts operations).length ∧
      (runtime.attempts operations).length ≤ maxDispatches) ∧
    (runtime.engine.Reachable →
      ∀ (before after : List RequestOperation) (leaseId : LeaseId) (clock : ClockReadings),
        operations = before ++ .beginDispatch leaseId clock :: after →
        ((runtime.runOperations before).attempt (.beginDispatch leaseId clock)).isSome →
          leaseId ∉ runtime.startedLeases before) ∧
    ∀ (before after : List RequestOperation) (observation : ExecutionObservation) (now : Instant),
      operations = before ++ .observeExecution observation now :: after →
      observation.stopsReplay = true →
        ((runtime.runOperations before).apply (.observeExecution observation now)).attempts
            after = [] ∧
          ((runtime.runOperations before).apply
            (.observeExecution observation now)).wireAttempts after = [] := by
  obtain ⟨none, most⟩ : runtime.shared.budget.dispatches = 0 ∧
      runtime.shared.budget.maxDispatches = maxDispatches := by
    unfold RequestBudget.withLimits at fresh
    split at fresh
    · rw [← Option.some.inj fresh]
      exact ⟨rfl, rfl⟩
    · cases fresh
  refine ⟨?_, ?_, ?_⟩
  · have counted := @attempts_run _ operations (by rw [none]; exact Nat.zero_le _)
      (most ▸ fits)
    rw [none, most, Nat.zero_add, Nat.zero_add] at counted
    exact counted
  · intro reachable before after leaseId clock split succeeds started
    obtain ⟨refusal, refused⟩ := (startedLeases_started reachable started).refused
      (runtime.runOperations before).shared.budget clock
    change ((runtime.runOperations before).engine.beginDispatchInternal leaseId
      (runtime.runOperations before).shared.budget clock false).2.2.toOption.isSome at succeeds
    rw [refused] at succeeds
    cases succeeds
  · intro before after observation now split stops
    exact stopped_run (RequestBudget.observeExecution_stops _ stops now)

/-- An unknown outcome ends the request, whatever is reconfigured after it. -/
theorem dispatches_within_budget_unknown :
    let runtime : RequestRuntime := ⟨RotationEngine.default.runOperations
      [.upsert (.create "a" "r" "m"), .reserve (.create 1 "r" "m") 0], .ofBudget (.defaultFor 1)⟩
    runtime.attempts [.beginDispatch 1 ⟨0, 0⟩, .beginTransportDispatch 1 ⟨0, 0⟩] =
        List.range' 1 2 ∧
      (runtime.apply (.observeExecution .unknown 0)).attempts [.configureRetryWindow 1000 true,
        .beginRecoveryPass, .allowMemberRepair "a", .beginDispatch 1 ⟨0, 0⟩] = [] := by
  intro runtime
  have fresh : RequestBudget.withLimits 1 3 3 = some runtime.shared.budget := rfl
  exact ⟨(dispatches_within_budget (by decide) fresh
      [.beginDispatch 1 ⟨0, 0⟩, .beginTransportDispatch 1 ⟨0, 0⟩]).1.1.trans
        (congrArg (List.range' 1) (by decide +kernel)),
    ((dispatches_within_budget (by decide) fresh _).2.2 [] _ .unknown 0 rfl rfl).1⟩

/-- A lease that `begin_dispatch` started is started again by the transport that
retained it. -/
theorem retained_lease_started_twice :
    ¬∀ (runtime : RequestRuntime) (operations before after : List RequestOperation)
      (leaseId : LeaseId) (clock : ClockReadings),
      runtime.engine.Reachable →
      RequestBudget.withLimits 1 3 3 = some runtime.shared.budget →
      operations = before ++ .beginDispatch leaseId clock :: after →
      ((runtime.runOperations before).attempt (.beginDispatch leaseId clock)).isSome →
        (runtime.startedLeases operations).count leaseId ≤ 1 := by
  intro once
  have counted := once ⟨RotationEngine.default.runOperations
      [.upsert (.create "a" "r" "m"), .reserve (.create 1 "r" "m") 0], .ofBudget (.defaultFor 1)⟩
    [.beginDispatch 1 ⟨0, 0⟩, .beginTransportDispatch 1 ⟨0, 0⟩] [] _ 1 ⟨0, 0⟩ ⟨_, rfl⟩ rfl rfl rfl
  revert counted
  decide +kernel

end RequestRuntime

theorem RunsTo.stopped {runtime after : RequestRuntime} (runs : RunsTo runtime after)
    (stopped : runtime.shared.budget.replayStopped = true) :
    after.shared.budget.replayStopped = true :=
  Execution.Reachable.invariant
    (fun runtime : RequestRuntime => runtime.shared.budget.replayStopped = true) runs stopped
    fun runtime operation stopped => ((runtime.apply_step operation).stopped stopped).1

namespace CandidateLease

variable {runtime : RequestRuntime} {lease : CandidateLease}

/-- No use of any lease of the request takes a replay stop back. -/
theorem keeps_stop (stopped : runtime.shared.budget.replayStopped = true) :
    (∀ attempt, (lease.beginRotationDispatchWithWire runtime
      attempt).1.shared.budget.replayStopped = true) ∧
    (∀ observation now clock nowMs firstOutputLatencyMs,
      (lease.settleRotationWithLatency runtime observation now clock nowMs
        firstOutputLatencyMs).1.shared.budget.replayStopped = true) ∧
    ∀ now clock nowMs, (lease.release runtime now clock nowMs).1.shared.budget.replayStopped =
      true :=
  ⟨fun attempt => (lease.beginRotationDispatchWithWire_runs runtime attempt).stopped stopped,
    fun observation now clock nowMs firstOutputLatencyMs =>
      (lease.settleRotationWithLatency_runs runtime observation now clock nowMs
        firstOutputLatencyMs).stopped stopped,
    fun now clock nowMs => (lease.release_runs runtime now clock nowMs).stopped stopped⟩

/-- No lease of a stopped budget starts anything more. -/
theorem stopped_refuses (stopped : runtime.shared.budget.replayStopped = true)
    (attempt : LeaseDispatch) (attemptId : AttemptId) :
    (lease.beginRotationDispatchWithWire runtime attempt).2.2 ≠ some (.ok attemptId) := by
  unfold beginRotationDispatchWithWire
  split
  next => exact nofun
  split
  next => exact nofun
  dsimp only
  split
  next => exact nofun
  next after started result =>
    have step := RequestRuntime.apply_step
      { runtime with engine := runtime.engine.runOperations attempt.syncs }
      (.beginTransportDispatch lease.leaseId attempt.dispatch)
    have none := (step.stopped stopped).2.1
    unfold RequestRuntime.attempt at none
    dsimp only at none
    rw [result] at none
    cases none

/-- A started lease that is released without a result stops the replay of its request. -/
theorem release_stops (started : lease.rotationStarted = true)
    (unsettled : lease.rotationSettled = false) (now : Instant) (clock : ClockReadings)
    (nowMs : Nat) :
    (lease.release runtime now clock nowMs).1.shared.budget.replayStopped = true := by
  unfold release
  rw [if_neg (by rw [unsettled]; nofun), started]
  exact RequestBudget.observeExecution_stops _ rfl now

/-- So does a settlement whose work may have been executed, accepted or not. -/
theorem settle_stops (unsettled : lease.rotationSettled = false)
    {observation : AttemptObservation} (stops : observation.execution.stopsReplay = true)
    (now : Instant) (clock : ClockReadings) (nowMs : Nat) (firstOutputLatencyMs : Option Nat) :
    (lease.settleRotationWithLatency runtime observation now clock nowMs
      firstOutputLatencyMs).1.shared.budget.replayStopped = true := by
  unfold settleRotationWithLatency
  rw [if_neg (by rw [unsettled]; nofun)]
  dsimp only
  split <;> exact RequestBudget.observeExecution_stops _ stops now

end CandidateLease

end ZenithRelay.Runtime
