import ZenithRelay.Foundations.Execution
import ZenithRelay.Scheduler.Rotation.Engine.Lifecycle

/-!
# Operations

The engine as a state machine: its operations, the runs from the default engine,
and one inversion that says what an operation can do. Invariants are proved by
cases on that inversion and never unfold an operation.
-/

set_option autoImplicit false

namespace ZenithRelay.Scheduler.Rotation

inductive EngineOperation where
  | setMode (mode : RotationMode)
  | setQuotaStaleAfterMs (staleAfterMs : Nat)
  | setMaxInFlight (maxInFlight : Nat)
  | setRecoveryPolicy (policy : RecoveryPolicy)
  | upsert (candidate : RotationCandidate)
  | remove (candidateId : String)
  | syncCandidateState (candidateId : String) (enabled draining : Bool) (auth : AuthState)
      (quota : QuotaState) (rate : RateState)
  | syncCandidateRouteRate (candidateId routeKey : String) (rate : RateState)
  | setAuth (candidateId : String) (auth : AuthState)
  | setQuota (candidateId : String) (quota : QuotaState)
  | setQuotaIfNewer (candidateId : String) (quota : QuotaState) (revision : Nat)
  | setQuotaRemaining (candidateId : String) (remainingBasisPoints observedAtMs : Option Nat)
  | setProviderCredits (candidateId : String) (creditsMicroUnits : Option Nat) (unlimited : Bool)
      (observedAtMs : Option Nat)
  | setRate (candidateId : String) (rate : RateState)
  | setEnabled (candidateId : String) (enabled : Bool)
  | reserve (request : RotationRequest) (nowMs : Nat)
  | releaseUnstarted (leaseId : LeaseId)
  | beginDispatch (leaseId : LeaseId) (budget : RequestBudget) (clock : ClockReadings)
  | beginTransportDispatch (leaseId : LeaseId) (budget : RequestBudget) (clock : ClockReadings)
  | settleWithLatency (leaseId : LeaseId) (observation : AttemptObservation)
      (budget : RequestBudget) (clock : ClockReadings) (nowMs : Nat)
      (firstOutputLatencyMs : Option Nat)
  | settle (leaseId : LeaseId) (observation : AttemptObservation) (budget : RequestBudget)
      (clock : ClockReadings) (nowMs : Nat)
  | cancel (leaseId : LeaseId) (budget : RequestBudget) (clock : ClockReadings) (nowMs : Nat)

/-- The outcome of one lease, as a settlement that was accepted reports it. -/
structure Settlement where
  lease : LeaseRuntime
  health : HealthObservation
  nowMs : Nat
  firstOutputLatencyMs : Option Nat
  deriving DecidableEq, Repr

/-- What an operation did to a lease or to the recovery policy, if it succeeded. -/
inductive EngineEvent where
  | quiet
  | recoveryPolicySet (policy : RecoveryPolicy)
  | reserved (lease : LeaseRuntime)
  | dispatched (pending : LeaseRuntime) (attemptId : AttemptId)
  | released (lease : LeaseRuntime)
  | settled (settlement : Settlement)
  deriving DecidableEq, Repr

/-- The lease an event starts. -/
def EngineEvent.dispatchedLease : EngineEvent → Option LeaseId
  | .dispatched pending _ => some pending.leaseId
  | .quiet | .recoveryPolicySet _ | .reserved _ | .released _ | .settled _ => none

namespace RotationEngine

/-- The engine after one operation; its result is not part of the state. -/
def apply (engine : RotationEngine) : EngineOperation → RotationEngine
  | .setMode mode => engine.setMode mode
  | .setQuotaStaleAfterMs staleAfterMs => engine.setQuotaStaleAfterMs staleAfterMs
  | .setMaxInFlight maxInFlight => (engine.setMaxInFlight maxInFlight).1
  | .setRecoveryPolicy policy => engine.setRecoveryPolicy policy
  | .upsert candidate => (engine.upsert candidate).1
  | .remove candidateId => (engine.remove candidateId).1
  | .syncCandidateState candidateId enabled draining auth quota rate =>
    (engine.syncCandidateState candidateId enabled draining auth quota rate).1
  | .syncCandidateRouteRate candidateId routeKey rate =>
    (engine.syncCandidateRouteRate candidateId routeKey rate).1
  | .setAuth candidateId auth => (engine.setAuth candidateId auth).1
  | .setQuota candidateId quota => (engine.setQuota candidateId quota).1
  | .setQuotaIfNewer candidateId quota revision =>
    (engine.setQuotaIfNewer candidateId quota revision).1
  | .setQuotaRemaining candidateId remainingBasisPoints observedAtMs =>
    (engine.setQuotaRemaining candidateId remainingBasisPoints observedAtMs).1
  | .setProviderCredits candidateId creditsMicroUnits unlimited observedAtMs =>
    (engine.setProviderCredits candidateId creditsMicroUnits unlimited observedAtMs).1
  | .setRate candidateId rate => (engine.setRate candidateId rate).1
  | .setEnabled candidateId enabled => (engine.setEnabled candidateId enabled).1
  | .reserve request nowMs => (engine.reserve request nowMs).1
  | .releaseUnstarted leaseId => (engine.releaseUnstarted leaseId).1
  | .beginDispatch leaseId budget clock => (engine.beginDispatch leaseId budget clock).1
  | .beginTransportDispatch leaseId budget clock =>
    (engine.beginTransportDispatch leaseId budget clock).1
  | .settleWithLatency leaseId observation budget clock nowMs firstOutputLatencyMs =>
    (engine.settleWithLatency leaseId observation budget clock nowMs firstOutputLatencyMs).1
  | .settle leaseId observation budget clock nowMs =>
    (engine.settle leaseId observation budget clock nowMs).1
  | .cancel leaseId budget clock nowMs => (engine.cancel leaseId budget clock nowMs).1

def reserveEvent (engine : RotationEngine) (request : RotationRequest) (nowMs : Nat) :
    EngineEvent :=
  match engine.reserve request nowMs with
  | (after, .ok reserved) => ((after.leases[reserved.leaseId]?).map .reserved).getD .quiet
  | (_, .error _) => .quiet

def releaseEvent (engine : RotationEngine) (leaseId : LeaseId) : EngineEvent :=
  match engine.leases[leaseId]?, engine.releaseUnstarted leaseId with
  | some lease, (_, true) => .released lease
  | _, _ => .quiet

def dispatchEvent (engine : RotationEngine) (leaseId : LeaseId) (budget : RequestBudget)
    (clock : ClockReadings) (allowRetainedLease : Bool) : EngineEvent :=
  match engine.leases[leaseId]?,
    engine.beginDispatchInternal leaseId budget clock allowRetainedLease with
  | some pending, (_, _, .ok attemptId) => .dispatched pending attemptId
  | _, _ => .quiet

def settleEvent (engine : RotationEngine) (leaseId : LeaseId) (observation : AttemptObservation)
    (budget : RequestBudget) (clock : ClockReadings) (nowMs : Nat)
    (firstOutputLatencyMs : Option Nat) : EngineEvent :=
  match engine.leases[leaseId]?,
    engine.settleWithLatency leaseId observation budget clock nowMs firstOutputLatencyMs with
  | some lease, (_, .ok _) =>
    .settled { lease, health := observation.health, nowMs, firstOutputLatencyMs }
  | _, _ => .quiet

/-- What an operation shows, read off its result. -/
def event (engine : RotationEngine) : EngineOperation → EngineEvent
  | .setRecoveryPolicy policy => .recoveryPolicySet policy
  | .reserve request nowMs => engine.reserveEvent request nowMs
  | .releaseUnstarted leaseId => engine.releaseEvent leaseId
  | .beginDispatch leaseId budget clock => engine.dispatchEvent leaseId budget clock false
  | .beginTransportDispatch leaseId budget clock => engine.dispatchEvent leaseId budget clock true
  | .settleWithLatency leaseId observation budget clock nowMs firstOutputLatencyMs =>
    engine.settleEvent leaseId observation budget clock nowMs firstOutputLatencyMs
  | .settle leaseId observation budget clock nowMs =>
    engine.settleEvent leaseId observation budget clock nowMs none
  | .cancel leaseId budget clock nowMs =>
    engine.settleEvent leaseId ⟨.unknown, .cancelled⟩ budget clock nowMs none
  | _ => .quiet

/-- The engine after a list of operations. -/
abbrev runOperations (engine : RotationEngine) (operations : List EngineOperation) :
    RotationEngine :=
  Execution.run apply engine operations

@[simp] theorem runOperations_nil (engine : RotationEngine) : engine.runOperations [] = engine :=
  rfl

@[simp] theorem runOperations_cons (engine : RotationEngine) (operation : EngineOperation)
    (operations : List EngineOperation) :
    engine.runOperations (operation :: operations) =
      (engine.apply operation).runOperations operations := rfl

theorem runOperations_append (engine : RotationEngine) (first second : List EngineOperation) :
    engine.runOperations (first ++ second) =
      (engine.runOperations first).runOperations second :=
  Execution.run_append apply engine first second

/-- Reachable from the default engine by any operations in any order. -/
abbrev Reachable (engine : RotationEngine) : Prop :=
  Execution.Reachable apply RotationEngine.default engine

theorem Reachable.next {engine : RotationEngine} (reachable : engine.Reachable)
    (operation : EngineOperation) : (engine.apply operation).Reachable :=
  Execution.Reachable.next apply reachable operation

theorem Reachable.run {engine : RotationEngine} (reachable : engine.Reachable)
    (operations : List EngineOperation) : (engine.runOperations operations).Reachable :=
  Execution.Reachable.extend apply reachable operations

end RotationEngine

/-- What an observation setter leaves alone in a stored record. -/
structure KeepsRegistration (before after : RotationCandidate) : Prop where
  id : after.id = before.id
  capacityKey : after.capacityKey = before.capacityKey
  priority : after.priority = before.priority
  weight : after.weight = before.weight
  maxConcurrency : after.maxConcurrency = before.maxConcurrency
  capacityLimit : after.capacityLimit = before.capacityLimit
  routes : after.routes = before.routes

/-- The reservation of one lease, with everything `reserve` checked before it. -/
structure Admission (engine : RotationEngine) (request : RotationRequest) (nowMs : Nat)
    (group : List ReadyCandidate) (selected : ReadyCandidate) (runtime : CandidateRuntime) :
    Prop where
  group_eq : group =
    engine.selectionGroup (engine.selectionCandidates request nowMs).1 request nowMs
  chosen : engine.chooseForRequest request group = some selected
  available : ∃ recovery, engine.candidateAvailability request selected.id nowMs = .ready recovery
  found : engine.candidates[selected.id]? = some runtime
  concurrency : runtime.candidate.maxConcurrency = 0 ∨
    runtime.inFlight < runtime.candidate.maxConcurrency
  leaseRoom : engine.nextLeaseId < u64Max
  recoveryRoom : selected.recovery → engine.recoveryInFlight < engine.recoveryPolicy.maxInFlight
  gateFree : selected.recovery →
    (engine.circuitRuntime selected.id request.routeKey).halfOpenLease = none

/-- The step relation of the engine, one constructor for each kind of change, under
the event that shows it. -/
inductive Transition (engine : RotationEngine) : EngineEvent → RotationEngine → Prop where
  /-- Settings; nothing when the operation was refused. -/
  | configure (mode : RotationMode) (maxInFlight : Nat) (staleAfterMs : Nat)
      (rotationCredit : BTreeMap (String × String) Int) :
      maxInFlight = engine.maxInFlight ∨ (1 ≤ maxInFlight ∧ maxInFlight ≤ 65536) →
      Transition engine .quiet { engine with
        mode, maxInFlight, quotaStaleAfterMs := staleAfterMs, rotationCredit }
  | recoveryPolicy (policy : RecoveryPolicy) :
      Transition engine (.recoveryPolicySet policy) (engine.setRecoveryPolicy policy)
  | edit (candidateId : String) (edit : RotationCandidate → RotationCandidate)
      (quotaRevisions : BTreeMap String Nat) :
      (∀ candidate, KeepsRegistration candidate (edit candidate)) →
      Transition engine .quiet { (engine.editCandidate candidateId edit).1 with quotaRevisions }
  | install (candidate : RotationCandidate) :
      candidate.validate = .ok () → engine.candidates[candidate.id]? = none →
      engine.nextCandidateGeneration < u64Max →
      Transition engine .quiet
        ((engine.installCandidate candidate).recomputeCapacityLimit candidate.capacityKey)
  | replace (candidate : RotationCandidate) (runtime : CandidateRuntime) :
      candidate.validate = .ok () → engine.candidates[candidate.id]? = some runtime →
      Transition engine .quiet
        ((engine.replaceCandidate runtime candidate).recomputeDerived runtime.candidate candidate)
  | remove (candidateId : String) (runtime : CandidateRuntime) :
      engine.candidates[candidateId]? = some runtime →
      Transition engine .quiet ((engine.eraseCandidate candidateId).recomputeCapacityLimit
        runtime.candidate.capacityKey).pruneRoundRobinCursors
  | reserve {request : RotationRequest} {nowMs : Nat} {group : List ReadyCandidate}
      {selected : ReadyCandidate} {runtime : CandidateRuntime} :
      Admission engine request nowMs group selected runtime →
      Transition engine
        (.reserved (engine.newLease request selected runtime
          (engine.selectionCandidates request nowMs).2))
        (engine.takeLease request group selected runtime
          (engine.selectionCandidates request nowMs).2)
  | dispatch (leaseId : LeaseId) (pending : LeaseRuntime) (budget : RequestBudget)
      (allowRetainedLease : Bool) (attemptId : AttemptId) :
      engine.leases[leaseId]? = some pending →
      engine.dispatchRefusal pending budget allowRetainedLease = none →
      Transition engine (.dispatched pending attemptId)
        (engine.recordDispatch leaseId pending attemptId)
  | release (leaseId : LeaseId) (lease : LeaseRuntime) :
      engine.leases[leaseId]? = some lease → lease.attemptId = none →
      Transition engine (.released lease) (engine.dropLease leaseId lease)
  | settle (leaseId : LeaseId) (settlement : Settlement) :
      engine.leases[leaseId]? = some settlement.lease →
      (settlement.health.isVerdict → settlement.lease.attemptId.isSome) →
      Transition engine (.settled settlement)
        (engine.settleLease leaseId settlement.lease settlement.health settlement.nowMs
          settlement.firstOutputLatencyMs).1

theorem Transition.idle (engine : RotationEngine) : Transition engine .quiet engine :=
  .configure engine.mode engine.maxInFlight engine.quotaStaleAfterMs engine.rotationCredit (.inl rfl)

namespace RotationEngine

variable {engine : RotationEngine}

/-- A reservation is refused and changes nothing, or it is an admission. -/
theorem reserve_cases (engine : RotationEngine) (request : RotationRequest) (nowMs : Nat) :
    (∃ error, engine.reserve request nowMs = (engine, .error error)) ∨
      ∃ group selected runtime, Admission engine request nowMs group selected runtime ∧
        engine.reserve request nowMs =
          (engine.takeLease request group selected runtime
            (engine.selectionCandidates request nowMs).2, .ok {
              leaseId := engine.nextLeaseId + 1
              candidateId := selected.id
              requestId := request.requestId
              routeKey := request.routeKey
              recovery := selected.recovery }) := by
  unfold reserve
  generalize groupEq : engine.selectionGroup (engine.selectionCandidates request nowMs).1 request
    nowMs = group
  cases chosen : engine.chooseForRequest request group with
  | none => exact .inl ⟨.noEligibleCandidate, by simp [groupEq, chosen]⟩
  | some selected =>
      cases available : engine.candidateAvailability request selected.id nowMs with
      | busy | waitUntil | blocked =>
          exact .inl ⟨.candidateChanged, by simp [groupEq, chosen, available]⟩
      | ready recovery =>
          cases found : engine.candidates[selected.id]? with
          | none => exact .inl ⟨.invalidCandidate, by simp [groupEq, chosen, available, found]⟩
          | some runtime =>
              simp only [groupEq, chosen, available, found]
              split
              next => exact .inl ⟨_, rfl⟩
              next concurrency =>
              split
              next => exact .inl ⟨_, rfl⟩
              next leaseRoom =>
              split
              next => exact .inl ⟨_, rfl⟩
              next recoveryRoom =>
              split
              next => exact .inl ⟨_, rfl⟩
              next gateFree =>
              refine .inr ⟨group, selected, runtime, ?_, rfl⟩
              exact {
                group_eq := groupEq.symm
                chosen
                available := ⟨recovery, available⟩
                found
                concurrency := by omega
                leaseRoom := by omega
                recoveryRoom := fun recovers => by
                  simpa [recovers] using recoveryRoom
                gateFree := fun recovers => by
                  simpa [recovers] using gateFree }

/-- A dispatch is refused and changes the engine in nothing, or it starts the
lease with a freshly charged attempt. -/
theorem beginDispatchInternal_cases (engine : RotationEngine) (leaseId : LeaseId)
    (budget : RequestBudget) (clock : ClockReadings) (allowRetainedLease : Bool) :
    (∃ error, engine.beginDispatchInternal leaseId budget clock allowRetainedLease =
        (engine, budget, .error error)) ∨
      ∃ pending attemptId, engine.leases[leaseId]? = some pending ∧
        engine.dispatchRefusal pending budget allowRetainedLease = none ∧
        (budget.startDispatch clock).2 = some attemptId ∧
        engine.beginDispatchInternal leaseId budget clock allowRetainedLease =
          (engine.recordDispatch leaseId pending attemptId, (budget.startDispatch clock).1,
            .ok attemptId) := by
  unfold beginDispatchInternal
  cases found : engine.leases[leaseId]? with
  | none => exact .inl ⟨_, rfl⟩
  | some pending =>
      cases refusal : engine.dispatchRefusal pending budget allowRetainedLease with
      | some error => exact .inl ⟨error, by simp [refusal]⟩
      | none =>
          cases charged : (budget.startDispatch clock).2 with
          | none =>
              have unchanged := RequestBudget.startDispatch_none charged
              exact .inl ⟨.budgetExhausted, by simp [refusal, unchanged]⟩
          | some attemptId =>
              have split : budget.startDispatch clock =
                  ((budget.startDispatch clock).1, some attemptId) := by
                rw [← charged]
              refine .inr ⟨pending, attemptId, rfl, refusal, rfl, ?_⟩
              simp only [refusal]
              rw [split]

theorem releaseUnstarted_cases (engine : RotationEngine) (leaseId : LeaseId) :
    engine.releaseUnstarted leaseId = (engine, false) ∨
      ∃ lease, engine.leases[leaseId]? = some lease ∧ lease.attemptId = none ∧
        engine.releaseUnstarted leaseId = (engine.dropLease leaseId lease, true) := by
  unfold releaseUnstarted
  cases found : engine.leases[leaseId]? with
  | none => exact .inl rfl
  | some lease =>
      cases attempt : lease.attemptId with
      | some attemptId => exact .inl (by simp [attempt])
      | none => exact .inr ⟨lease, rfl, attempt, by simp [attempt]⟩

/-- A settlement is refused and changes nothing, or it settles a live lease. -/
theorem settleWithLatency_cases (engine : RotationEngine) (leaseId : LeaseId)
    (observation : AttemptObservation) (budget : RequestBudget) (clock : ClockReadings)
    (nowMs : Nat) (firstOutputLatencyMs : Option Nat) :
    (∃ error, engine.settleWithLatency leaseId observation budget clock nowMs
        firstOutputLatencyMs = (engine, .error error)) ∨
      ∃ lease settlement, engine.leases[leaseId]? = some lease ∧
        (observation.health.isVerdict → lease.attemptId.isSome) ∧
        settlement.observationCurrent = engine.observationCurrent lease ∧
        engine.settleWithLatency leaseId observation budget clock nowMs firstOutputLatencyMs =
          ((engine.settleLease leaseId lease observation.health nowMs firstOutputLatencyMs).1,
            .ok settlement) := by
  unfold settleWithLatency
  cases found : engine.leases[leaseId]? with
  | none => exact .inl ⟨_, rfl⟩
  | some lease =>
      dsimp only
      split
      next => exact .inl ⟨_, rfl⟩
      next =>
      split
      next => exact .inl ⟨_, rfl⟩
      next dispatched =>
      refine .inr ⟨lease, _, rfl, ?_, rfl, rfl⟩
      intro verdict
      cases attempt : lease.attemptId with
      | some attemptId => rfl
      | none => exact absurd ⟨by simp [attempt], verdict⟩ dispatched

theorem upsert_cases (engine : RotationEngine) (candidate : RotationCandidate) :
    (∃ error, engine.upsert candidate = (engine, .error error)) ∨
      (candidate.validate = .ok () ∧
        ((∃ runtime, engine.candidates[candidate.id]? = some runtime ∧
            engine.upsert candidate =
              ((engine.replaceCandidate runtime candidate).recomputeDerived runtime.candidate
                candidate, .ok ())) ∨
          (engine.candidates[candidate.id]? = none ∧ engine.nextCandidateGeneration < u64Max ∧
            engine.upsert candidate =
              ((engine.installCandidate candidate).recomputeCapacityLimit candidate.capacityKey,
                .ok ())))) := by
  unfold upsert
  cases valid : candidate.validate with
  | error message => exact .inl ⟨message, rfl⟩
  | ok checked =>
      cases found : engine.candidates[candidate.id]? with
      | some runtime => exact .inr ⟨rfl, .inl ⟨runtime, rfl, rfl⟩⟩
      | none =>
          dsimp only
          split
          next => exact .inl ⟨_, rfl⟩
          next room => exact .inr ⟨rfl, .inr ⟨rfl, by omega, rfl⟩⟩

theorem remove_cases (engine : RotationEngine) (candidateId : String) :
    (engine.candidates[candidateId]? = none ∧ engine.remove candidateId = (engine, none)) ∨
      ∃ runtime, engine.candidates[candidateId]? = some runtime ∧
        engine.remove candidateId =
          (((engine.eraseCandidate candidateId).recomputeCapacityLimit
            runtime.candidate.capacityKey).pruneRoundRobinCursors, some runtime.candidate) := by
  unfold remove
  cases found : engine.candidates[candidateId]? with
  | none => exact .inl ⟨rfl, rfl⟩
  | some runtime => exact .inr ⟨runtime, rfl, rfl⟩

private theorem editCandidate_transition (candidateId : String)
    (edit : RotationCandidate → RotationCandidate)
    (keeps : ∀ candidate, KeepsRegistration candidate (edit candidate)) :
    Transition engine .quiet (engine.editCandidate candidateId edit).1 :=
  .edit candidateId edit engine.quotaRevisions keeps

private theorem setQuotaIfNewer_transition (candidateId : String) (quota : QuotaState)
    (revision : Nat) :
    Transition engine .quiet (engine.setQuotaIfNewer candidateId quota revision).1 := by
  unfold setQuotaIfNewer
  split
  next => exact .idle engine
  next =>
  split
  next => exact .idle engine
  next =>
  refine .edit candidateId _ _ fun candidate => ?_
  split <;> exact ⟨rfl, rfl, rfl, rfl, rfl, rfl, rfl⟩

/-- The lease a reservation stores, under the id it returns. -/
theorem takeLease_lease (engine : RotationEngine) (request : RotationRequest)
    (group : List ReadyCandidate) (selected : ReadyCandidate) (runtime : CandidateRuntime)
    (ordinaryAlternatives : Bool) :
    (engine.takeLease request group selected runtime ordinaryAlternatives).leases[
      engine.nextLeaseId + 1]? =
        some (engine.newLease request selected runtime ordinaryAlternatives) := by
  obtain ⟨rotationCredit, roundRobinCursor, same⟩ :=
    engine.takeLease_same request group selected runtime ordinaryAlternatives
  rw [same]
  change (engine.leases.insert (engine.nextLeaseId + 1) _)[engine.nextLeaseId + 1]? = _
  rw [BTreeMap.lookup_insert, if_pos rfl]

private theorem reserve_transition (request : RotationRequest) (nowMs : Nat) :
    Transition engine (engine.reserveEvent request nowMs) (engine.reserve request nowMs).1 := by
  unfold reserveEvent
  rcases engine.reserve_cases request nowMs with
    ⟨error, refused⟩ | ⟨group, selected, runtime, admission, reserved⟩
  · rw [refused]
    exact .idle engine
  · rw [reserved]
    dsimp only
    rw [takeLease_lease]
    exact .reserve admission

private theorem releaseUnstarted_transition (leaseId : LeaseId) :
    Transition engine (engine.releaseEvent leaseId) (engine.releaseUnstarted leaseId).1 := by
  unfold releaseEvent
  rcases engine.releaseUnstarted_cases leaseId with refused | ⟨lease, found, unstarted, released⟩
  · rw [refused]
    cases engine.leases[leaseId]? <;> exact .idle engine
  · rw [released, found]
    exact .release leaseId lease found unstarted

private theorem beginDispatchInternal_transition (leaseId : LeaseId) (budget : RequestBudget)
    (clock : ClockReadings) (allowRetainedLease : Bool) :
    Transition engine (engine.dispatchEvent leaseId budget clock allowRetainedLease)
      (engine.beginDispatchInternal leaseId budget clock allowRetainedLease).1 := by
  unfold dispatchEvent
  rcases engine.beginDispatchInternal_cases leaseId budget clock allowRetainedLease with
    ⟨error, refused⟩ | ⟨pending, attemptId, found, allowed, charged, started⟩
  · rw [refused]
    cases engine.leases[leaseId]? <;> exact .idle engine
  · rw [started, found]
    exact .dispatch leaseId pending budget allowRetainedLease attemptId found allowed

private theorem settleWithLatency_transition (leaseId : LeaseId) (observation : AttemptObservation)
    (budget : RequestBudget) (clock : ClockReadings) (nowMs : Nat)
    (firstOutputLatencyMs : Option Nat) :
    Transition engine
      (engine.settleEvent leaseId observation budget clock nowMs firstOutputLatencyMs)
      (engine.settleWithLatency leaseId observation budget clock nowMs firstOutputLatencyMs).1 := by
  unfold settleEvent
  rcases engine.settleWithLatency_cases leaseId observation budget clock nowMs
      firstOutputLatencyMs with ⟨error, refused⟩ | ⟨lease, settlement, found, dispatched, -, settled⟩
  · rw [refused]
    cases engine.leases[leaseId]? <;> exact .idle engine
  · rw [settled, found]
    exact .settle leaseId ⟨lease, observation.health, nowMs, firstOutputLatencyMs⟩ found dispatched

/-- Every operation is the transition its event shows. -/
theorem apply_transition (engine : RotationEngine) (operation : EngineOperation) :
    Transition engine (engine.event operation) (engine.apply operation) := by
  cases operation with
  | setMode mode =>
      change Transition engine .quiet (engine.setMode mode)
      unfold setMode
      split
      · exact .configure mode _ _ ∅ (.inl rfl)
      · exact .idle engine
  | setQuotaStaleAfterMs staleAfterMs => exact .configure _ _ _ _ (.inl rfl)
  | setMaxInFlight maxInFlight =>
      change Transition engine .quiet (engine.setMaxInFlight maxInFlight).1
      unfold setMaxInFlight
      split
      · exact .idle engine
      next bounded => exact .configure _ _ _ _ (.inr (by omega))
  | setRecoveryPolicy policy => exact .recoveryPolicy policy
  | upsert candidate =>
      change Transition engine .quiet (engine.upsert candidate).1
      rcases engine.upsert_cases candidate with
        ⟨error, refused⟩ | ⟨valid, ⟨runtime, found, replaced⟩ | ⟨absent, room, installed⟩⟩
      · rw [refused]
        exact .idle engine
      · rw [replaced]
        exact .replace candidate runtime valid found
      · rw [installed]
        exact .install candidate valid absent room
  | remove candidateId =>
      change Transition engine .quiet (engine.remove candidateId).1
      rcases engine.remove_cases candidateId with ⟨absent, refused⟩ | ⟨runtime, found, removed⟩
      · rw [refused]
        exact .idle engine
      · rw [removed]
        exact .remove candidateId runtime found
  | syncCandidateState | syncCandidateRouteRate | setAuth | setQuotaRemaining |
    setProviderCredits | setRate | setEnabled =>
      exact editCandidate_transition _ _ fun candidate => ⟨rfl, rfl, rfl, rfl, rfl, rfl, rfl⟩
  | setQuota candidateId quota => exact setQuotaIfNewer_transition _ _ _
  | setQuotaIfNewer candidateId quota revision => exact setQuotaIfNewer_transition _ _ _
  | reserve request nowMs => exact reserve_transition request nowMs
  | releaseUnstarted leaseId => exact releaseUnstarted_transition leaseId
  | beginDispatch leaseId budget clock =>
      exact beginDispatchInternal_transition leaseId budget clock false
  | beginTransportDispatch leaseId budget clock =>
      exact beginDispatchInternal_transition leaseId budget clock true
  | settleWithLatency leaseId observation budget clock nowMs firstOutputLatencyMs =>
      exact settleWithLatency_transition _ _ _ _ _ _
  | settle leaseId observation budget clock nowMs =>
      exact settleWithLatency_transition _ _ _ _ _ _
  | cancel leaseId budget clock nowMs => exact settleWithLatency_transition _ _ _ _ _ _

end RotationEngine

end ZenithRelay.Scheduler.Rotation
