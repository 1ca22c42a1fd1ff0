import ZenithRelay.Scheduler.Rotation.Budget.Shared
import ZenithRelay.Scheduler.Rotation.Engine.Operation

/-!
# Candidate leases

The scheduler and the one budget of a request, as the transport of that request
uses both. A lease's own operations are short runs of primitive ones, so what
holds of every run of primitives holds of every way a transport uses its leases.
-/

set_option autoImplicit false

namespace ZenithRelay.Runtime

open Scheduler.Rotation

/-- The scheduler beside the shared budget of one request. -/
structure RequestRuntime where
  engine : RotationEngine
  shared : SharedRequestBudget

/-- The steps that touch the budget, and every other step of the scheduler. -/
inductive RequestOperation where
  | engine (operation : EngineOperation)
  | beginDispatch (leaseId : LeaseId) (clock : ClockReadings)
  | beginTransportDispatch (leaseId : LeaseId) (clock : ClockReadings)
  | startWireAttempt (clock : ClockReadings)
  | observeExecution (observation : ExecutionObservation) (now : Instant)
  | httpHeadersDeadline (timeout now : Nat)
  | configureRetryWindow (windowMs : Nat) (persistent : Bool)
  | limitRateLimitRecovery (windowMs : Nat) (now : Instant)
  | retryWaitDeadline (windowMs : Nat) (now : Instant)
  | stopAdmission (reason : AdmissionStopReason)
  | recordMemberAttempt (member : String)
  | allowMemberRepair (member : String)
  | beginRecoveryPass

namespace RequestRuntime

/-- A dispatch of the scheduler, charged to the shared budget. -/
def dispatch (runtime : RequestRuntime) (leaseId : LeaseId) (clock : ClockReadings)
    (allowRetainedLease : Bool) : RequestRuntime × Except DispatchStartError AttemptId :=
  let (engine, budget, result) :=
    runtime.engine.beginDispatchInternal leaseId runtime.shared.budget clock allowRetainedLease
  ({ engine, shared := { runtime.shared with budget } }, result)

def apply (runtime : RequestRuntime) : RequestOperation → RequestRuntime
  | .engine operation => { runtime with engine := runtime.engine.apply operation }
  | .beginDispatch leaseId clock => (runtime.dispatch leaseId clock false).1
  | .beginTransportDispatch leaseId clock => (runtime.dispatch leaseId clock true).1
  | .startWireAttempt clock => { runtime with shared := (runtime.shared.startWireAttempt clock).1 }
  | .observeExecution observation now =>
    { runtime with shared := runtime.shared.observeExecution observation now }
  | .httpHeadersDeadline timeout now =>
    { runtime with shared := (runtime.shared.httpHeadersDeadline timeout now).1 }
  | .configureRetryWindow windowMs persistent =>
    { runtime with shared := runtime.shared.configureRetryWindow windowMs persistent }
  | .limitRateLimitRecovery windowMs now =>
    { runtime with shared := runtime.shared.limitRateLimitRecovery windowMs now }
  | .retryWaitDeadline windowMs now =>
    { runtime with shared := (runtime.shared.retryWaitDeadline windowMs now).1 }
  | .stopAdmission reason => { runtime with shared := runtime.shared.stopAdmission reason }
  | .recordMemberAttempt member =>
    { runtime with shared := runtime.shared.recordMemberAttempt member }
  | .allowMemberRepair member =>
    { runtime with shared := runtime.shared.allowMemberRepair member }
  | .beginRecoveryPass => { runtime with shared := runtime.shared.beginRecoveryPass }

/-- The attempt id a step returns, if it is a dispatch that succeeds. -/
def attempt (runtime : RequestRuntime) : RequestOperation → Option AttemptId
  | .beginDispatch leaseId clock => (runtime.dispatch leaseId clock false).2.toOption
  | .beginTransportDispatch leaseId clock => (runtime.dispatch leaseId clock true).2.toOption
  | _ => none

/-- The number of the wire attempt a step starts. -/
def wireAttempt (runtime : RequestRuntime) : RequestOperation → Option Nat
  | .startWireAttempt clock => (runtime.shared.startWireAttempt clock).2
  | _ => none

/-- The scheduler's own step in a step of the request, with the budget of the moment. -/
def engineOperation (runtime : RequestRuntime) : RequestOperation → Option EngineOperation
  | .engine operation => some operation
  | .beginDispatch leaseId clock => some (.beginDispatch leaseId runtime.shared.budget clock)
  | .beginTransportDispatch leaseId clock =>
    some (.beginTransportDispatch leaseId runtime.shared.budget clock)
  | _ => none

abbrev runOperations (runtime : RequestRuntime) (operations : List RequestOperation) :
    RequestRuntime :=
  Execution.run apply runtime operations

/-- The attempt ids a run returns, in order. -/
def attempts (runtime : RequestRuntime) (operations : List RequestOperation) : List AttemptId :=
  Execution.trace apply attempt runtime operations

def wireAttempts (runtime : RequestRuntime) (operations : List RequestOperation) : List Nat :=
  Execution.trace apply wireAttempt runtime operations

/-- The leases a run starts, in order, one entry a start. -/
def startedLeases (runtime : RequestRuntime) (operations : List RequestOperation) :
    List LeaseId :=
  Execution.trace apply
    (fun runtime operation => (runtime.engineOperation operation).bind fun operation =>
      (runtime.engine.event operation).dispatchedLease)
    runtime operations

end RequestRuntime

/-- The transport's handle on one scheduler lease. -/
structure CandidateLease where
  leaseId : LeaseId
  memberKey : String
  rotationStarted : Bool
  rotationSettled : Bool
  deriving DecidableEq, Repr

/-- What one dispatch of a lease finds: whether its scope, authorization and
visibility fences hold, how the scheduler syncs its members first, and the clock
at each of its three budget checks. -/
structure LeaseDispatch where
  chargeWire : Bool
  fencesHold : Bool
  syncs : List EngineOperation
  wireCheck : ClockReadings
  dispatch : ClockReadings
  wire : ClockReadings

namespace CandidateLease

/-- The generation debit and, for HTTP, the wire debit of one dispatch. The result
is `none` where the source panics: the wire check passed, but the retry window
closed before the wire attempt was charged. -/
def beginRotationDispatchWithWire (lease : CandidateLease) (runtime : RequestRuntime)
    (attempt : LeaseDispatch) :
    RequestRuntime × CandidateLease × Option (Except DispatchStartError AttemptId) :=
  if attempt.chargeWire && !runtime.shared.budget.canStartWire attempt.wireCheck then
    (runtime, lease, some (.error .budgetExhausted))
  else if !attempt.fencesHold then (runtime, lease, some (.error .candidateChanged))
  else
    let synced := { runtime with engine := runtime.engine.runOperations attempt.syncs }
    match synced.dispatch lease.leaseId attempt.dispatch true with
    | (refused, .error error) => (refused, lease, some (.error error))
    | (dispatched, .ok attemptId) =>
      let recorded (shared : SharedRequestBudget) :=
        ({ dispatched with shared := shared.recordMemberAttempt lease.memberKey },
          { lease with rotationStarted := true }, some (.ok attemptId))
      if attempt.chargeWire then
        match dispatched.shared.startWireAttempt attempt.wire with
        | (_, none) => (dispatched, lease, none)
        | (shared, some _) => recorded shared
      else recorded dispatched.shared

/-- Settles once; the budget observes the execution before the scheduler does. -/
def settleRotationWithLatency (lease : CandidateLease) (runtime : RequestRuntime)
    (observation : AttemptObservation) (now : Instant) (clock : ClockReadings) (nowMs : Nat)
    (firstOutputLatencyMs : Option Nat) :
    RequestRuntime × CandidateLease × Except SettlementError (Option RotationSettlement) :=
  if lease.rotationSettled then (runtime, lease, .ok none)
  else
    let shared := runtime.shared.observeExecution observation.execution now
    match runtime.engine.settleWithLatency lease.leaseId observation shared.budget clock nowMs
      firstOutputLatencyMs with
    | (engine, .error error) => (⟨engine, shared⟩, lease, .error error)
    | (engine, .ok settlement) =>
      (⟨engine, shared⟩, { lease with rotationSettled := true }, .ok (some settlement))

/-- A started lease without an explicit result is a cancellation of unknown outcome. -/
def release (lease : CandidateLease) (runtime : RequestRuntime) (now : Instant)
    (clock : ClockReadings) (nowMs : Nat) : RequestRuntime × CandidateLease :=
  if lease.rotationSettled then (runtime, lease)
  else
    let settled := { lease with rotationSettled := true }
    if lease.rotationStarted then
      let shared := runtime.shared.observeExecution .unknown now
      (⟨(runtime.engine.cancel lease.leaseId shared.budget clock nowMs).1, shared⟩, settled)
    else ({ runtime with engine := (runtime.engine.releaseUnstarted lease.leaseId).1 }, settled)

end CandidateLease

/-- One runtime comes from the other by a run of primitive steps. -/
abbrev RunsTo (runtime after : RequestRuntime) : Prop :=
  Execution.Reachable RequestRuntime.apply runtime after

theorem RunsTo.engine (runtime : RequestRuntime) (operations : List EngineOperation) :
    RunsTo runtime { runtime with engine := runtime.engine.runOperations operations } := by
  induction operations generalizing runtime with
  | nil => exact ⟨[], rfl⟩
  | cons operation operations ih =>
      obtain ⟨steps, same⟩ := ih (runtime.apply (.engine operation))
      exact ⟨.engine operation :: steps, same⟩

theorem CandidateLease.beginRotationDispatchWithWire_runs (lease : CandidateLease)
    (runtime : RequestRuntime) (attempt : LeaseDispatch) :
    RunsTo runtime (lease.beginRotationDispatchWithWire runtime attempt).1 := by
  unfold beginRotationDispatchWithWire
  split
  next => exact ⟨[], rfl⟩
  split
  next => exact ⟨[], rfl⟩
  have dispatched := Execution.Reachable.next RequestRuntime.apply
    (RunsTo.engine runtime attempt.syncs) (.beginTransportDispatch lease.leaseId attempt.dispatch)
  dsimp only
  split
  next refused error result =>
    change RunsTo runtime
      (RequestRuntime.dispatch _ lease.leaseId attempt.dispatch true).1 at dispatched
    rw [result] at dispatched
    exact dispatched
  next after attemptId result =>
    change RunsTo runtime
      (RequestRuntime.dispatch _ lease.leaseId attempt.dispatch true).1 at dispatched
    rw [result] at dispatched
    split
    · split
      next => exact dispatched
      next shared number started =>
        have charged := Execution.Reachable.next RequestRuntime.apply dispatched
          (.startWireAttempt attempt.wire)
        change RunsTo runtime { after with shared := (after.shared.startWireAttempt _).1 }
          at charged
        rw [started] at charged
        exact Execution.Reachable.next RequestRuntime.apply charged
          (.recordMemberAttempt lease.memberKey)
    · exact Execution.Reachable.next RequestRuntime.apply dispatched
        (.recordMemberAttempt lease.memberKey)

theorem CandidateLease.settleRotationWithLatency_runs (lease : CandidateLease)
    (runtime : RequestRuntime) (observation : AttemptObservation) (now : Instant)
    (clock : ClockReadings) (nowMs : Nat) (firstOutputLatencyMs : Option Nat) :
    RunsTo runtime (lease.settleRotationWithLatency runtime observation now clock nowMs
      firstOutputLatencyMs).1 := by
  unfold settleRotationWithLatency
  split
  next => exact ⟨[], rfl⟩
  have settled : RunsTo runtime ⟨(runtime.engine.settleWithLatency lease.leaseId observation
      (runtime.shared.observeExecution observation.execution now).budget clock nowMs
      firstOutputLatencyMs).1, runtime.shared.observeExecution observation.execution now⟩ :=
    ⟨[.observeExecution observation.execution now, .engine (.settleWithLatency lease.leaseId
      observation (runtime.shared.observeExecution observation.execution now).budget clock nowMs
      firstOutputLatencyMs)], rfl⟩
  dsimp only
  split
  next engine error result =>
    rw [result] at settled
    exact settled
  next engine settlement result =>
    rw [result] at settled
    exact settled

theorem CandidateLease.release_runs (lease : CandidateLease) (runtime : RequestRuntime)
    (now : Instant) (clock : ClockReadings) (nowMs : Nat) :
    RunsTo runtime (lease.release runtime now clock nowMs).1 := by
  unfold release
  split
  next => exact ⟨[], rfl⟩
  dsimp only
  split
  next =>
    exact ⟨[.observeExecution .unknown now, .engine (.cancel lease.leaseId
      (runtime.shared.observeExecution .unknown now).budget clock nowMs)], rfl⟩
  next => exact ⟨[.engine (.releaseUnstarted lease.leaseId)], rfl⟩

end ZenithRelay.Runtime
