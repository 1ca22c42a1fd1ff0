import ZenithRelay.Foundations.Integers

/-!
# Request budgets

Request identity, dispatch budget and replay evidence. The monotonic clock is
read once for each deadline of the retry window, so a check takes two readings.
-/

set_option autoImplicit false

namespace ZenithRelay.Scheduler.Rotation

abbrev RequestId := Nat
abbrev AttemptId := Nat
abbrev LeaseId := Nat

/-- A reading of the monotonic clock, in nanoseconds. -/
abbrev Instant := Nat

/-- `Duration::from_millis`. -/
def fromMillis (milliseconds : Nat) : Nat := milliseconds * 1000000

/-- The readings one retry-window check takes: for the retry deadline and for
the rate-limit deadline. -/
structure ClockReadings where
  retry : Instant
  rateLimit : Instant
  deriving DecidableEq, Repr

inductive ExecutionCertainty where
  | notSent
  | accepted
  | unknown
  deriving DecidableEq, Repr

inductive CommitStage where
  | beforeOutput
  | responseCommitted
  deriving DecidableEq, Repr

structure ExecutionObservation where
  certainty : ExecutionCertainty
  commitStage : CommitStage
  deriving DecidableEq, Repr

namespace ExecutionObservation

def notSent : ExecutionObservation := ⟨.notSent, .beforeOutput⟩
def accepted : ExecutionObservation := ⟨.accepted, .beforeOutput⟩
def unknown : ExecutionObservation := ⟨.unknown, .beforeOutput⟩
def committed : ExecutionObservation := ⟨.accepted, .responseCommitted⟩

end ExecutionObservation

inductive RetryStopReason where
  | succeeded
  | terminalOutcome
  | budgetExhausted
  | responseCommitted
  | remoteOutcomeUnknown
  | replayUnavailable
  | cancelled
  | terminalHealthObservation
  deriving DecidableEq, Repr

inductive RetryDecision where
  | retry (nextDispatch : Nat)
  | stop (reason : RetryStopReason)
  deriving DecidableEq, Repr

/-- The one budget shared by every upstream dispatch belonging to a request. -/
structure RequestBudget where
  requestId : RequestId
  maxDispatches : Nat
  dispatches : Nat
  maxWireAttempts : Nat
  wireAttempts : Nat
  replayStopped : Bool
  admissionStopped : Bool
  retryStartedAt : Option Instant
  retryDeadline : Option Instant
  persistentRetry : Bool
  rateLimitDeadline : Option Instant
  httpHeadersDeadline : Option Instant
  retryWindowMs : Option Nat
  deriving DecidableEq, Repr

def defaultMaxDispatches : Nat := 3

namespace RequestBudget

def withLimits (requestId : RequestId) (maxDispatches maxWireAttempts : Nat) :
    Option RequestBudget :=
  if maxDispatches > 0 then
    some {
      requestId
      maxDispatches
      dispatches := 0
      maxWireAttempts := max maxWireAttempts 1
      wireAttempts := 0
      replayStopped := false
      admissionStopped := false
      retryStartedAt := none
      retryDeadline := none
      persistentRetry := false
      rateLimitDeadline := none
      httpHeadersDeadline := none
      retryWindowMs := none
    }
  else none

/-- `RequestBudget::new`. -/
def create (requestId : RequestId) (maxDispatches : Nat) : Option RequestBudget :=
  withLimits requestId maxDispatches maxDispatches

theorem withLimits_isSome (requestId : RequestId) {maxDispatches : Nat}
    (positive : 0 < maxDispatches) (maxWireAttempts : Nat) :
    (withLimits requestId maxDispatches maxWireAttempts).isSome := by
  simp [withLimits, positive]

/-- `requestId` is the value drawn from the process-wide request counter. -/
def forIncomingRequest (requestId : RequestId) (configuredLimit : Nat) : RequestBudget :=
  let limit := min (max configuredLimit 1) u8Max
  (withLimits requestId limit (saturatingMul u16Max limit 2)).get
    (withLimits_isSome requestId (lt_min (Nat.le_max_right _ _) (by decide)) _)

def defaultFor (requestId : RequestId) : RequestBudget :=
  (create requestId defaultMaxDispatches).get (withLimits_isSome requestId (by decide) _)

def remaining (budget : RequestBudget) : Nat := budget.maxDispatches - budget.dispatches

def retryWindowOpen (budget : RequestBudget) (clock : ClockReadings) : Bool :=
  budget.retryDeadline.all (fun deadline => clock.retry < deadline) &&
    (budget.persistentRetry ||
      budget.rateLimitDeadline.all (fun deadline => clock.rateLimit < deadline))

def canStartWire (budget : RequestBudget) (clock : ClockReadings) : Bool :=
  !budget.replayStopped && !budget.admissionStopped && budget.retryWindowOpen clock &&
    budget.wireAttempts < budget.maxWireAttempts

def startWireAttempt (budget : RequestBudget) (clock : ClockReadings) :
    RequestBudget × Option Nat :=
  if budget.canStartWire clock then
    let wireAttempts := saturatingAdd u16Max budget.wireAttempts 1
    ({ budget with wireAttempts }, some wireAttempts)
  else (budget, none)

def canDispatch (budget : RequestBudget) (clock : ClockReadings) : Bool :=
  !budget.replayStopped && !budget.admissionStopped && budget.retryWindowOpen clock &&
    budget.dispatches < budget.maxDispatches

/-- Counts one actual upstream dispatch start. -/
def startDispatch (budget : RequestBudget) (clock : ClockReadings) :
    RequestBudget × Option AttemptId :=
  if budget.canDispatch clock then
    let dispatches := saturatingAdd u8Max budget.dispatches 1
    ({ budget with dispatches }, some dispatches)
  else (budget, none)

/-- A refused dispatch leaves the budget as it was. -/
theorem startDispatch_none {budget : RequestBudget} {clock : ClockReadings}
    (refused : (budget.startDispatch clock).2 = none) :
    budget.startDispatch clock = (budget, none) := by
  unfold startDispatch at refused ⊢
  cases allowed : budget.canDispatch clock with
  | true => simp [allowed] at refused
  | false => rfl

/-- Once remote execution is accepted or uncertain, replay stays stopped. -/
def observeExecution (budget : RequestBudget) (observation : ExecutionObservation)
    (now : Instant) : RequestBudget :=
  let replayStopped := budget.replayStopped || observation.certainty != .notSent ||
    observation.commitStage == .responseCommitted
  if replayStopped then { budget with replayStopped }
  else
    let started := budget.retryStartedAt.getD now
    { budget with
      replayStopped
      retryStartedAt := some started
      retryDeadline := budget.retryWindowMs.map fun windowMs => started + fromMillis windowMs }

def configureRetryWindow (budget : RequestBudget) (windowMs : Nat) (persistent : Bool) :
    RequestBudget :=
  { budget with
    persistentRetry := persistent
    retryWindowMs := if persistent then none else some windowMs
    retryDeadline := (budget.retryStartedAt.filter fun _ => !persistent).map fun started =>
      started + fromMillis windowMs }

def retryDecision (budget : RequestBudget) (observation : ExecutionObservation)
    (clock : ClockReadings) : RetryDecision :=
  if observation.commitStage = .responseCommitted then .stop .responseCommitted
  else if observation.certainty = .unknown then .stop .remoteOutcomeUnknown
  else if observation.certainty ≠ .notSent then .stop .replayUnavailable
  else if !budget.canDispatch clock then .stop .budgetExhausted
  else .retry (saturatingAdd u8Max budget.dispatches 1)

end RequestBudget

end ZenithRelay.Scheduler.Rotation
