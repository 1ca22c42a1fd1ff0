import ZenithRelay.Scheduler.Rotation.Types

/-!
# The shared request budget

One budget per incoming request, with the members it visited and its admission
stop. Every operation runs under the budget lock, so each is one step.
-/

set_option autoImplicit false

namespace ZenithRelay.Scheduler.Rotation

inductive AdmissionStopReason where
  | queueFull
  | waitExpired
  deriving DecidableEq, Repr

structure SharedRequestBudget where
  budget : RequestBudget
  /-- The persistence that the queue wait was configured with. -/
  waitingPersistent : Bool
  admissionStopReason : Option AdmissionStopReason
  attemptedMembers : BTreeSet String

namespace SharedRequestBudget

def maxRateLimitRecoveryMs : Nat := 30000

/-- A request's shared budget before anything used it. -/
def ofBudget (budget : RequestBudget) : SharedRequestBudget where
  budget
  waitingPersistent := false
  admissionStopReason := none
  attemptedMembers := ∅

def forIncomingRequest (requestId : RequestId) (configuredLimit : Nat) : SharedRequestBudget :=
  ofBudget (.forIncomingRequest requestId configuredLimit)

def startWireAttempt (shared : SharedRequestBudget) (clock : ClockReadings) :
    SharedRequestBudget × Option Nat :=
  ({ shared with budget := (shared.budget.startWireAttempt clock).1 },
    (shared.budget.startWireAttempt clock).2)

def observeExecution (shared : SharedRequestBudget) (observation : ExecutionObservation)
    (now : Instant) : SharedRequestBudget :=
  { shared with budget := shared.budget.observeExecution observation now }

def observeRejection (shared : SharedRequestBudget) (now : Instant) : SharedRequestBudget :=
  shared.observeExecution .notSent now

/-- The earlier of the header deadline so far and the proposed one. -/
def httpHeadersDeadline (shared : SharedRequestBudget) (timeout now : Nat) :
    SharedRequestBudget × Instant :=
  let proposed := now + timeout
  let deadline :=
    match shared.budget.httpHeadersDeadline with
    | some current => min current proposed
    | none => proposed
  ({ shared with budget := { shared.budget with httpHeadersDeadline := some deadline } }, deadline)

def configureRetryWindow (shared : SharedRequestBudget) (windowMs : Nat) (persistent : Bool) :
    SharedRequestBudget :=
  { shared with
    budget := shared.budget.configureRetryWindow windowMs persistent
    waitingPersistent := persistent }

/-- Bounds rate-limit recovery; an earlier deadline stays across policy changes. -/
def limitRateLimitRecovery (shared : SharedRequestBudget) (windowMs : Nat) (now : Instant) :
    SharedRequestBudget :=
  let deadline := now + fromMillis (min windowMs maxRateLimitRecoveryMs)
  { shared with
    budget := { shared.budget with
      rateLimitDeadline := some
        (match shared.budget.rateLimitDeadline with
          | some old => min old deadline
          | none => deadline) } }

def retryWaitDeadline (shared : SharedRequestBudget) (windowMs : Nat) (now : Instant) :
    SharedRequestBudget × Instant :=
  let started := shared.budget.retryStartedAt.getD now
  let deadline := started + fromMillis windowMs
  ({ shared with
      budget := { shared.budget with
        retryStartedAt := some started
        retryDeadline := shared.budget.retryWindowMs.map fun windowMs =>
          started + fromMillis windowMs } },
    match shared.budget.rateLimitDeadline.filter fun _ => !shared.budget.persistentRetry with
    | some rateLimit => min deadline rateLimit
    | none => deadline)

/-- The first reason to stop admission is kept. -/
def stopAdmission (shared : SharedRequestBudget) (reason : AdmissionStopReason) :
    SharedRequestBudget :=
  { shared with
    budget := { shared.budget with admissionStopped := true }
    admissionStopReason := some (shared.admissionStopReason.getD reason) }

def recordMemberAttempt (shared : SharedRequestBudget) (member : String) : SharedRequestBudget :=
  { shared with attemptedMembers := shared.attemptedMembers.insert member }

/-- A verified compatibility repair may retry its owner; it refunds no dispatch
and undoes no unknown, commit or cancel evidence. -/
def allowMemberRepair (shared : SharedRequestBudget) (member : String) : SharedRequestBudget :=
  { shared with attemptedMembers := shared.attemptedMembers.erase member }

/-- Called only after the controller awaited actionable scheduler recovery. -/
def beginRecoveryPass (shared : SharedRequestBudget) : SharedRequestBudget :=
  { shared with attemptedMembers := ∅ }

end SharedRequestBudget

end ZenithRelay.Scheduler.Rotation
