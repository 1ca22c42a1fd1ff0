import ZenithRelay.Foundations.Selection
import ZenithRelay.Foundations.Text
import ZenithRelay.LocalPool.Records
import ZenithRelay.Quota.Windows

/-!
# Wake tasks

What a task may wake, the policy of its provider, and the records of a wake cycle.
-/

set_option autoImplicit false

namespace ZenithRelay.Automations

open LocalPool Quota

def maxWakeAttempts : Nat := 2
def maxWakeJitterSeconds : Nat := 3600
def maxVerificationDelayMs : Nat := 10 * 60000
def maxOutputTokenCap : Nat := 256

def isAsciiToken (token : String) (maxLen : Nat) : Bool :=
  token ≠ "" && token.utf8ByteSize ≤ maxLen &&
    token.toList.all fun character => character.isAlphanum || character = '-' || character = '_'

def isSafeId (identifier : String) : Bool := isAsciiToken (Text.trim identifier) 64

def validErrorCode (errorCode : String) : Bool :=
  errorCode ≠ "" && errorCode.utf8ByteSize ≤ 64 &&
    errorCode.toList.all fun character =>
      character.isAlphanum || character = '-' || character = '_' || character = '.'

def safeErrorCode (errorCode : String) : String :=
  let trimmedCode := Text.trim errorCode
  if validErrorCode trimmedCode then trimmedCode else "redacted"

/-! ### Accounts -/

structure AccountQuota where
  tags : Finset String
  quota : QuotaSnapshot

abbrev WakeAccount : Type := AccountRecord AccountQuota

def WakeAccount.isWakeEligible (account : WakeAccount) : Bool :=
  account.enabled && account.inPool && !account.draining && account.authState = .active &&
    account.health = .healthy

def quotaWindow (quota : QuotaSnapshot) : QuotaWindowKind → Option QuotaWindow
  | .primary => quota.primary
  | .secondary => quota.secondary

/-! ### Tasks and policies -/

inductive AccountSelector where
  | allEligible
  | accountIds (ids : Finset String)
  | tags (tags : Finset String)

namespace AccountSelector

def «matches» : AccountSelector → WakeAccount → Bool
  | .allEligible, _ => true
  | .accountIds ids, account => account.id ∈ ids
  | .tags wanted, account => wanted ∩ account.details.tags ≠ ∅

def isValid : AccountSelector → Bool
  | .allEligible => true
  | .accountIds wanted | .tags wanted => wanted ≠ ∅

end AccountSelector

inductive WakeModelPolicy where
  | lightestSupported
  | explicit (id : String)
  deriving DecidableEq, Repr

inductive WakeTrigger where
  | quotaFull
  | daily
  | weekly
  | interval (seconds : Nat)
  deriving DecidableEq, Repr

inductive WakeExecutionPolicy where
  | automatic
  | requireConfirmation
  deriving DecidableEq, Repr

structure WakeTask where
  id : String
  name : String
  enabled : Bool
  accountSelector : AccountSelector
  windowKinds : Finset QuotaWindowKind
  modelPolicy : WakeModelPolicy
  trigger : WakeTrigger
  fallbackSchedule : Option WakeTrigger
  executionPolicy : WakeExecutionPolicy
  jitterSeconds : Nat
  maxAttemptsPerCycle : Nat

inductive WakeTaskValidationError where
  | invalidId
  | invalidName
  | unsupportedSchedule
  | invalidAccountSelector
  | invalidWindowSelection
  | invalidModelPolicy
  | invalidAttemptLimit
  | invalidJitter
  | invalidAdapterPolicy
  deriving DecidableEq, Repr

/-- The first check that the task fails. -/
def WakeTask.validate (task : WakeTask) : Option WakeTaskValidationError :=
  if !isSafeId task.id then some .invalidId
  else if Text.trim task.name = "" then some .invalidName
  else if task.fallbackSchedule.isSome || (task.trigger ≠ .quotaFull && task.trigger ≠ .weekly) then
    some .unsupportedSchedule
  else if !task.accountSelector.isValid then some .invalidAccountSelector
  else if task.windowKinds = ∅ then some .invalidWindowSelection
  else if task.trigger = .weekly &&
      (task.windowKinds ≠ {.secondary} || task.executionPolicy ≠ .automatic) then
    some .unsupportedSchedule
  else if (match task.modelPolicy with
      | .explicit id => Text.trim id == ""
      | .lightestSupported => false) then
    some .invalidModelPolicy
  else if !(1 ≤ task.maxAttemptsPerCycle && task.maxAttemptsPerCycle ≤ maxWakeAttempts) then
    some .invalidAttemptLimit
  else if maxWakeJitterSeconds < task.jitterSeconds then some .invalidJitter
  else none

structure WakeModel where
  id : String
  lightnessRank : Nat
  wakeCapable : Bool

structure WakeAdapterPolicy where
  windowsRequiringActivity : Finset QuotaWindowKind
  models : List WakeModel
  verificationDelayMs : Nat
  outputTokenCap : Nat

def WakeAdapterPolicy.isValid (policy : WakeAdapterPolicy) : Bool :=
  policy.verificationDelayMs ≤ maxVerificationDelayMs && 1 ≤ policy.outputTokenCap &&
    policy.outputTokenCap ≤ maxOutputTokenCap

def selectModel (policy : WakeModelPolicy) (models : List WakeModel) : Option String :=
  match policy with
  | .lightestSupported =>
    (Selection.minBy
      (fun left right => (compare left.lightnessRank right.lightnessRank).then
        (compare left.id right.id))
      (models.filter fun model => model.wakeCapable && Text.trim model.id ≠ "")).map (·.id)
  | .explicit id =>
    (models.find? fun model =>
      model.wakeCapable && Text.eqIgnoreAsciiCase model.id (Text.trim id)).map (·.id)

/-! ### Cycles -/

inductive WakeOutcome where
  | confirmed
  | unconfirmed
  | skippedAlreadyStarted
  | skippedDuplicate
  | skippedIneligible
  | skippedCapacity
  | failed
  deriving DecidableEq, Repr

structure WakeHistory where
  taskId : String
  accountId : String
  windowKind : QuotaWindowKind
  transitionFingerprint : String
  modelId : Option String
  trigger : WakeTrigger
  attempt : Nat
  outcome : WakeOutcome
  startedAtMs : Nat
  completedAtMs : Nat
  latencyMs : Option Nat
  inputTokens : Option Nat
  outputTokens : Option Nat
  errorCode : Option String
  deriving DecidableEq, Repr

structure WakeExecutionRequest where
  accountId : String
  modelId : String
  windowKind : QuotaWindowKind
  outputTokenCap : Nat
  deriving DecidableEq, Repr

structure WakeVerificationMetadata where
  windowKind : QuotaWindowKind
  baselineWindow : Option QuotaWindow
  verifyAfterMs : Nat
  deriving DecidableEq, Repr

inductive WakeCycleStatus where
  | pending
  | inFlight
  | completed
  deriving DecidableEq, Repr

structure WakeCycle where
  key : String
  status : WakeCycleStatus
  taskId : String
  accountId : String
  windowKind : QuotaWindowKind
  transitionFingerprint : String
  trigger : WakeTrigger
  requiresConfirmation : Bool
  request : Option WakeExecutionRequest
  verification : Option WakeVerificationMetadata
  jitterSeconds : Nat
  maxAttempts : Nat
  attemptsStarted : Nat
  dueAtMs : Nat
  recordedAtMs : Nat
  deriving DecidableEq, Repr

structure WakeSchedule where
  cycleKey : String
  dueAtMs : Nat
  attemptsStarted : Nat
  maxAttempts : Nat
  request : WakeExecutionRequest
  deriving DecidableEq, Repr

namespace WakeCycle

def schedule (cycle : WakeCycle) : Option WakeSchedule :=
  if cycle.status ≠ .pending then none
  else cycle.request.map fun request =>
    ⟨cycle.key, cycle.dueAtMs, cycle.attemptsStarted, cycle.maxAttempts, request⟩

def finish (cycle : WakeCycle) (nowMs : Nat) : WakeCycle :=
  { cycle with status := .completed, request := none, verification := none, recordedAtMs := nowMs }

end WakeCycle

structure WakeAutomationState where
  maxCycles : Nat
  maxHistory : Nat
  cycles : List WakeCycle
  history : List WakeHistory
  deriving DecidableEq, Repr

inductive WakeDecision where
  | scheduled (schedule : WakeSchedule)
  | skipped (outcome : WakeOutcome)
  | rejected (error : WakeTaskValidationError)
  deriving DecidableEq, Repr

structure WakePermit where
  cycleKey : String
  taskId : String
  accountId : String
  windowKind : QuotaWindowKind
  transitionFingerprint : String
  modelId : String
  trigger : WakeTrigger
  requiresConfirmation : Bool
  verificationDelayMs : Nat
  outputTokenCap : Nat
  attempt : Nat
  dueAtMs : Nat
  reservedAtMs : Nat
  request : WakeExecutionRequest
  verification : WakeVerificationMetadata
  deriving DecidableEq, Repr

inductive WakeCompletionOutcome where
  | confirmed
  | unconfirmed
  | failed
  deriving DecidableEq, Repr

structure WakeCompletion where
  outcome : WakeCompletionOutcome
  completedAtMs : Nat
  latencyMs : Option Nat
  inputTokens : Option Nat
  outputTokens : Option Nat
  errorCode : Option String
  deriving DecidableEq, Repr

end ZenithRelay.Automations
