import ZenithRelay.Automations.QuotaWake
import ZenithRelay.Quota.Windows.Normalize

/-!
# The wake coordinator

The cycles of quota transitions that are to be woken: evaluated, claimed, completed,
cancelled and reloaded.
-/

set_option autoImplicit false

namespace ZenithRelay.Automations

open Quota

/-- SHA-256 of a text: its hexadecimal form, without collisions, and its first eight
bytes as an integer. -/
structure WakeDigest where
  hex : String → String
  hex_injective : Function.Injective hex
  word : String → Nat

section

variable (digest : WakeDigest)

def cycleKeyText (accountId : String) (windowKind : QuotaWindowKind) (fingerprint : String) :
    String :=
  accountId ++ "\x00" ++ windowKind.debug ++ "\x00" ++ fingerprint

def cycleKey (account : WakeAccount) (transition : QuotaTransition) : String :=
  digest.hex (cycleKeyText account.id transition.windowKind transition.fingerprint)

def deterministicJitterMs (cycleKey : String) (attempt jitterSeconds : Nat) : Nat :=
  if jitterSeconds = 0 then 0
  else
    saturatingMul u64Max
      (digest.word (cycleKey ++ "\x00" ++ toString attempt) % (jitterSeconds + 1)) 1000

end

def sameCycle (cycle : WakeCycle) (accountId : String) (windowKind : QuotaWindowKind)
    (transitionFingerprint : String) : Bool :=
  cycle.accountId = accountId && cycle.windowKind = windowKind &&
    cycle.transitionFingerprint = transitionFingerprint

def validCycle (cycle : WakeCycle) : Bool :=
  cycle.key ≠ "" && isSafeId cycle.taskId && Text.trim cycle.accountId ≠ "" &&
    Text.trim cycle.transitionFingerprint ≠ "" &&
    (1 ≤ cycle.maxAttempts && cycle.maxAttempts ≤ maxWakeAttempts) &&
    cycle.attemptsStarted ≤ cycle.maxAttempts && cycle.jitterSeconds ≤ maxWakeJitterSeconds &&
    (cycle.status = .completed || (cycle.request.isSome && cycle.verification.isSome))

/-- `history`: a record of the cycle's latest attempt. -/
def cycleHistory (cycle : WakeCycle) (outcome : WakeOutcome) (startedAtMs completedAtMs : Nat)
    (errorCode : Option String) : WakeHistory where
  taskId := cycle.taskId
  accountId := cycle.accountId
  windowKind := cycle.windowKind
  transitionFingerprint := cycle.transitionFingerprint
  modelId := none
  trigger := cycle.trigger
  attempt := cycle.attemptsStarted
  outcome
  startedAtMs
  completedAtMs
  latencyMs := none
  inputTokens := none
  outputTokens := none
  errorCode

def naturalUseHistory (cycle : WakeCycle) (usedAtMs : Nat) : WakeHistory :=
  cycleHistory cycle .skippedAlreadyStarted usedAtMs usedAtMs none

def canceledHistory (cycle : WakeCycle) (completedAtMs : Nat) (errorCode : String) : WakeHistory :=
  cycleHistory cycle .skippedIneligible cycle.recordedAtMs (max completedAtMs cycle.recordedAtMs)
    (some (safeErrorCode errorCode))

structure WakeCoordinator where
  state : WakeAutomationState
  deriving DecidableEq, Repr

inductive WakeClaimMode where
  | any
  | automatic
  | confirmation
  deriving DecidableEq, Repr

def WakeClaimMode.«matches» (mode : WakeClaimMode) (cycle : WakeCycle) : Bool :=
  match mode with
  | .any => true
  | .automatic => !cycle.requiresConfirmation
  | .confirmation => cycle.requiresConfirmation

namespace WakeCoordinator

def new (maxCycles maxHistory : Nat) : Except String WakeCoordinator :=
  if maxCycles = 0 ∨ maxHistory = 0 then .error "wake state bounds must be positive"
  else .ok ⟨⟨maxCycles, maxHistory, [], []⟩⟩

def isPermitActive (coordinator : WakeCoordinator) (permit : WakePermit) : Bool :=
  coordinator.state.cycles.any fun cycle =>
    cycle.key = permit.cycleKey && cycle.status = .inFlight &&
      cycle.attemptsStarted = permit.attempt && cycle.taskId = permit.taskId &&
      cycle.accountId = permit.accountId && cycle.windowKind = permit.windowKind &&
      cycle.transitionFingerprint = permit.transitionFingerprint

def withCycles (coordinator : WakeCoordinator) (cycles : List WakeCycle) : WakeCoordinator :=
  ⟨{ coordinator.state with cycles }⟩

/-- At capacity the first completed cycle makes room. -/
def reserveCycle (coordinator : WakeCoordinator) (cycle : WakeCycle) : Option WakeCoordinator :=
  let cycles := coordinator.state.cycles
  if coordinator.state.maxCycles ≤ cycles.length then
    match cycles.findIdx? (·.status = .completed) with
    | some index => some (coordinator.withCycles (cycles.eraseIdx index ++ [cycle]))
    | none => none
  else some (coordinator.withCycles (cycles ++ [cycle]))

def pushHistory (coordinator : WakeCoordinator) (record : WakeHistory) : WakeCoordinator :=
  let history := coordinator.state.history
  let history := if coordinator.state.maxHistory ≤ history.length then history.tail else history
  ⟨{ coordinator.state with history := history ++ [record] }⟩

def pushAll (coordinator : WakeCoordinator) (records : List WakeHistory) : WakeCoordinator :=
  records.foldl pushHistory coordinator

/-! ### Cancellation and natural use -/

/-- A cancelled cycle that was never claimed cannot have spent quota; it is released. -/
def cancelMatching (coordinator : WakeCoordinator) (selects : WakeCycle → Bool)
    (completedAtMs : Nat) (errorCode : String) : WakeCoordinator :=
  let cancelled (cycle : WakeCycle) := cycle.status ≠ .completed && selects cycle
  let cycles := coordinator.state.cycles
  (coordinator.withCycles (cycles.filterMap fun cycle =>
    if !cancelled cycle then some cycle
    else if cycle.attemptsStarted ≠ 0 then some (cycle.finish completedAtMs) else none)).pushAll
    ((cycles.filter cancelled).map (canceledHistory · completedAtMs errorCode))

def removePendingForTask (coordinator : WakeCoordinator) (taskId : String) (completedAtMs : Nat) :
    WakeCoordinator :=
  coordinator.cancelMatching (·.taskId = taskId) completedAtMs "wake_task_canceled"

def removePendingForAccount (coordinator : WakeCoordinator) (accountId : String)
    (completedAtMs : Nat) : WakeCoordinator :=
  coordinator.cancelMatching (·.accountId = accountId) completedAtMs "wake_account_canceled"

def markNaturalUseForAccount (coordinator : WakeCoordinator) (accountId : String)
    (usedAtMs : Nat) : WakeCoordinator :=
  let used (cycle : WakeCycle) := cycle.status ≠ .completed && cycle.accountId = accountId
  let cycles := coordinator.state.cycles
  (coordinator.withCycles (cycles.map fun cycle =>
    if used cycle then cycle.finish usedAtMs else cycle)).pushAll
    ((cycles.filter used).map (naturalUseHistory · usedAtMs))

def completeByNaturalUse (coordinator : WakeCoordinator) (task : WakeTask) (account : WakeAccount)
    (transition : QuotaTransition) (cycleKey : String) (nowMs : Nat) :
    WakeDecision × WakeCoordinator :=
  let same (cycle : WakeCycle) :=
    sameCycle cycle account.id transition.windowKind transition.fingerprint
  let cycles := coordinator.state.cycles
  match cycles.find? same with
  | some cycle =>
    if cycle.status = .completed then (.skipped .skippedDuplicate, coordinator)
    else
      (.skipped .skippedAlreadyStarted,
        (coordinator.withCycles (cycles.replaceF fun found =>
          if same found then some (found.finish nowMs) else none)).pushHistory
          (naturalUseHistory cycle nowMs))
  | none =>
    let cycle : WakeCycle := {
      key := cycleKey
      status := .completed
      taskId := task.id
      accountId := account.id
      windowKind := transition.windowKind
      transitionFingerprint := transition.fingerprint
      trigger := task.trigger
      requiresConfirmation := false
      request := none
      verification := none
      jitterSeconds := task.jitterSeconds
      maxAttempts := task.maxAttemptsPerCycle
      attemptsStarted := 0
      dueAtMs := nowMs
      recordedAtMs := nowMs }
    match coordinator.reserveCycle cycle with
    | none => (.skipped .skippedCapacity, coordinator)
    | some coordinator =>
      (.skipped .skippedAlreadyStarted, coordinator.pushHistory (naturalUseHistory cycle nowMs))

/-! ### Evaluation -/

/-- Whether the task may wake the account after the transition. -/
def eligible (task : WakeTask) (account : WakeAccount) (transition : QuotaTransition)
    (policy : WakeAdapterPolicy) : Bool :=
  task.enabled && account.authMode = .oAuth && task.accountSelector.matches account &&
    task.trigger = .quotaFull && transition.windowKind = .primary &&
    .primary ∈ task.windowKinds && Text.trim transition.fingerprint ≠ "" &&
    account.isWakeEligible && transition.windowKind ∈ policy.windowsRequiringActivity

/-- The cycle that a new reservation starts with. -/
def pendingCycle (digest : WakeDigest) (task : WakeTask) (account : WakeAccount)
    (transition : QuotaTransition) (policy : WakeAdapterPolicy) (modelId : String) (nowMs : Nat) :
    WakeCycle :=
  let key := cycleKey digest account transition
  { key
    status := .pending
    taskId := task.id
    accountId := account.id
    windowKind := transition.windowKind
    transitionFingerprint := transition.fingerprint
    trigger := task.trigger
    requiresConfirmation := task.executionPolicy = .requireConfirmation
    request := some ⟨account.id, modelId, transition.windowKind, policy.outputTokenCap⟩
    verification := some ⟨transition.windowKind,
      quotaWindow account.details.quota transition.windowKind, policy.verificationDelayMs⟩
    jitterSeconds := task.jitterSeconds
    maxAttempts := task.maxAttemptsPerCycle
    attemptsStarted := 0
    dueAtMs := saturatingAdd u64Max nowMs (deterministicJitterMs digest key 1 task.jitterSeconds)
    recordedAtMs := nowMs }

/-- A new pending cycle has its execution metadata. -/
private theorem pendingCycle_schedule (digest : WakeDigest) (task : WakeTask) (account : WakeAccount)
    (transition : QuotaTransition) (policy : WakeAdapterPolicy) (modelId : String) (nowMs : Nat) :
    (pendingCycle digest task account transition policy modelId nowMs).schedule.isSome := rfl

def evaluate (digest : WakeDigest) (coordinator : WakeCoordinator) (task : WakeTask)
    (account : WakeAccount) (transition : QuotaTransition) (lastNaturalUseAtMs : Option Nat)
    (policy : WakeAdapterPolicy) (nowMs : Nat) : WakeDecision × WakeCoordinator :=
  match task.validate with
  | some error => (.rejected error, coordinator)
  | none =>
    if !policy.isValid then (.rejected .invalidAdapterPolicy, coordinator)
    else if !eligible task account transition policy then
      (.skipped .skippedIneligible, coordinator)
    else if lastNaturalUseAtMs.any (transition.transitionedAtMs ≤ ·) then
      coordinator.completeByNaturalUse task account transition
        (cycleKey digest account transition) nowMs
    else if coordinator.state.cycles.any
        (sameCycle · account.id transition.windowKind transition.fingerprint) then
      (.skipped .skippedDuplicate, coordinator)
    else
      match selectModel task.modelPolicy policy.models with
      | none => (.skipped .skippedIneligible, coordinator)
      | some modelId =>
        let schedule := (pendingCycle digest task account transition policy modelId nowMs).schedule.get
          (pendingCycle_schedule digest task account transition policy modelId nowMs)
        match coordinator.reserveCycle
            (pendingCycle digest task account transition policy modelId nowMs) with
        | none => (.skipped .skippedCapacity, coordinator)
        | some coordinator => (.scheduled schedule, coordinator)

/-! ### Claims -/

/-- The claimed cycle and its permit. -/
def claim (cycle : WakeCycle) (nowMs : Nat) (mode : WakeClaimMode) :
    Option (WakeCycle × WakePermit) :=
  if cycle.status ≠ .pending || nowMs < cycle.dueAtMs ||
      cycle.maxAttempts ≤ cycle.attemptsStarted || !mode.matches cycle then
    none
  else
    match cycle.request, cycle.verification with
    | some request, some verification =>
      let attempt := saturatingAdd u8Max cycle.attemptsStarted 1
      some ({ cycle with status := .inFlight, attemptsStarted := attempt, recordedAtMs := nowMs },
        { cycleKey := cycle.key
          taskId := cycle.taskId
          accountId := cycle.accountId
          windowKind := cycle.windowKind
          transitionFingerprint := cycle.transitionFingerprint
          modelId := request.modelId
          trigger := cycle.trigger
          requiresConfirmation := cycle.requiresConfirmation
          verificationDelayMs := verification.verifyAfterMs
          outputTokenCap := request.outputTokenCap
          attempt
          dueAtMs := cycle.dueAtMs
          reservedAtMs := nowMs
          request
          verification })
    | _, _ => none

/-- The loop over the cycles, until `remaining` permits are issued. -/
def claimCycles (nowMs : Nat) (mode : WakeClaimMode) :
    Nat → List WakeCycle → List WakeCycle × List WakePermit
  | _, [] => ([], [])
  | 0, cycles => (cycles, [])
  | remaining + 1, cycle :: cycles =>
    match claim cycle nowMs mode with
    | none =>
      let rest := claimCycles nowMs mode (remaining + 1) cycles
      (cycle :: rest.1, rest.2)
    | some (claimed, permit) =>
      let rest := claimCycles nowMs mode remaining cycles
      (claimed :: rest.1, permit :: rest.2)

def claimDueMatching (coordinator : WakeCoordinator) (nowMs maxClaims : Nat)
    (mode : WakeClaimMode) : List WakePermit × WakeCoordinator :=
  let claimed := claimCycles nowMs mode maxClaims coordinator.state.cycles
  (claimed.2, coordinator.withCycles claimed.1)

def claimDue (coordinator : WakeCoordinator) (nowMs maxClaims : Nat) :
    List WakePermit × WakeCoordinator := coordinator.claimDueMatching nowMs maxClaims .any

def claimDueAutomatic (coordinator : WakeCoordinator) (nowMs maxClaims : Nat) :
    List WakePermit × WakeCoordinator := coordinator.claimDueMatching nowMs maxClaims .automatic

def claimDueConfirmations (coordinator : WakeCoordinator) (nowMs maxClaims : Nat) :
    List WakePermit × WakeCoordinator := coordinator.claimDueMatching nowMs maxClaims .confirmation

/-! ### Completion and restart -/

/-- The cycle that the permit's attempt is in flight for. -/
def awaits (permit : WakePermit) (cycle : WakeCycle) : Bool :=
  cycle.key = permit.cycleKey && cycle.status = .inFlight &&
    cycle.attemptsStarted = permit.attempt

/-- The cycle again pending, after an attempt that ended or was lost at `endedAtMs`. -/
def retry (digest : WakeDigest) (cycle : WakeCycle) (endedAtMs : Nat) : WakeCycle :=
  { cycle with
    status := .pending
    dueAtMs := saturatingAdd u64Max endedAtMs (deterministicJitterMs digest cycle.key
      (saturatingAdd u8Max cycle.attemptsStarted 1) cycle.jitterSeconds)
    recordedAtMs := endedAtMs }

/-- The cycle after the attempt, finished or again pending. -/
def settle (digest : WakeDigest) (cycle : WakeCycle) (outcome : WakeCompletionOutcome)
    (completedAtMs : Nat) : WakeCycle :=
  if outcome = .confirmed || cycle.maxAttempts ≤ cycle.attemptsStarted then
    cycle.finish completedAtMs
  else retry digest cycle completedAtMs

def WakeCompletionOutcome.toOutcome : WakeCompletionOutcome → WakeOutcome
  | .confirmed => .confirmed
  | .unconfirmed => .unconfirmed
  | .failed => .failed

def complete (digest : WakeDigest) (coordinator : WakeCoordinator) (permit : WakePermit)
    (completion : WakeCompletion) : Bool × WakeCoordinator :=
  let cycles := coordinator.state.cycles
  match cycles.find? (awaits permit) with
  | none => (false, coordinator)
  | some cycle =>
    let completedAtMs := max completion.completedAtMs permit.reservedAtMs
    let record : WakeHistory := {
      taskId := cycle.taskId
      accountId := cycle.accountId
      windowKind := cycle.windowKind
      transitionFingerprint := cycle.transitionFingerprint
      modelId := cycle.request.map (·.modelId)
      trigger := cycle.trigger
      attempt := permit.attempt
      outcome := WakeCompletionOutcome.toOutcome completion.outcome
      startedAtMs := permit.reservedAtMs
      completedAtMs
      latencyMs := completion.latencyMs
      inputTokens := completion.inputTokens
      outputTokens := completion.outputTokens
      errorCode := completion.errorCode.map safeErrorCode }
    (true, (coordinator.withCycles (cycles.replaceF fun found =>
      if awaits permit found then some (settle digest found completion.outcome completedAtMs)
      else none)).pushHistory record)

/-- An attempt in flight when the process stopped may have spent its quota. -/
def reload (digest : WakeDigest) (cycle : WakeCycle) : WakeCycle :=
  if cycle.status = .inFlight then
    if cycle.attemptsStarted < cycle.maxAttempts then
      retry digest cycle cycle.recordedAtMs
    else cycle.finish cycle.recordedAtMs
  else cycle

def fromState (digest : WakeDigest) (state : WakeAutomationState) :
    Except String WakeCoordinator :=
  if state.maxCycles = 0 || state.maxHistory = 0 || state.maxCycles < state.cycles.length ||
      state.maxHistory < state.history.length || state.cycles.any (!validCycle ·) then
    .error "wake state bounds are invalid"
  else
    let coordinator : WakeCoordinator := ⟨{ state with
      cycles := state.cycles.map (reload digest)
      history := state.history.map fun record =>
        { record with errorCode := record.errorCode.map safeErrorCode } }⟩
    .ok (coordinator.cancelMatching (·.windowKind ≠ .primary) 0 "wake_window_redundant")

end WakeCoordinator

end ZenithRelay.Automations
