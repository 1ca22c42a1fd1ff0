import ZenithRelay.Foundations.Selection
import ZenithRelay.Scheduler.Rotation.Engine.Health

/-!
# Admission

Eligibility, normalized load, recovery arbitration and weighted selection.
-/

set_option autoImplicit false

namespace ZenithRelay.Scheduler.Rotation

structure ReadyCandidate where
  id : String
  capacityKey : String
  inFlight : Nat
  effectiveCapacity : Nat
  priority : Int
  weight : Nat
  recovery : Bool
  dueAtMs : Option Nat
  failureScoreMilli : Nat
  firstOutputLatencyMs : Option Nat
  deriving DecidableEq, Repr

namespace RotationEngine

abbrev Wait := Nat × CandidateBlockReason

/-- The wait the quota asks for, or the reason it blocks. -/
def quotaWait (engine : RotationEngine) (candidate : RotationCandidate) (nowMs : Nat) :
    Except CandidateBlockReason (Option Wait) :=
  let untilReset (resetAtMs : Option Nat) : Except CandidateBlockReason (Option Wait) :=
    match resetAtMs with
    | some resetAtMs =>
      if resetAtMs > nowMs then .ok (some (resetAtMs, .quotaExhausted)) else .error .quotaExhausted
    | none => .error .quotaExhausted
  match candidate.quota with
  | .creditFallback resetAtMs =>
    if observationIsFresh candidate.providerCreditsObservedAtMs nowMs engine.quotaStaleAfterMs then
      .ok none
    else untilReset resetAtMs
  | .exhausted resetAtMs => untilReset resetAtMs
  | .unknown | .available | .stale => .ok none

/-- Keeps the later of two deadlines. -/
def laterWait (earliestWait : Option Wait) (notBeforeMs nowMs : Nat)
    (reason : CandidateBlockReason) : Option Wait :=
  if notBeforeMs > nowMs ∧ earliestWait.all (fun wait => notBeforeMs > wait.1) then
    some (notBeforeMs, reason)
  else earliestWait

def rateWait (earliestWait : Option Wait) (rate : RateState) (nowMs : Nat) : Option Wait :=
  match rate with
  | .limited notBeforeMs => laterWait earliestWait notBeforeMs nowMs .rateLimited
  | .ready => earliestWait

/-- The part of `mutable_availability` that reads capacity and the circuit. -/
def capacityAvailability (engine : RotationEngine) (runtime : CandidateRuntime)
    (circuit : CircuitRuntime) : CandidateAvailability :=
  let capacityLimit := engine.capacityLimits[runtime.candidate.capacityKey]?.getD 0
  if engine.leases.size ≥ engine.maxInFlight then .busy .capacityBusy
  else if capacityLimit > 0 ∧
      engine.capacityInFlightOf runtime.candidate.capacityKey ≥ capacityLimit then
    .busy .capacityBusy
  else
    match circuit.state with
    | .degraded | .open =>
      if circuit.halfOpenLease.isSome then .busy .recoveryBusy
      else if runtime.inFlight > 0 ∧ runtime.candidate.maxConcurrency > 0 ∧
          runtime.inFlight ≥ runtime.candidate.maxConcurrency then
        .busy .capacityBusy
      else .ready true
    | .halfOpen => .busy .recoveryBusy
    | .closed =>
      if runtime.candidate.maxConcurrency > 0 ∧
          runtime.inFlight ≥ runtime.candidate.maxConcurrency then
        .busy .capacityBusy
      else .ready false

def mutableAvailability (engine : RotationEngine) (runtime : CandidateRuntime) (routeKey : String)
    (nowMs : Nat) : CandidateAvailability :=
  match runtime.candidate.auth with
  | .needsRefresh => .blocked .authRequired
  | .blocked => .blocked .authBlocked
  | .ready =>
    match engine.quotaWait runtime.candidate nowMs with
    | .error reason => .blocked reason
    | .ok quotaWait =>
      let modelRouteRate := runtime.candidate.routeRates[routeKey]?.getD runtime.candidate.rate
      let rateWait := rateWait (rateWait quotaWait runtime.candidate.rate nowMs) modelRouteRate nowMs
      let circuit := engine.circuitRuntime runtime.candidate.id routeKey
      let earliestWait :=
        match circuit.notBeforeMs with
        | some notBeforeMs => laterWait rateWait notBeforeMs nowMs .circuitOpen
        | none => rateWait
      match earliestWait with
      | some (atMs, reason) => .waitUntil atMs reason
      | none => engine.capacityAvailability runtime circuit

def candidateAvailability (engine : RotationEngine) (request : RotationRequest)
    (candidateId : String) (nowMs : Nat) : CandidateAvailability :=
  if request.tried.contains candidateId then .blocked .alreadyTried
  else if request.allowedCandidates.any (fun allowed => !allowed.contains candidateId) then
    .blocked .notAllowed
  else if request.owner.any (fun owner => owner ≠ candidateId) then .blocked .ownerMismatch
  else
    match engine.candidates[candidateId]? with
    | none => .blocked .disabled
    | some runtime =>
      match runtime.candidate.supports request with
      | .error reason => .blocked reason
      | .ok () => engine.mutableAvailability runtime request.routeKey nowMs

/-- What a ready candidate is: current, within every capacity limit, and on a
circuit that is closed or may be tried again. -/
structure IsReady (engine : RotationEngine) (request : RotationRequest) (runtime : CandidateRuntime)
    (nowMs : Nat) (recovery : Bool) : Prop where
  supported : runtime.candidate.supports request = .ok ()
  leaseRoom : engine.leases.size < engine.maxInFlight
  capacityRoom : ∀ limit, engine.capacityLimits[runtime.candidate.capacityKey]? = some limit →
    0 < limit → engine.capacityInFlightOf runtime.candidate.capacityKey < limit
  concurrencyRoom : 0 < runtime.candidate.maxConcurrency →
    runtime.inFlight < runtime.candidate.maxConcurrency
  closed : recovery = false →
    (engine.circuitRuntime runtime.candidate.id request.routeKey).state = .closed
  retryable : recovery = true →
    ((engine.circuitRuntime runtime.candidate.id request.routeKey).state = .degraded ∨
      (engine.circuitRuntime runtime.candidate.id request.routeKey).state = .open) ∧
    (engine.circuitRuntime runtime.candidate.id request.routeKey).halfOpenLease = none

private theorem capacityAvailability_ready {engine : RotationEngine} {request : RotationRequest}
    {runtime : CandidateRuntime} {recovery : Bool} (nowMs : Nat)
    (supported : runtime.candidate.supports request = .ok ())
    (ready : engine.capacityAvailability runtime
      (engine.circuitRuntime runtime.candidate.id request.routeKey) = .ready recovery) :
    IsReady engine request runtime nowMs recovery := by
  unfold capacityAvailability at ready
  dsimp only at ready
  split at ready
  next => cases ready
  next leaseRoom =>
  split at ready
  next => cases ready
  next capacityRoom =>
  have room : ∀ limit, engine.capacityLimits[runtime.candidate.capacityKey]? = some limit →
      0 < limit → engine.capacityInFlightOf runtime.candidate.capacityKey < limit := by
    intro limit stored positive
    rw [stored, Option.getD_some] at capacityRoom
    omega
  cases state : (engine.circuitRuntime runtime.candidate.id request.routeKey).state with
  | closed =>
      simp only [state] at ready
      split at ready
      next => cases ready
      next concurrency =>
      cases ready
      exact ⟨supported, by omega, room, by omega, fun _ => state, nofun⟩
  | degraded | «open» =>
      simp only [state] at ready
      split at ready
      next => cases ready
      next free =>
      split at ready
      next => cases ready
      next concurrency =>
      cases ready
      refine ⟨supported, by omega, room, by omega, nofun, fun _ => ⟨?_, by simpa using free⟩⟩
      simp [state]
  | halfOpen => simp [state] at ready

theorem candidateAvailability_ready {engine : RotationEngine} {request : RotationRequest}
    {candidateId : String} {nowMs : Nat} {recovery : Bool}
    (ready : engine.candidateAvailability request candidateId nowMs = .ready recovery) :
    ∃ runtime, engine.candidates[candidateId]? = some runtime ∧
      IsReady engine request runtime nowMs recovery := by
  unfold candidateAvailability at ready
  split at ready
  next => cases ready
  next =>
  split at ready
  next => cases ready
  next =>
  split at ready
  next => cases ready
  next =>
  cases found : engine.candidates[candidateId]? with
  | none => simp [found] at ready
  | some runtime =>
      cases supported : runtime.candidate.supports request with
      | error reason => simp [found, supported] at ready
      | ok checked =>
          simp only [found, supported] at ready
          unfold mutableAvailability at ready
          cases auth : runtime.candidate.auth with
          | needsRefresh | blocked => simp [auth] at ready
          | ready =>
              cases quota : engine.quotaWait runtime.candidate nowMs with
              | error reason => simp [auth, quota] at ready
              | ok wait =>
                  simp only [auth, quota] at ready
                  split at ready
                  next => cases ready
                  next => exact ⟨runtime, rfl, capacityAvailability_ready nowMs supported ready⟩

/-- The earliest deadline that can make this request eligible. -/
def nextWakeup (engine : RotationEngine) (request : RotationRequest) (nowMs : Nat) : Option Nat :=
  (engine.candidates.keys.filterMap fun candidateId =>
    match engine.candidateAvailability request candidateId nowMs with
    | .waitUntil atMs _ => some atMs
    | _ => none).min?

/-- What selection reads of one stored candidate, if it is ready. -/
def readyCandidate (engine : RotationEngine) (request : RotationRequest) (nowMs : Nat)
    (runtime : CandidateRuntime) : Option ReadyCandidate :=
  let candidate := runtime.candidate
  let health := engine.health[(candidate.id, request.routeKey)]?
  match engine.candidateAvailability request candidate.id nowMs with
  | .ready recovery =>
    some {
      id := candidate.id
      capacityKey := candidate.capacityKey
      inFlight := engine.capacityInFlightOf candidate.capacityKey
      effectiveCapacity :=
        min ((engine.capacityLimits[candidate.capacityKey]?.filter (· > 0)).getD engine.maxInFlight)
          engine.maxInFlight
      priority := candidate.priority
      weight := if engine.mode = .roundRobin then 1 else candidate.weight
      recovery
      dueAtMs := engine.circuits[(candidate.id, request.routeKey)]?.bind (·.notBeforeMs)
      failureScoreMilli := (health.map (·.decayedFailureScore nowMs)).getD 0
      firstOutputLatencyMs :=
        (health.filter fun health => health.latencyObservedAtMs.any fun observed =>
          observed ≤ nowMs && nowMs - observed ≤ healthHalfLifeMs).bind (·.firstOutputLatencyMs) }
  | _ => none

/-- Ready candidates, one for each capacity key: the alias of least id. -/
def readyCandidates (engine : RotationEngine) (request : RotationRequest) (nowMs : Nat) :
    List ReadyCandidate :=
  (BTreeMap.firstByKey (·.capacityKey)
    (engine.candidates.values.filterMap (engine.readyCandidate request nowMs))).values

/-- The eligible candidates, and whether an ordinary alternative is ready. -/
def selectionCandidates (engine : RotationEngine) (request : RotationRequest) (nowMs : Nat) :
    List ReadyCandidate × Bool :=
  let ready := engine.readyCandidates request nowMs
  let ordinaryAlternatives := ready.any fun candidate => !candidate.recovery
  let recoveryAllowed := engine.recoveryInFlight < engine.recoveryPolicy.maxInFlight &&
    (!ordinaryAlternatives || engine.recoveryCredits > 0)
  (ready.filter fun candidate => !candidate.recovery || recoveryAllowed, ordinaryAlternatives)

def freshQuotaRemaining (engine : RotationEngine) (candidateId : String) (nowMs : Nat) :
    Option Nat := do
  let runtime ← engine.candidates[candidateId]?
  if runtime.candidate.quota = .unknown then
    let reference ← runtime.candidate.quotaReference
    reference.freshRemaining nowMs engine.quotaStaleAfterMs
  else if runtime.candidate.quota ≠ .available then none
  else
    let remaining ← runtime.candidate.quotaRemainingBasisPoints.filter (· > 0)
    if observationIsFresh runtime.candidate.quotaObservedAtMs nowMs engine.quotaStaleAfterMs then
      some remaining
    else none

def freshProviderCredits (engine : RotationEngine) (candidateId : String) (nowMs : Nat) :
    Option Nat := do
  let runtime ← engine.candidates[candidateId]?
  let candidate := runtime.candidate
  if !observationIsFresh candidate.providerCreditsObservedAtMs nowMs engine.quotaStaleAfterMs then
    none
  else if candidate.providerCreditsUnlimited then some u64Max
  else candidate.providerCreditsMicroUnits.filter (· > 0)

def quotaSwitchMargin (engine : RotationEngine) (request : RotationRequest)
    (candidateId : String) : Nat :=
  if engine.mode = .automatic ∧ request.owner.isNone ∧ request.preferred = some candidateId then
    cacheAffinityQuotaSwitchMarginBasisPoints
  else quotaSwitchMarginBasisPoints

def withinQuotaBand (engine : RotationEngine) (request : RotationRequest) (candidateId : String)
    (best nowMs : Nat) : Bool :=
  (engine.freshQuotaRemaining candidateId nowMs).any fun remaining =>
    best - remaining < engine.quotaSwitchMargin request candidateId

/-- Whether a candidate is ahead of the owner by the margins that admission moves
cache owners with. -/
def hasMaterialResourceLead (engine : RotationEngine) (candidateId ownerId : String)
    (nowMs : Nat) : Bool :=
  if engine.mode ≠ .automatic then false
  else
    match engine.freshQuotaRemaining candidateId nowMs, engine.freshQuotaRemaining ownerId nowMs with
    | some remaining, some ownerRemaining =>
      decide (cacheAffinityQuotaSwitchMarginBasisPoints ≤ remaining - ownerRemaining)
    | some _, none => true
    | none, some _ => false
    | none, none =>
      match engine.freshProviderCredits candidateId nowMs,
        engine.freshProviderCredits ownerId nowMs with
      | some credits, some ownerCredits =>
        decide (providerCreditSwitchMarginMicroUnits ≤ credits - ownerCredits)
      | some _, none => true
      | none, _ => false

/-- Load comparison of two physical members, cross-multiplied by capacity. -/
def compareLoad (left right : ReadyCandidate) : Ordering :=
  compare (left.inFlight * right.effectiveCapacity) (right.inFlight * left.effectiveCapacity)

def leastLoadedGroup (ready : List ReadyCandidate) : List ReadyCandidate :=
  match Selection.minBy compareLoad ready with
  | none => []
  | some best => ready.filter fun candidate => compareLoad candidate best = .eq

def cacheAwareLoadGroup (ready : List ReadyCandidate) (request : RotationRequest) :
    List ReadyCandidate :=
  let candidates := leastLoadedGroup ready
  match candidates.head?, request.preferred with
  | some leastLoaded, some preferredId =>
    match ready.find? fun candidate => !candidate.recovery && candidate.id = preferredId with
    | none => candidates
    | some preferred =>
      let preferredLoad :=
        (preferred.inFlight - cacheAffinityExtraRequests) * leastLoaded.effectiveCapacity
      let baselineLoad := leastLoaded.inFlight * preferred.effectiveCapacity
      if preferredLoad ≤ baselineLoad ∧ ¬candidates.any (fun candidate => candidate.id = preferred.id)
      then candidates ++ [preferred]
      else candidates
  | _, _ => candidates

def resourceGroup (engine : RotationEngine) (candidates : List ReadyCandidate)
    (request : RotationRequest) (nowMs : Nat) : List ReadyCandidate :=
  let bestQuota :=
    (candidates.filterMap fun candidate => engine.freshQuotaRemaining candidate.id nowMs).max?
  let bestCredits :=
    (candidates.filterMap fun candidate => engine.freshProviderCredits candidate.id nowMs).max?
  match bestQuota, bestCredits with
  | some bestQuota, _ =>
    candidates.filter fun candidate => engine.withinQuotaBand request candidate.id bestQuota nowMs
  | none, some bestCredits =>
    candidates.filter fun candidate =>
      (engine.freshProviderCredits candidate.id nowMs).any fun credits =>
        credits = bestCredits || (request.preferred = some candidate.id &&
          bestCredits - credits < providerCreditSwitchMarginMicroUnits)
  | none, none => candidates

def softHealthGroup (candidates : List ReadyCandidate) : List ReadyCandidate :=
  match (candidates.map (·.failureScoreMilli)).min? with
  | none => candidates
  | some bestFailureScore =>
    -- All members are compared with one baseline; pairwise margins would not be transitive.
    let healthy := candidates.filter fun candidate =>
      candidate.failureScoreMilli - bestFailureScore < healthFailureSwitchMarginMilli
    let fastest := ((healthy.filterMap (·.firstOutputLatencyMs)).map fun latency =>
      max latency 1).min?
    match fastest with
    | none => healthy
    | some fastest =>
      healthy.filter fun candidate => candidate.firstOutputLatencyMs.all fun latency =>
        max latency 1 * 1000 < fastest * (1000 + healthLatencySwitchMarginMilli)

/-- Recovery trials are ordered by due time, then by id. -/
def compareDue (left right : ReadyCandidate) : Ordering :=
  (compare left.dueAtMs right.dueAtMs).then (compare left.id right.id)

/-- Saved order: higher priority first, then smaller id. -/
def compareSavedOrder (left right : ReadyCandidate) : Ordering :=
  (compare right.priority left.priority).then (compare left.id right.id)

def selectionGroup (engine : RotationEngine) (ready : List ReadyCandidate)
    (request : RotationRequest) (nowMs : Nat) : List ReadyCandidate :=
  let byMode :=
    match engine.mode with
    | .failover => (Selection.minBy compareSavedOrder ready).toList
    | .roundRobin | .weightedRoundRobin => ready
    | .automatic =>
      softHealthGroup (engine.resourceGroup (cacheAwareLoadGroup ready request) request nowMs)
  match Selection.minBy compareDue (ready.filter (·.recovery)) with
  | some recovery => if engine.mode ≠ .failover then [recovery] else byMode
  | none => byMode

def chooseRoundRobin (engine : RotationEngine) (routeKey : String)
    (candidates : List ReadyCandidate) : Option ReadyCandidate :=
  let ordered := candidates.insertionSort fun left right => compareSavedOrder left right ≠ .gt
  let previousCursor := engine.roundRobinCursor[routeKey]?.map fun cursor =>
    let priority :=
      ((engine.candidates.values.find? fun runtime =>
        runtime.candidate.capacityKey = cursor.capacityKey).map (·.candidate.priority)).getD
        cursor.priority
    (priority, cursor.candidateId)
  let nextIndex := (previousCursor.bind fun previous =>
    ordered.findIdx? fun candidate =>
      candidate.priority < previous.1 ||
        (candidate.priority = previous.1 && compare candidate.id previous.2 == .gt)).getD 0
  ordered[nextIndex]?

/-- The credit a member has once this round's weight is added. -/
def earnedCredit (engine : RotationEngine) (routeKey : String) (candidate : ReadyCandidate) : Int :=
  saturatingAddI64 (engine.routeCredit routeKey candidate.capacityKey) candidate.weight

def compareWeighted (engine : RotationEngine) (routeKey : String)
    (left right : ReadyCandidate) : Ordering :=
  ((compare (engine.earnedCredit routeKey left) (engine.earnedCredit routeKey right)).then
    (if engine.mode = .weightedRoundRobin then compare left.priority right.priority else .eq)).then
    -- The last maximal element wins, so ids are compared the other way round.
    (compare right.id left.id)

def compareDueWeighted (left right : ReadyCandidate) : Ordering :=
  (compare (left.dueAtMs.getD 0) (right.dueAtMs.getD 0)).then (compare right.id left.id)

def chooseWeighted (engine : RotationEngine) (routeKey : String)
    (candidates : List ReadyCandidate) : Option ReadyCandidate :=
  if candidates.all (·.recovery) then Selection.minBy compareDueWeighted candidates
  else Selection.maxBy (engine.compareWeighted routeKey) candidates

/-- The session's own member, then its previously successful alternatives. -/
def affineCandidate (request : RotationRequest) (group : List ReadyCandidate) :
    Option ReadyCandidate :=
  (group.find? fun candidate => !candidate.recovery && request.preferred = some candidate.id).or
    (request.warmFallbacks.findSome? fun alternative =>
      group.find? fun candidate => !candidate.recovery && candidate.id = alternative)

def chooseForRequest (engine : RotationEngine) (request : RotationRequest)
    (group : List ReadyCandidate) : Option ReadyCandidate :=
  let affine :=
    if engine.mode = .automatic ∧ request.owner.isNone then affineCandidate request group else none
  match affine with
  | some candidate => some candidate
  | none =>
    if engine.mode = .roundRobin then engine.chooseRoundRobin request.routeKey group
    else engine.chooseWeighted request.routeKey group

def selectionReason (engine : RotationEngine) (request : RotationRequest)
    (ready : List ReadyCandidate) (selected : ReadyCandidate) (nowMs : Nat) :
    RotationSelectionReason :=
  if request.owner.isSome then .hardOwner
  else if selected.recovery then .recovery
  else if ready.length = 1 then .onlyEligible
  else if engine.mode = .failover ∨ engine.mode = .roundRobin then .manualPriority
  else if engine.mode ≠ .automatic then .weightedRotation
  else
    let leastLoaded := cacheAwareLoadGroup ready request
    let bestQuota :=
      (leastLoaded.filterMap fun candidate => engine.freshQuotaRemaining candidate.id nowMs).max?
    let selectedCredits := engine.freshProviderCredits selected.id nowMs
    if leastLoaded.length < ready.length then .leastLoaded
    else if bestQuota.any fun best => leastLoaded.any fun candidate =>
        !engine.withinQuotaBand request candidate.id best nowMs then
      .quotaHeadroom
    else if selectedCredits.isSome &&
        leastLoaded.all (fun candidate => (engine.freshQuotaRemaining candidate.id nowMs).isNone) &&
        leastLoaded.any (fun candidate =>
          engine.freshProviderCredits candidate.id nowMs ≠ selectedCredits) then
      .providerCredits
    else .weightedRotation

/-- The preview of a reservation; it changes nothing. -/
def select (engine : RotationEngine) (request : RotationRequest) (nowMs : Nat) :
    Option RotationSelection :=
  let ready := (engine.selectionCandidates request nowMs).1
  let group := engine.selectionGroup ready request nowMs
  (engine.chooseForRequest request group).map fun selected => {
    candidateId := selected.id
    priority := selected.priority
    recovery := selected.recovery
    eligibleCandidates := min ready.length u32Max
    reason := engine.selectionReason request ready selected nowMs }

def creditKey (routeKey : String) (candidate : ReadyCandidate) : String × String :=
  (routeKey, candidate.capacityKey)

/-- Credit of the group's members only; every member earns its weight. -/
def earnCredits (engine : RotationEngine) (routeKey : String) (candidates : List ReadyCandidate) :
    BTreeMap (String × String) Int :=
  candidates.foldl
    (fun credit candidate =>
      credit.insert (creditKey routeKey candidate)
        (saturatingAddI64 (credit[creditKey routeKey candidate]?.getD 0) candidate.weight))
    (engine.rotationCredit.filter fun key _ =>
      key.1 ≠ routeKey || candidates.any fun candidate => candidate.capacityKey = key.2)

def advanceRotationState (engine : RotationEngine) (routeKey : String)
    (candidates : List ReadyCandidate) (selectedCandidateId : String)
    (advanceRoundRobinCursor : Bool) : RotationEngine :=
  let selected := candidates.find? fun candidate => candidate.id = selectedCandidateId
  if engine.mode = .roundRobin then
    match advanceRoundRobinCursor, selected with
    | true, some candidate =>
      { engine with
        roundRobinCursor := engine.roundRobinCursor.insert routeKey
          ⟨candidate.capacityKey, candidate.id, candidate.priority⟩ }
    | _, _ => engine
  else
    let totalWeight := (candidates.map fun candidate => (candidate.weight : Int)).sum
    let earned := engine.earnCredits routeKey candidates
    match selected with
    | none => { engine with rotationCredit := earned }
    | some selected =>
      { engine with
        rotationCredit := earned.modify (creditKey routeKey selected) fun credit =>
          saturatingSubI64 credit totalWeight }

theorem advanceRotationState_same (engine : RotationEngine) (routeKey : String)
    (candidates : List ReadyCandidate) (selectedCandidateId : String)
    (advanceRoundRobinCursor : Bool) :
    ∃ rotationCredit roundRobinCursor,
      engine.advanceRotationState routeKey candidates selectedCandidateId
        advanceRoundRobinCursor = { engine with rotationCredit, roundRobinCursor } := by
  unfold advanceRotationState
  dsimp only
  split <;> split <;> exact ⟨_, _, rfl⟩

end RotationEngine

end ZenithRelay.Scheduler.Rotation
