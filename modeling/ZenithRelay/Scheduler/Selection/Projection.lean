import ZenithRelay.Scheduler.Selection.State

/-!
# Projection

The configured routes and requests that the rotation engine admits: candidates
are projected lazily, before every admission.
-/

set_option autoImplicit false

namespace ZenithRelay.Scheduler

open Rotation

def i32Max : Nat := 2147483647

/-- What `select` and the admission queries are asked. -/
structure SelectionRequest where
  model : String
  allowedProtocols : List WireApi
  scope : CandidateScope
  tried : BTreeSet String
  responseAffinityKey : Option String
  promptAffinityKey : Option String
  nowMs : Nat

inductive SelectionReason where
  | responseAffinity
  | promptCacheAffinity
  | quotaHeadroom
  | providerCredits
  | manualPriority
  | parallelLoad
  | fairRotation
  | fallbackAttempt
  | onlyEligible
  deriving DecidableEq, Repr

structure Selection where
  candidateId : String
  responseAffinityHit : Bool
  halfOpenProbe : Bool
  reason : SelectionReason
  rotationRequest : RotationRequest

def operationName : RotationOperation → String
  | .text => "Text"
  | .image => "Image"
  | .compaction => "Compaction"
  | .metadata => "Metadata"

def rotationRouteKey (model : String) (operation : RotationOperation) : String :=
  modelIdKey model ++ ":" ++ operationName operation

def PoolRoutingMode.rotationMode : PoolRoutingMode → Option RotationMode
  | .automatic => some .automatic
  | .weightedRoundRobin => some .weightedRoundRobin
  | .failover => some .failover
  -- Both manual choices use one cycling mode over the saved member order.
  | .inOrder | .roundRobin => some .roundRobin
  | .smart => none

namespace PoolScheduler

def syncRotationMode (scheduler : PoolScheduler) : PoolScheduler × Outcome Unit :=
  let mode :=
    match scheduler.poolRouting with
    | some policy => policy.mode.rotationMode
    | none => some .automatic
  match mode with
  | some mode => ({ scheduler with rotation := scheduler.rotation.setMode mode }, .returned ())
  | none => (scheduler, .panicked "legacy rotation policy reached active scheduler")

def setPoolRouting (scheduler : PoolScheduler) (policy : PoolRoutingPolicy) :
    PoolScheduler × Outcome (Except String Unit) :=
  match policy.validateActivation with
  | .error message => (scheduler, .returned (.error message))
  | .ok () =>
    if scheduler.poolRouting ≠ some policy then
      let (synced, outcome) := { scheduler with poolRouting := some policy }.syncRotationMode
      (synced, outcome.map .ok)
    else (scheduler, .returned (.ok ()))

/-- The routes a candidate serves with one of its models. -/
def addModelRoutes (candidate : RuntimeCandidate) (rotationCandidate : RotationCandidate)
    (model : String) : RotationCandidate :=
  let add (operation : RotationOperation) (target : RotationCandidate) :=
    target.addRoute (rotationRouteKey model operation) model operation
  if isImageModelId model then add .image rotationCandidate
  else if candidate.kind = .oAuthAccount ∧ candidate.protocol = .responses then
    add .compaction (add .text rotationCandidate)
  else add .text rotationCandidate

def rotationCandidate (scheduler : PoolScheduler) (candidate : RuntimeCandidate) :
    Option RotationCandidate :=
  candidate.models.toList.head?.map fun primaryModel =>
    let policy := scheduler.memberPolicy candidate
    let projected := RotationCandidate.create candidate.id (rotationRouteKey primaryModel .text)
      primaryModel
    candidate.models.toList.foldl (addModelRoutes candidate) { projected with
      capacityKey := candidate.memberKey
      priority :=
        match policy with
        | some (rank, _) => -(if rank ≤ i32Max then rank else i32Max : Nat)
        | none => candidate.priority
      weight := max 1 (min (scheduler.memberWeight candidate) 100)
      capacityLimit := (policy.map fun entry => entry.2.maxConcurrency).getD 0
      providerCreditsMicroUnits := candidate.providerCreditsMicroUnits
      providerCreditsUnlimited := candidate.providerCreditsUnlimited
      providerCreditsObservedAtMs := candidate.providerCreditsObservedAtMs
      enabled := candidate.enabled
      draining := candidate.draining
      quotaReference := scheduler.quotaReferences[candidate.id]?
      routes := ∅
      routeRates := ∅ }

/-- Quota left above the protected reserve of a candidate. -/
def routingQuotaFactor (scheduler : PoolScheduler) (candidate : RuntimeCandidate) : Nat :=
  let reserve :=
    match scheduler.protectedCandidate with
    | some (protectedId, reserve) => if protectedId = candidate.id then reserve else 0
    | none => 0
  match candidate.quota with
  | .available remaining => remaining - reserve
  | .unknown => if reserve = 0 then 1 else 0
  | .creditFallback | .exhausted | .stale => 0

def routingQuota (scheduler : PoolScheduler) (candidate : RuntimeCandidate) : CandidateQuota :=
  match candidate.quota with
  | .available _ => .available (scheduler.routingQuotaFactor candidate)
  | quota => quota

/-- The quota state of a projection, with the remaining basis points it reports. -/
def rotationQuota (scheduler : PoolScheduler) (candidate : RuntimeCandidate) :
    QuotaState × Option Nat :=
  match scheduler.routingQuota candidate with
  | .unknown => (.unknown, none)
  | .creditFallback => (.creditFallback candidate.quotaResetAtMs, none)
  | .available 0 => (.exhausted candidate.quotaResetAtMs, none)
  | .available remaining => (.available, some remaining)
  | .stale => (.stale, none)
  | .exhausted => (.exhausted candidate.quotaResetAtMs, none)

def rateState : Option Nat → RateState
  | some notBeforeMs => .limited notBeforeMs
  | none => .ready

/-- The deadlines of a candidate that are provider limits, under a scope test.
Transient health is left to the engine's own circuits. -/
def providerDeadlines (scheduler : PoolScheduler) (candidate : RuntimeCandidate)
    (inScope : String → Bool) : List Nat :=
  (candidate.cooldowns.toList.filter fun entry =>
    inScope entry.1 &&
      scheduler.cooldownReasons[(candidate.id, entry.1)]? != some .transient).map Prod.snd

def syncModelRates (scheduler : PoolScheduler) (candidate : RuntimeCandidate)
    (rotation : RotationEngine) (model : String) : RotationEngine :=
  let notBeforeMs := (scheduler.providerDeadlines candidate fun scope =>
    scope == "*" || Text.eqIgnoreAsciiCase scope model).max?
  [RotationOperation.text, .compaction, .image].foldl
    (fun rotation operation =>
      (rotation.syncCandidateRouteRate candidate.id (rotationRouteKey model operation)
        (rateState notBeforeMs)).1)
    rotation

/-- One candidate's configuration and observations, installed in the engine. -/
def syncRotationCandidate (scheduler : PoolScheduler) (rotation : RotationEngine)
    (candidate : RuntimeCandidate) : RotationEngine :=
  if scheduler.retiredCandidates.contains candidate.id then rotation
  else
    match scheduler.rotationCandidate candidate with
    | none => rotation
    | some projected =>
      let auth := if candidate.health.isEligible then .ready else .blocked
      let (quota, remaining) := scheduler.rotationQuota candidate
      let globalRate := rateState (scheduler.providerDeadlines candidate (· == "*")).head?
      let installed := (rotation.upsert projected).1
      let observed := (installed.syncCandidateState candidate.id candidate.enabled
        candidate.draining auth quota globalRate).1
      let measured :=
        (observed.setQuotaRemaining candidate.id remaining candidate.quotaUpdatedAtMs).1
      let credited := (measured.setProviderCredits candidate.id
        candidate.providerCreditsMicroUnits candidate.providerCreditsUnlimited
        candidate.providerCreditsObservedAtMs).1
      candidate.models.toList.foldl (scheduler.syncModelRates candidate) credited

/-- Engine records of candidates that are neither configured nor leased. -/
def staleRotationCandidates (scheduler : PoolScheduler) (rotation : RotationEngine) :
    List String :=
  rotation.candidates.keys.filter fun candidateId =>
    !scheduler.candidates.contains candidateId &&
      !scheduler.rotationLeases.values.any fun lease => lease.candidateId == candidateId

def syncAllRotationCandidates (scheduler : PoolScheduler) : PoolScheduler :=
  let rotation := scheduler.rotation.setQuotaStaleAfterMs scheduler.quotaStaleAfterMs
  let synced := scheduler.candidates.values.foldl scheduler.syncRotationCandidate rotation
  { scheduler with
    rotation := (scheduler.staleRotationCandidates synced).foldl
      (fun rotation candidateId => (rotation.remove candidateId).1) synced }

/-- A request for the engine; `requestId` is the caller's or a fresh one. -/
def rotationRequest (requestId : RequestId) (candidateId : Option String) (model : String)
    (operation : RotationOperation) (allowedCandidateIds : BTreeSet String) : RotationRequest :=
  { RotationRequest.create requestId (rotationRouteKey model operation) model with
    operation
    allowedCandidates := some allowedCandidateIds
    owner := candidateId }

/-- Whether the protected reserve of a candidate leaves it admissible. -/
def quotaReserveAllows (scheduler : PoolScheduler) (candidate : RuntimeCandidate) (nowMs : Nat) :
    Bool :=
  match scheduler.protectedCandidate with
  | none => true
  | some (protectedId, reserve) =>
    if protectedId ≠ candidate.id then true
    else
      match candidate.quota with
      | .available remaining =>
        decide (remaining > reserve) &&
          observationIsFresh candidate.quotaUpdatedAtMs nowMs scheduler.quotaStaleAfterMs
      | .creditFallback =>
        reserve == 0 &&
          observationIsFresh candidate.providerCreditsObservedAtMs nowMs
            scheduler.quotaStaleAfterMs
      | .unknown | .exhausted | .stale => false

/-- Structural eligibility; auth, quota, rate and circuits belong to the engine. -/
def rotationVisible (scheduler : PoolScheduler) (candidate : RuntimeCandidate) (model : String)
    (allowedProtocols : List WireApi) (scope : CandidateScope) (nowMs : Nat) : Bool :=
  !scheduler.retired && !scheduler.retiredCandidates.contains candidate.id &&
    !scheduler.executionFences.contains candidate.id &&
    !scheduler.capabilityBlocks.contains (candidate.id, modelIdKey model) &&
    scheduler.quotaReserveAllows candidate nowMs &&
    candidate.isConfigured model allowedProtocols scope

/-- One physical member has one vote: its native protocol route if it has one. -/
def addMemberRoute (scheduler : PoolScheduler) (members : BTreeMap String RuntimeCandidate)
    (candidate : RuntimeCandidate) : BTreeMap String RuntimeCandidate :=
  match members[candidate.memberKey]? with
  | none => members.insert candidate.memberKey candidate
  | some preferred =>
    if scheduler.nativeRoutes.contains candidate.id &&
        !scheduler.nativeRoutes.contains preferred.id then
      members.insert candidate.memberKey candidate
    else members

/-- The admitted route of the physical member a candidate id belongs to. -/
def admittedRoute (scheduler : PoolScheduler) (members : BTreeMap String RuntimeCandidate)
    (candidateId : String) : Option String :=
  scheduler.candidates[candidateId]?.bind fun candidate =>
    members[candidate.memberKey]?.map (·.id)

/-- Warm fallbacks in the order the alternatives are remembered, without repeats. -/
def warmFallbacks (scheduler : PoolScheduler) (members : BTreeMap String RuntimeCandidate)
    (preferred : Option String) (alternatives : List String) : List String :=
  alternatives.foldl
    (fun fallbacks candidateId =>
      match scheduler.admittedRoute members candidateId with
      | some route =>
        if preferred ≠ some route ∧ !fallbacks.contains route then fallbacks ++ [route]
        else fallbacks
      | none => fallbacks)
    []

/-- Builds a request from an already synchronized projection. -/
def rotationRequestFromSyncedState (scheduler : PoolScheduler) (request : SelectionRequest)
    (operation : RotationOperation) (freshRequestId : RequestId) :
    PoolScheduler × Option RotationRequest :=
  if scheduler.retired then (scheduler, none)
  else
    let allowed := scheduler.candidates.values.filter fun candidate =>
      !request.tried.contains candidate.id && scheduler.rotationVisible candidate request.model
        request.allowedProtocols request.scope request.nowMs
    let (responseAffinity, owner) :=
      match request.responseAffinityKey with
      | some key => scheduler.responseAffinity.get key request.nowMs
      | none => (scheduler.responseAffinity, none)
    let scheduler := { scheduler with responseAffinity }
    if owner.any fun owner => !allowed.any fun candidate => candidate.id == owner then
      (scheduler, none)
    else
      let members := allowed.foldl scheduler.addMemberRoute ∅
      let (promptAffinity, promptOwner) :=
        match request.promptAffinityKey with
        | some key => scheduler.promptAffinity.get key request.nowMs
        | none => (scheduler.promptAffinity, none)
      let scheduler := { scheduler with promptAffinity }
      let preferred := promptOwner.bind (scheduler.admittedRoute members)
      let alternatives :=
        match request.promptAffinityKey with
        | some key => scheduler.promptAffinity.alternatives key request.nowMs
        | none => []
      let allowedIds :=
        if owner.isNone then members.values.map (·.id) else allowed.map (·.id)
      (scheduler, some { rotationRequest freshRequestId owner request.model operation
          (.ofList allowedIds compare) with
        preferred
        warmFallbacks := scheduler.warmFallbacks members preferred alternatives })

def prepareRotationRequest (scheduler : PoolScheduler) (request : SelectionRequest)
    (operation : RotationOperation) (freshRequestId : RequestId) :
    PoolScheduler × Option RotationRequest :=
  if scheduler.retired then (scheduler, none)
  else scheduler.syncAllRotationCandidates.rotationRequestFromSyncedState request operation
    freshRequestId

/-- Whether a selection followed the prompt cache rather than the engine's ranking. -/
def followedPromptCache (mode : RotationMode) (request : RotationRequest)
    (selected : RotationSelection) : Bool :=
  request.owner.isNone && !selected.recovery && mode == .automatic &&
    selected.reason != .quotaHeadroom && selected.reason != .providerCredits &&
    (request.preferred == some selected.candidateId ||
      request.warmFallbacks.contains selected.candidateId)

def selectionReason (mode : RotationMode) (request : RotationRequest)
    (selected : RotationSelection) : SelectionReason :=
  if followedPromptCache mode request selected then .promptCacheAffinity
  else
    match selected.reason with
    | .hardOwner => if request.owner.isSome then .responseAffinity else .onlyEligible
    | .leastLoaded => .parallelLoad
    | .quotaHeadroom => .quotaHeadroom
    | .providerCredits => .providerCredits
    | .manualPriority => .manualPriority
    | .weightedRotation => .fairRotation
    | .recovery => .fallbackAttempt
    | .onlyEligible => .onlyEligible

def selectForOperation (scheduler : PoolScheduler) (request : SelectionRequest)
    (lane : InFlightLane) (operation : RotationOperation) (freshRequestId : RequestId) :
    PoolScheduler × Option Selection :=
  match scheduler.prepareRotationRequest request operation freshRequestId with
  | (prepared, none) => (prepared, none)
  | (prepared, some rotationRequest) =>
    let admitted := { rotationRequest with
      allowedCandidates := rotationRequest.allowedCandidates.map fun allowed =>
        allowed.filter fun candidateId =>
          prepared.candidates[candidateId]?.any fun candidate =>
            prepared.laneAllows candidate lane }
    match prepared.rotation.select admitted request.nowMs with
    | none => (prepared, none)
    | some selected =>
      if prepared.candidates.contains selected.candidateId then
        (prepared, some {
          candidateId := selected.candidateId
          responseAffinityHit := admitted.owner.isSome
          halfOpenProbe := selected.recovery
          reason := selectionReason prepared.rotation.mode admitted selected
          rotationRequest := admitted })
      else (prepared, none)

end PoolScheduler

end ZenithRelay.Scheduler
