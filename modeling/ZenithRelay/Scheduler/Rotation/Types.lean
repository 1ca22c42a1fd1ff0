import ZenithRelay.Foundations.BTreeMap
import ZenithRelay.Foundations.Text
import ZenithRelay.Scheduler.Rotation.Budget

/-!
# Rotation types

Exact routes, independent availability states and lifecycle observations.
-/

set_option autoImplicit false

namespace ZenithRelay.Scheduler.Rotation

inductive AuthState where
  | ready
  | needsRefresh
  | blocked
  deriving DecidableEq, Repr

inductive QuotaState where
  | unknown
  | available
  | creditFallback (resetAtMs : Option Nat)
  | stale
  | exhausted (resetAtMs : Option Nat)
  deriving DecidableEq, Repr

def providerCreditSwitchMarginMicroUnits : Nat := 15000000
def quotaSwitchMarginBasisPoints : Nat := 500
def cacheAffinityQuotaSwitchMarginBasisPoints : Nat := 1000
def cacheAffinityExtraRequests : Nat := 1

inductive RateState where
  | ready
  | limited (notBeforeMs : Nat)
  deriving DecidableEq, Repr

inductive RotationOperation where
  | text
  | image
  | compaction
  | metadata
  deriving DecidableEq, Repr

structure RotationRoute where
  model : String
  operation : RotationOperation
  deriving DecidableEq, Repr

inductive RotationMode where
  | automatic
  | roundRobin
  | weightedRoundRobin
  | failover
  deriving DecidableEq, Repr

structure RecoveryPolicy where
  initialCredits : Nat
  successfulRequestsPerCredit : Nat
  maxInFlight : Nat
  deriving DecidableEq, Repr

def RecoveryPolicy.default : RecoveryPolicy := ⟨1, 8, 1⟩

/-- A linked connection's observation ranks work; it never grants capacity. -/
structure CandidateQuotaReference where
  sourceAccountId : String
  remainingBasisPoints : Nat
  observedAtMs : Nat
  validUntilMs : Option Nat
  deriving DecidableEq, Repr

structure RotationCandidate where
  id : String
  capacityKey : String
  priority : Int
  weight : Nat
  maxConcurrency : Nat
  capacityLimit : Nat
  enabled : Bool
  draining : Bool
  routes : BTreeMap String RotationRoute
  routeRates : BTreeMap String RateState
  auth : AuthState
  quota : QuotaState
  quotaRemainingBasisPoints : Option Nat
  quotaObservedAtMs : Option Nat
  quotaReference : Option CandidateQuotaReference
  providerCreditsMicroUnits : Option Nat
  providerCreditsUnlimited : Bool
  providerCreditsObservedAtMs : Option Nat
  rate : RateState

inductive CircuitState where
  | closed
  | degraded
  | open
  | halfOpen
  deriving DecidableEq, Repr

structure CircuitSnapshot where
  state : CircuitState
  failureStreak : Nat
  notBeforeMs : Option Nat
  epoch : Nat
  deriving DecidableEq, Repr

inductive CandidateBlockReason where
  | alreadyTried
  | notAllowed
  | ownerMismatch
  | disabled
  | draining
  | routeUnavailable
  | modelUnavailable
  | operationUnavailable
  | authRequired
  | authBlocked
  | quotaExhausted
  | rateLimited
  | circuitOpen
  | recoveryBusy
  | capacityBusy
  deriving DecidableEq, Repr

inductive CandidateAvailability where
  | ready (recovery : Bool)
  | busy (reason : CandidateBlockReason)
  | waitUntil (atMs : Nat) (reason : CandidateBlockReason)
  | blocked (reason : CandidateBlockReason)
  deriving DecidableEq, Repr

structure RotationRequest where
  requestId : RequestId
  routeKey : String
  model : String
  operation : RotationOperation
  owner : Option String
  preferred : Option String
  warmFallbacks : List String
  tried : BTreeSet String
  allowedCandidates : Option (BTreeSet String)

inductive RotationSelectionReason where
  | hardOwner
  | manualPriority
  | weightedRotation
  | recovery
  | onlyEligible
  | leastLoaded
  | quotaHeadroom
  | providerCredits
  deriving DecidableEq, Repr

structure RotationSelection where
  candidateId : String
  priority : Int
  recovery : Bool
  eligibleCandidates : Nat
  reason : RotationSelectionReason
  deriving DecidableEq, Repr

inductive HealthObservation where
  | success
  | countableTransient (providerNotBeforeMs : Option Nat)
  | busy
  | cancelled
  | clientError
  | localError
  | monitoringFailure
  | unknown
  deriving DecidableEq, Repr

structure AttemptObservation where
  execution : ExecutionObservation
  health : HealthObservation
  deriving DecidableEq, Repr

structure RotationLease where
  leaseId : LeaseId
  candidateId : String
  requestId : RequestId
  routeKey : String
  recovery : Bool
  deriving DecidableEq, Repr

inductive DispatchStartError where
  | unknownLease
  | budgetRequestMismatch
  | budgetExhausted
  | alreadyStarted
  | recoveryBudgetExhausted
  | candidateChanged
  deriving DecidableEq, Repr

inductive AdmissionError where
  | noEligibleCandidate
  | candidateChanged
  | invalidCandidate
  deriving DecidableEq, Repr

inductive SettlementError where
  | unknownLease
  | budgetRequestMismatch
  | notDispatched
  deriving DecidableEq, Repr

structure RotationSettlement where
  candidateId : String
  attemptId : Option AttemptId
  retry : RetryDecision
  circuit : CircuitSnapshot
  observationCurrent : Bool
  deriving DecidableEq, Repr

/-- `crate::quota::observation_is_fresh`: observed, not in the future, and not
older than the limit. -/
def observationIsFresh (observedAtMs : Option Nat) (nowMs staleAfterMs : Nat) : Bool :=
  observedAtMs.any fun observed => observed ≤ nowMs && nowMs - observed ≤ staleAfterMs

def CandidateQuotaReference.freshRemaining (reference : CandidateQuotaReference)
    (nowMs staleAfterMs : Nat) : Option Nat :=
  if reference.sourceAccountId ≠ "" ∧
      (1 ≤ reference.remainingBasisPoints ∧ reference.remainingBasisPoints ≤ 10000) ∧
      observationIsFresh (some reference.observedAtMs) nowMs staleAfterMs ∧
      reference.validUntilMs.all (fun deadline => nowMs < deadline) then
    some reference.remainingBasisPoints
  else none

namespace RotationCandidate

/-- The check shared by every identifier of a candidate: not blank, no outer
whitespace, at most 256 bytes, no control character. -/
def identifierInvalid (identifier : String) : Bool :=
  Text.trim identifier == "" || Text.trim identifier != identifier ||
    decide (identifier.utf8ByteSize > 256) || identifier.toList.any Text.isControl

/-- `RotationCandidate::new`. -/
def create (candidateId routeKey model : String) : RotationCandidate where
  id := candidateId
  capacityKey := candidateId
  priority := 0
  weight := 1
  maxConcurrency := 0
  capacityLimit := 0
  enabled := true
  draining := false
  routes := (∅ : BTreeMap String RotationRoute).insert routeKey ⟨model, .text⟩
  routeRates := (∅ : BTreeMap String RateState).insert routeKey .ready
  auth := .ready
  quota := .unknown
  quotaRemainingBasisPoints := none
  quotaObservedAtMs := none
  quotaReference := none
  providerCreditsMicroUnits := none
  providerCreditsUnlimited := false
  providerCreditsObservedAtMs := none
  rate := .ready

def validate (candidate : RotationCandidate) : Except String Unit :=
  if identifierInvalid candidate.id then .error "rotation candidate id is invalid"
  else if identifierInvalid candidate.capacityKey then
    .error "rotation candidate capacity key is invalid"
  else if ¬(1 ≤ candidate.weight ∧ candidate.weight ≤ 100) then
    .error "rotation candidate weight is invalid"
  else if candidate.routes.isEmpty || decide (candidate.routes.size > 4096) ||
      candidate.routes.toList.any (fun entry =>
        [entry.1, entry.2.model].any identifierInvalid) then
    .error "rotation candidate route or model is invalid"
  else .ok ()

def withCapacity (candidate : RotationCandidate) (capacityKey : String) (limit : Nat) :
    RotationCandidate :=
  { candidate with capacityKey, capacityLimit := limit }

def withOperation (candidate : RotationCandidate) (operation : RotationOperation) :
    RotationCandidate :=
  { candidate with routes := candidate.routes.map fun _ route => { route with operation } }

def addRoute (candidate : RotationCandidate) (routeKey model : String)
    (operation : RotationOperation) : RotationCandidate :=
  { candidate with
    routes := candidate.routes.insert routeKey ⟨model, operation⟩
    routeRates := candidate.routeRates.insertIfNew routeKey .ready }

def supports (candidate : RotationCandidate) (request : RotationRequest) :
    Except CandidateBlockReason Unit :=
  if !candidate.enabled then .error .disabled
  else if candidate.draining then .error .draining
  else
    match candidate.routes[request.routeKey]? with
    | none => .error .routeUnavailable
    | some route =>
      if !Text.eqIgnoreAsciiCase route.model request.model then .error .modelUnavailable
      else if route.operation ≠ request.operation then .error .operationUnavailable
      else .ok ()

theorem validate_weight {candidate : RotationCandidate} (valid : candidate.validate = .ok ()) :
    1 ≤ candidate.weight ∧ candidate.weight ≤ 100 := by
  by_contra invalid
  simp only [validate, invalid, not_false_eq_true, ↓reduceIte] at valid
  split at valid <;> [skip; split at valid] <;> cases valid

end RotationCandidate

namespace RotationRequest

/-- `RotationRequest::new`. -/
def create (requestId : RequestId) (routeKey model : String) : RotationRequest where
  requestId
  routeKey
  model
  operation := .text
  owner := none
  preferred := none
  warmFallbacks := []
  tried := ∅
  allowedCandidates := none

def withOwner (request : RotationRequest) (owner : String) : RotationRequest :=
  { request with owner := some owner }

end RotationRequest

end ZenithRelay.Scheduler.Rotation
