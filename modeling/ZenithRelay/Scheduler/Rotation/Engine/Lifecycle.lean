import ZenithRelay.Scheduler.Rotation.Engine.Admission
import ZenithRelay.Scheduler.Rotation.Engine.Registry

/-!
# Lifecycle

Atomic reservations, final dispatch fences and idempotent settlement.
-/

set_option autoImplicit false

namespace ZenithRelay.Scheduler.Rotation

/-- Outcomes only a dispatched attempt can have. -/
def HealthObservation.isVerdict : HealthObservation → Bool
  | .success | .countableTransient _ => true
  | .busy | .cancelled | .clientError | .localError | .monitoringFailure | .unknown => false

/-- A success of dispatched ordinary work; it counts towards the next credit. -/
def LeaseRuntime.earnsRecovery (lease : LeaseRuntime) (health : HealthObservation) : Bool :=
  !lease.recovery && lease.attemptId.isSome && health == .success

/-- Credits, and successes since the last one, after one more counted success. -/
def RecoveryPolicy.refill (policy : RecoveryPolicy) (credits successes : Nat) : Nat × Nat :=
  let successes := saturatingAdd u32Max successes 1
  if successes ≥ policy.successfulRequestsPerCredit then
    (min (saturatingAdd u32Max credits 1) policy.initialCredits, 0)
  else (credits, successes)

namespace CircuitRuntime

/-- A released recovery lease hands its half-open permit back. -/
def releaseGate (circuit : CircuitRuntime) (leaseId : LeaseId) : CircuitRuntime :=
  if circuit.halfOpenLease = some leaseId then
    { circuit with halfOpenLease := none, state := .open }
  else circuit

def openGate (circuit : CircuitRuntime) (leaseId : LeaseId) : CircuitRuntime :=
  { circuit with state := .halfOpen, halfOpenLease := some leaseId }

end CircuitRuntime

namespace RotationEngine

/-- One permit less; an entry that reaches zero is dropped. -/
def decrementCapacity (counts : BTreeMap String Nat) (capacityKey : String) :
    BTreeMap String Nat :=
  match counts[capacityKey]? with
  | some count =>
    if count - 1 = 0 then counts.erase capacityKey else counts.insert capacityKey (count - 1)
  | none => counts

def incrementCapacity (counts : BTreeMap String Nat) (capacityKey : String) :
    BTreeMap String Nat :=
  counts.insert capacityKey
    ((counts[capacityKey]?.map fun count => saturatingAdd u32Max count 1).getD 1)

def releaseCapacity (engine : RotationEngine) (lease : LeaseRuntime) : RotationEngine :=
  { engine with
    candidates :=
      if engine.candidateGenerations[lease.candidateId]? = some lease.candidateGeneration then
        engine.candidates.modify lease.candidateId fun runtime =>
          { runtime with inFlight := runtime.inFlight - 1 }
      else engine.candidates
    capacityInFlight := decrementCapacity engine.capacityInFlight lease.capacityKey
    recoveryInFlight :=
      if lease.recovery then engine.recoveryInFlight - 1 else engine.recoveryInFlight
    circuits :=
      if lease.recovery then
        engine.circuits.modify (lease.candidateId, lease.routeKey) (·.releaseGate lease.leaseId)
      else engine.circuits }

/-- The lease leaves the registry and gives back what it took. -/
def dropLease (engine : RotationEngine) (leaseId : LeaseId) (lease : LeaseRuntime) :
    RotationEngine :=
  ({ engine with leases := engine.leases.erase leaseId } : RotationEngine).releaseCapacity lease

/-- Releases an admission that never reached a wire dispatch: no health
observation, no recovery spent. -/
def releaseUnstarted (engine : RotationEngine) (leaseId : LeaseId) : RotationEngine × Bool :=
  match engine.leases[leaseId]? with
  | none => (engine, false)
  | some lease =>
    if lease.attemptId.isSome then (engine, false) else (engine.dropLease leaseId lease, true)

theorem releaseUnstarted_iff {engine : RotationEngine} {leaseId : LeaseId} :
    (engine.releaseUnstarted leaseId).2 = true ↔
      (engine.leases[leaseId]?.any fun lease => lease.attemptId.isNone) = true := by
  unfold releaseUnstarted
  split
  next absent => simp [absent]
  next lease found =>
    cases started : lease.attemptId <;> simp [found, started]

/-- A refused release changes nothing. -/
theorem releaseUnstarted_refused {engine : RotationEngine} {leaseId : LeaseId}
    (refused : (engine.releaseUnstarted leaseId).2 = false) :
    (engine.releaseUnstarted leaseId).1 = engine := by
  unfold releaseUnstarted at refused ⊢
  split
  next => rfl
  next lease found =>
    split
    next => rfl
    next unstarted => simp [found, unstarted] at refused

/-- The lease a reservation of `runtime` stores. -/
def newLease (engine : RotationEngine) (request : RotationRequest) (selected : ReadyCandidate)
    (runtime : CandidateRuntime) (ordinaryAlternatives : Bool) : LeaseRuntime where
  leaseId := engine.nextLeaseId + 1
  candidateId := selected.id
  candidateGeneration := engine.candidateGenerations[selected.id]?.getD 0
  requestId := request.requestId
  routeKey := request.routeKey
  route := ⟨request.model, request.operation⟩
  capacityKey := runtime.candidate.capacityKey
  recovery := selected.recovery
  recoveryCreditRequired := selected.recovery && ordinaryAlternatives
  attemptId := none
  circuitEpoch := (engine.circuitRuntime selected.id request.routeKey).epoch
  circuitIncident := (engine.circuitRuntime selected.id request.routeKey).incident
  quota := runtime.candidate.quota
  rate := runtime.candidate.rate
  routeRate := runtime.candidate.routeRates[request.routeKey]?

/-- The lease is stored and takes its permits. -/
def insertLease (engine : RotationEngine) (runtime : CandidateRuntime) (lease : LeaseRuntime) :
    RotationEngine :=
  { engine with
    circuits :=
      if lease.recovery then
        engine.circuits.insert (lease.candidateId, lease.routeKey)
          ((engine.circuitRuntime lease.candidateId lease.routeKey).openGate lease.leaseId)
      else engine.circuits
    nextLeaseId := lease.leaseId
    candidates := engine.candidates.insert lease.candidateId
      { runtime with inFlight := saturatingAdd u32Max runtime.inFlight 1 }
    capacityInFlight := incrementCapacity engine.capacityInFlight lease.capacityKey
    recoveryInFlight :=
      if lease.recovery then saturatingAdd u32Max engine.recoveryInFlight 1
      else engine.recoveryInFlight
    leases := engine.leases.insert lease.leaseId lease }

/-- The part of `reserve` after its last check. -/
def takeLease (engine : RotationEngine) (request : RotationRequest) (group : List ReadyCandidate)
    (selected : ReadyCandidate) (runtime : CandidateRuntime) (ordinaryAlternatives : Bool) :
    RotationEngine :=
  (engine.insertLease runtime
      (engine.newLease request selected runtime ordinaryAlternatives)).advanceRotationState
    request.routeKey group selected.id request.owner.isNone

theorem takeLease_same (engine : RotationEngine) (request : RotationRequest)
    (group : List ReadyCandidate) (selected : ReadyCandidate) (runtime : CandidateRuntime)
    (ordinaryAlternatives : Bool) :
    ∃ rotationCredit roundRobinCursor,
      engine.takeLease request group selected runtime ordinaryAlternatives =
        { engine.insertLease runtime
            (engine.newLease request selected runtime ordinaryAlternatives) with
          rotationCredit, roundRobinCursor } :=
  advanceRotationState_same _ request.routeKey group selected.id request.owner.isNone

def reserve (engine : RotationEngine) (request : RotationRequest) (nowMs : Nat) :
    RotationEngine × Except AdmissionError RotationLease :=
  let (ready, ordinaryAlternatives) := engine.selectionCandidates request nowMs
  let group := engine.selectionGroup ready request nowMs
  match engine.chooseForRequest request group with
  | none => (engine, .error .noEligibleCandidate)
  | some selected =>
    match engine.candidateAvailability request selected.id nowMs, engine.candidates[selected.id]? with
    | .ready _, some runtime =>
      if runtime.candidate.maxConcurrency > 0 ∧
          runtime.inFlight ≥ runtime.candidate.maxConcurrency then
        (engine, .error .candidateChanged)
      else if engine.nextLeaseId ≥ u64Max then (engine, .error .invalidCandidate)
      else if selected.recovery ∧
          engine.recoveryInFlight ≥ engine.recoveryPolicy.maxInFlight then
        (engine, .error .candidateChanged)
      -- A circuit that holds a permit is stored, so `entry().or_default()` added none.
      else if selected.recovery ∧
          (engine.circuitRuntime selected.id request.routeKey).halfOpenLease.isSome then
        (engine, .error .candidateChanged)
      else
        (engine.takeLease request group selected runtime ordinaryAlternatives, .ok {
          leaseId := engine.nextLeaseId + 1
          candidateId := selected.id
          requestId := request.requestId
          routeKey := request.routeKey
          recovery := selected.recovery })
    | .ready _, none => (engine, .error .invalidCandidate)
    | _, _ => (engine, .error .candidateChanged)

/-- The member and route of the lease are still what was reserved. -/
def stillCurrent (engine : RotationEngine) (pending : LeaseRuntime) : Bool :=
  engine.candidates[pending.candidateId]?.any fun runtime =>
    engine.candidateGenerations[pending.candidateId]? == some pending.candidateGeneration &&
      runtime.candidate.enabled &&
      !runtime.candidate.draining &&
      runtime.candidate.auth == .ready &&
      runtime.candidate.quota == pending.quota &&
      runtime.candidate.rate == pending.rate &&
      runtime.candidate.routeRates[pending.routeKey]? == pending.routeRate &&
      runtime.candidate.capacityKey == pending.capacityKey &&
      runtime.candidate.routes[pending.routeKey]?.any fun route =>
        Text.eqIgnoreAsciiCase route.model pending.route.model &&
          route.operation == pending.route.operation

/-- The checks of a dispatch before its budget is charged. -/
def dispatchRefusal (engine : RotationEngine) (pending : LeaseRuntime) (budget : RequestBudget)
    (allowRetainedLease : Bool) : Option DispatchStartError :=
  let circuit := engine.circuit pending.candidateId pending.routeKey
  if pending.requestId ≠ budget.requestId then some .budgetRequestMismatch
  else if pending.attemptId.any (fun previousDispatch =>
      !allowRetainedLease || previousDispatch > budget.dispatches) then
    some .alreadyStarted
  else if !engine.stillCurrent pending then some .candidateChanged
  else if circuit.epoch ≠ pending.circuitEpoch ∧ circuit.state ≠ .closed then
    some .candidateChanged
  else if pending.recoveryCreditRequired ∧ engine.recoveryCredits = 0 then
    some .recoveryBudgetExhausted
  else none

/-- A started lease spends the recovery credit it needs, once. -/
def recordDispatch (engine : RotationEngine) (leaseId : LeaseId) (pending : LeaseRuntime)
    (attemptId : AttemptId) : RotationEngine :=
  { engine with
    recoveryCredits :=
      if pending.recoveryCreditRequired then engine.recoveryCredits - 1
      else engine.recoveryCredits
    leases := engine.leases.modify leaseId fun lease =>
      { lease with recoveryCreditRequired := false, attemptId := some attemptId } }

def beginDispatchInternal (engine : RotationEngine) (leaseId : LeaseId) (budget : RequestBudget)
    (clock : ClockReadings) (allowRetainedLease : Bool) :
    RotationEngine × RequestBudget × Except DispatchStartError AttemptId :=
  match engine.leases[leaseId]? with
  | none => (engine, budget, .error .unknownLease)
  | some pending =>
    match engine.dispatchRefusal pending budget allowRetainedLease with
    | some refusal => (engine, budget, .error refusal)
    | none =>
      match budget.startDispatch clock with
      | (budget, none) => (engine, budget, .error .budgetExhausted)
      | (budget, some attemptId) =>
        (engine.recordDispatch leaseId pending attemptId, budget, .ok attemptId)

def beginDispatch (engine : RotationEngine) (leaseId : LeaseId) (budget : RequestBudget)
    (clock : ClockReadings) : RotationEngine × RequestBudget × Except DispatchStartError AttemptId :=
  engine.beginDispatchInternal leaseId budget clock false

/-- Only the transport controller can retain a lease for a proven repair or a
completed read-only tool turn; every new generation is charged after the same
fences. -/
def beginTransportDispatch (engine : RotationEngine) (leaseId : LeaseId) (budget : RequestBudget)
    (clock : ClockReadings) : RotationEngine × RequestBudget × Except DispatchStartError AttemptId :=
  engine.beginDispatchInternal leaseId budget clock true

/-- The settlement's evidence still describes the member and route it came from:
the generation is live and the route is exactly the reserved one. -/
def observationCurrent (engine : RotationEngine) (lease : LeaseRuntime) : Bool :=
  engine.candidateGenerations[lease.candidateId]? == some lease.candidateGeneration &&
    (engine.candidates[lease.candidateId]?.bind fun runtime =>
      runtime.candidate.routes[lease.routeKey]?) == some lease.route

/-- A counted ordinary success earns a part of a recovery credit. -/
def refillRecoveryCredits (engine : RotationEngine) : RotationEngine :=
  let refilled := engine.recoveryPolicy.refill engine.recoveryCredits
    engine.successfulRequestsSinceRecovery
  { engine with
    recoveryCredits := refilled.1
    successfulRequestsSinceRecovery := refilled.2 }

/-- Credits, and successes since the last one, after an outcome of the lease. -/
def creditsAfter (engine : RotationEngine) (lease : LeaseRuntime) (health : HealthObservation)
    (nowMs : Nat) : Nat × Nat :=
  if ((engine.circuitRuntime lease.candidateId lease.routeKey).update lease health nowMs).2 &&
      lease.earnsRecovery health then
    engine.recoveryPolicy.refill engine.recoveryCredits engine.successfulRequestsSinceRecovery
  else (engine.recoveryCredits, engine.successfulRequestsSinceRecovery)

/-- Health of a counted outcome, with the latency of a success. -/
def recordHealth (engine : RotationEngine) (lease : LeaseRuntime) (health : HealthObservation)
    (nowMs : Nat) (firstOutputLatencyMs : Option Nat) : RotationEngine :=
  let observed := engine.observeHealth lease.candidateId lease.routeKey health nowMs
  if health = .success then
    observed.observeFirstOutputLatency lease.candidateId lease.routeKey firstOutputLatencyMs nowMs
  else observed

private theorem recordHealth_same (engine : RotationEngine) (lease : LeaseRuntime)
    (health : HealthObservation) (nowMs : Nat) (firstOutputLatencyMs : Option Nat) :
    engine.recordHealth lease health nowMs firstOutputLatencyMs = { engine with
      health := (engine.recordHealth lease health nowMs firstOutputLatencyMs).health } := by
  cases health <;> rfl

/-- What a current outcome does after the lease gave its permits back. -/
def applyOutcome (engine : RotationEngine) (lease : LeaseRuntime) (health : HealthObservation)
    (nowMs : Nat) (firstOutputLatencyMs : Option Nat) : RotationEngine × CircuitSnapshot :=
  let (updated, circuit, healthCounted) := engine.updateCircuit lease health nowMs
  let refilled :=
    if healthCounted && lease.earnsRecovery health then updated.refillRecoveryCredits
    else updated
  (if healthCounted then refilled.recordHealth lease health nowMs firstOutputLatencyMs
    else refilled, circuit)

/-- An outcome writes its own circuit, health, and the recovery credits a counted
ordinary success earns; it touches nothing else. -/
theorem applyOutcome_same (engine : RotationEngine) (lease : LeaseRuntime)
    (health : HealthObservation) (nowMs : Nat) (firstOutputLatencyMs : Option Nat) :
    ∃ healthRecords,
      (engine.applyOutcome lease health nowMs firstOutputLatencyMs).1 = { engine with
        circuits := engine.circuits.insert (lease.candidateId, lease.routeKey)
          ((engine.circuitRuntime lease.candidateId lease.routeKey).update lease health nowMs).1
        health := healthRecords
        recoveryCredits := (engine.creditsAfter lease health nowMs).1
        successfulRequestsSinceRecovery := (engine.creditsAfter lease health nowMs).2 } := by
  unfold applyOutcome updateCircuit creditsAfter
  dsimp only
  cases ((engine.circuitRuntime lease.candidateId lease.routeKey).update lease health nowMs).2 with
  | false => exact ⟨engine.health, rfl⟩
  | true =>
      cases lease.earnsRecovery health <;>
        exact ⟨_, recordHealth_same _ lease health nowMs firstOutputLatencyMs⟩

/-- The engine and circuit after the outcome of a live lease. A removed candidate
may be back under the same id; the old outcome then only releases its own permits. -/
def settleLease (engine : RotationEngine) (leaseId : LeaseId) (lease : LeaseRuntime)
    (health : HealthObservation) (nowMs : Nat) (firstOutputLatencyMs : Option Nat) :
    RotationEngine × CircuitSnapshot :=
  let released := engine.dropLease leaseId lease
  if engine.observationCurrent lease then
    released.applyOutcome lease health nowMs firstOutputLatencyMs
  else (released, released.circuit lease.candidateId lease.routeKey)

/-- Beyond giving its permits back, a settlement writes circuits, health and
recovery credits only. -/
theorem settleLease_same (engine : RotationEngine) (leaseId : LeaseId) (lease : LeaseRuntime)
    (health : HealthObservation) (nowMs : Nat) (firstOutputLatencyMs : Option Nat) :
    ∃ circuits healthRecords recoveryCredits successfulRequestsSinceRecovery,
      (engine.settleLease leaseId lease health nowMs firstOutputLatencyMs).1 =
        { engine.dropLease leaseId lease with
          circuits, health := healthRecords, recoveryCredits, successfulRequestsSinceRecovery } := by
  unfold settleLease
  dsimp only
  split
  · obtain ⟨healthRecords, same⟩ :=
      (engine.dropLease leaseId lease).applyOutcome_same lease health nowMs firstOutputLatencyMs
    exact ⟨_, healthRecords, _, _, same⟩
  · exact ⟨_, _, _, _, rfl⟩

def settlementRetry (observation : AttemptObservation) (budget : RequestBudget)
    (clock : ClockReadings) : RetryDecision :=
  match observation.health with
  | .success => .stop .succeeded
  | .cancelled => .stop .cancelled
  | .busy | .clientError | .localError | .monitoringFailure => .stop .terminalHealthObservation
  | .countableTransient _ | .unknown => budget.retryDecision observation.execution clock

def settleWithLatency (engine : RotationEngine) (leaseId : LeaseId)
    (observation : AttemptObservation) (budget : RequestBudget) (clock : ClockReadings)
    (nowMs : Nat) (firstOutputLatencyMs : Option Nat) :
    RotationEngine × Except SettlementError RotationSettlement :=
  match engine.leases[leaseId]? with
  | none => (engine, .error .unknownLease)
  | some lease =>
    if budget.requestId ≠ lease.requestId then (engine, .error .budgetRequestMismatch)
    else if lease.attemptId.isNone ∧ observation.health.isVerdict then
      (engine, .error .notDispatched)
    else
      let (settled, circuit) :=
        engine.settleLease leaseId lease observation.health nowMs firstOutputLatencyMs
      (settled, .ok {
        candidateId := lease.candidateId
        attemptId := lease.attemptId
        retry := settlementRetry observation budget clock
        circuit
        observationCurrent := engine.observationCurrent lease })

def settle (engine : RotationEngine) (leaseId : LeaseId) (observation : AttemptObservation)
    (budget : RequestBudget) (clock : ClockReadings) (nowMs : Nat) :
    RotationEngine × Except SettlementError RotationSettlement :=
  engine.settleWithLatency leaseId observation budget clock nowMs none

def cancel (engine : RotationEngine) (leaseId : LeaseId) (budget : RequestBudget)
    (clock : ClockReadings) (nowMs : Nat) :
    RotationEngine × Except SettlementError RotationSettlement :=
  engine.settle leaseId ⟨.unknown, .cancelled⟩ budget clock nowMs

end RotationEngine

end ZenithRelay.Scheduler.Rotation
