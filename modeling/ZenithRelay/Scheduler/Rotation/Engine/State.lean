import ZenithRelay.Scheduler.Rotation.Latency
import ZenithRelay.Scheduler.Rotation.Types

/-!
# Engine state

Selection, physical reservations, circuit fencing and recovery permits of the
rotation engine, as one record.
-/

set_option autoImplicit false

namespace ZenithRelay.Scheduler.Rotation

def circuitFailureThreshold : Nat := 3
def firstTransientPacingMs : Nat := 250
def secondTransientPacingMs : Nat := 500
def openBackoffMs : Nat := 2000
def maxOpenBackoffMs : Nat := 60000
def failureWindowMs : Nat := 60000
def healthEwmaAlphaMilli : Nat := 250
def healthFailureSwitchMarginMilli : Nat := 200
def healthLatencySwitchMarginMilli : Nat := 250

/-- `QUOTA_STALE_AFTER_MS` of the scheduler. -/
def quotaStaleAfterMs : Nat := 20 * 60 * 1000

inductive CircuitTransition where
  | none
  | failure
  | success
  | recoveryAbort
  deriving DecidableEq, Repr

structure CircuitRuntime where
  state : CircuitState
  failureStreak : Nat
  countedRequests : BTreeSet RequestId
  notBeforeMs : Option Nat
  epoch : Nat
  incident : Nat
  lastFailureAtMs : Option Nat
  halfOpenLease : Option LeaseId
  lastTransition : CircuitTransition

namespace CircuitRuntime

def default : CircuitRuntime where
  state := .closed
  failureStreak := 0
  countedRequests := ∅
  notBeforeMs := none
  epoch := 0
  incident := 0
  lastFailureAtMs := none
  halfOpenLease := none
  lastTransition := .none

def snapshot (circuit : CircuitRuntime) : CircuitSnapshot where
  state := circuit.state
  failureStreak := circuit.failureStreak
  notBeforeMs := circuit.notBeforeMs
  epoch := circuit.epoch

end CircuitRuntime

structure CandidateRuntime where
  candidate : RotationCandidate
  inFlight : Nat

structure HealthRuntime where
  failureScoreMilli : Nat
  firstOutputLatencyMs : Option Nat
  latencyObservedAtMs : Option Nat
  observedAtMs : Option Nat
  latencyWindow : LatencyWindow
  deriving DecidableEq, Repr

def HealthRuntime.default : HealthRuntime := ⟨0, none, none, none, .empty⟩

structure LeaseRuntime where
  leaseId : LeaseId
  candidateId : String
  candidateGeneration : Nat
  requestId : RequestId
  routeKey : String
  route : RotationRoute
  capacityKey : String
  recovery : Bool
  recoveryCreditRequired : Bool
  attemptId : Option AttemptId
  circuitEpoch : Nat
  circuitIncident : Nat
  quota : QuotaState
  rate : RateState
  routeRate : Option RateState
  deriving DecidableEq, Repr

structure RoundRobinCursor where
  capacityKey : String
  candidateId : String
  priority : Int
  deriving DecidableEq, Repr

/-- Deterministic pool-rotation admission and state reducer. -/
structure RotationEngine where
  mode : RotationMode
  maxInFlight : Nat
  candidates : BTreeMap String CandidateRuntime
  candidateGenerations : BTreeMap String Nat
  quotaRevisions : BTreeMap String Nat
  circuits : BTreeMap (String × String) CircuitRuntime
  health : BTreeMap (String × String) HealthRuntime
  rotationCredit : BTreeMap (String × String) Int
  capacityInFlight : BTreeMap String Nat
  capacityLimits : BTreeMap String Nat
  leases : BTreeMap LeaseId LeaseRuntime
  nextLeaseId : Nat
  nextCandidateGeneration : Nat
  recoveryPolicy : RecoveryPolicy
  recoveryCredits : Nat
  recoveryInFlight : Nat
  successfulRequestsSinceRecovery : Nat
  quotaStaleAfterMs : Nat
  roundRobinCursor : BTreeMap String RoundRobinCursor

namespace RotationEngine

def default : RotationEngine where
  mode := .automatic
  maxInFlight := 1024
  candidates := ∅
  candidateGenerations := ∅
  quotaRevisions := ∅
  circuits := ∅
  health := ∅
  rotationCredit := ∅
  capacityInFlight := ∅
  capacityLimits := ∅
  leases := ∅
  nextLeaseId := 0
  nextCandidateGeneration := 0
  recoveryPolicy := .default
  recoveryCredits := RecoveryPolicy.default.initialCredits
  recoveryInFlight := 0
  successfulRequestsSinceRecovery := 0
  quotaStaleAfterMs := Rotation.quotaStaleAfterMs
  roundRobinCursor := ∅

def activeLeases (engine : RotationEngine) : Nat := engine.leases.size

def inFlight (engine : RotationEngine) (candidateId : String) : Nat :=
  (engine.candidates[candidateId]?.map (·.inFlight)).getD 0

def capacityInFlightOf (engine : RotationEngine) (capacityKey : String) : Nat :=
  engine.capacityInFlight[capacityKey]?.getD 0

/-- The circuit of a route, closed and untouched when none is stored. -/
def circuitRuntime (engine : RotationEngine) (candidateId routeKey : String) : CircuitRuntime :=
  engine.circuits[(candidateId, routeKey)]?.getD .default

def circuit (engine : RotationEngine) (candidateId routeKey : String) : CircuitSnapshot :=
  (engine.circuitRuntime candidateId routeKey).snapshot

/-- Rotation credit of a physical member on a route, zero when none is stored. -/
def routeCredit (engine : RotationEngine) (routeKey capacityKey : String) : Int :=
  engine.rotationCredit[(routeKey, capacityKey)]?.getD 0

/-- Number of live leases that pass `test`. -/
def leaseCount (engine : RotationEngine) (test : LeaseRuntime → Bool) : Nat :=
  BTreeMap.countValues engine.leases test

end RotationEngine

end ZenithRelay.Scheduler.Rotation
