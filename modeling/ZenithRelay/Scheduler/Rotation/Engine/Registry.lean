import ZenithRelay.Scheduler.Rotation.Engine.State

/-!
# Registry

Validated members, observations and physical capacity limits.
-/

set_option autoImplicit false

namespace ZenithRelay.Scheduler.Rotation.RotationEngine

def setMode (engine : RotationEngine) (mode : RotationMode) : RotationEngine :=
  if engine.mode ≠ mode then { engine with rotationCredit := ∅, mode } else engine

def setQuotaStaleAfterMs (engine : RotationEngine) (staleAfterMs : Nat) : RotationEngine :=
  { engine with quotaStaleAfterMs := max staleAfterMs 1 }

/-- Shrinking the limit stops new admissions, it releases no active work. -/
def setMaxInFlight (engine : RotationEngine) (maxInFlight : Nat) :
    RotationEngine × Except String Unit :=
  if maxInFlight = 0 ∨ maxInFlight > 65536 then
    (engine, .error "rotation runtime capacity is invalid")
  else ({ engine with maxInFlight }, .ok ())

/-- The fast path of admission: every physical capacity is occupied. A disabled or
blocked member with free capacity still answers no. -/
def allCapacityReserved (engine : RotationEngine) : Bool :=
  engine.leases.size ≥ engine.maxInFlight || engine.candidates.values.all fun runtime =>
    let physicalLimit := engine.capacityLimits[runtime.candidate.capacityKey]?.getD 0
    (physicalLimit > 0 &&
        engine.capacityInFlightOf runtime.candidate.capacityKey ≥ physicalLimit) ||
      (runtime.candidate.maxConcurrency > 0 &&
        runtime.inFlight ≥ runtime.candidate.maxConcurrency)

def setRecoveryPolicy (engine : RotationEngine) (policy : RecoveryPolicy) : RotationEngine :=
  let policy := { policy with
    successfulRequestsPerCredit := max policy.successfulRequestsPerCredit 1
    maxInFlight := max policy.maxInFlight 1 }
  { engine with
    recoveryPolicy := policy
    recoveryCredits := min engine.recoveryCredits policy.initialCredits }

/-- The smallest positive limit of a list of members, zero when none is set. -/
def memberLimit (members : List CandidateRuntime) : Nat :=
  ((members.flatMap fun runtime =>
    [runtime.candidate.capacityLimit, runtime.candidate.maxConcurrency]).filter (· > 0)).min?.getD 0

def membersOf (engine : RotationEngine) (capacityKey : String) : List CandidateRuntime :=
  engine.candidates.values.filter fun runtime => runtime.candidate.capacityKey = capacityKey

def recomputeCapacityLimit (engine : RotationEngine) (capacityKey : String) : RotationEngine :=
  let members := engine.membersOf capacityKey
  if members.isEmpty then
    { engine with capacityLimits := engine.capacityLimits.erase capacityKey }
  else
    { engine with
      capacityLimits := engine.capacityLimits.insert capacityKey (memberLimit members) }

/-- Two engines that differ at most in what is derived from the members: the
physical limits and the round-robin cursors. -/
def SameUpToDerived (engine derived : RotationEngine) : Prop :=
  derived = { engine with
    capacityLimits := derived.capacityLimits, roundRobinCursor := derived.roundRobinCursor }

theorem SameUpToDerived.trans {engine middle derived : RotationEngine}
    (first : engine.SameUpToDerived middle) (second : middle.SameUpToDerived derived) :
    engine.SameUpToDerived derived := by
  unfold SameUpToDerived at first second ⊢
  rw [first] at second
  exact second

theorem recomputeCapacityLimit_same (engine : RotationEngine) (capacityKey : String) :
    engine.SameUpToDerived (engine.recomputeCapacityLimit capacityKey) := by
  unfold SameUpToDerived recomputeCapacityLimit
  dsimp only
  split <;> rfl

theorem recomputeCapacityLimit_lookup (engine : RotationEngine) (capacityKey other : String) :
    (engine.recomputeCapacityLimit capacityKey).capacityLimits[other]? =
      if other = capacityKey then
        if (engine.membersOf capacityKey).isEmpty then none
        else some (memberLimit (engine.membersOf capacityKey))
      else engine.capacityLimits[other]? := by
  unfold recomputeCapacityLimit
  dsimp only
  split <;> simp [*]

def pruneRoundRobinCursors (engine : RotationEngine) : RotationEngine :=
  { engine with
    roundRobinCursor := engine.roundRobinCursor.filter fun route _ =>
      engine.candidates.values.any fun runtime => runtime.candidate.routes.contains route }

theorem pruneRoundRobinCursors_same (engine : RotationEngine) :
    engine.SameUpToDerived engine.pruneRoundRobinCursors := rfl

/-- Config edits are not provider observations: a replaced record keeps what the
provider reported, and the rates of the routes that remain. -/
def keepObservations (previous candidate : RotationCandidate) : RotationCandidate :=
  { candidate with
    auth := previous.auth
    quota := previous.quota
    quotaRemainingBasisPoints := previous.quotaRemainingBasisPoints
    quotaObservedAtMs := previous.quotaObservedAtMs
    providerCreditsMicroUnits := previous.providerCreditsMicroUnits
    providerCreditsUnlimited := previous.providerCreditsUnlimited
    providerCreditsObservedAtMs := previous.providerCreditsObservedAtMs
    rate := previous.rate
    routeRates := candidate.routes.keys.foldl (fun rates routeKey => rates.insertIfNew routeKey .ready)
      (previous.routeRates.filter fun routeKey _ => candidate.routes.contains routeKey) }

/-- The part of `upsert` that replaces an existing record. -/
def replaceCandidate (engine : RotationEngine) (runtime : CandidateRuntime)
    (candidate : RotationCandidate) : RotationEngine :=
  let previous := runtime.candidate
  { engine with
    candidates := engine.candidates.insert candidate.id
      { runtime with candidate := keepObservations previous candidate }
    rotationCredit :=
      if candidate.weight ≠ previous.weight ∨ candidate.capacityKey ≠ previous.capacityKey ∨
          previous.routes ≠ candidate.routes then ∅
      else engine.rotationCredit
    circuits := engine.circuits.filter fun key _ =>
      key.1 ≠ candidate.id || candidate.routes[key.2]? == previous.routes[key.2]?
    health := engine.health.filterMap fun key health =>
      if key.1 ≠ candidate.id then some health
      else if candidate.routes.contains key.2 then
        if candidate.routes[key.2]? ≠ previous.routes[key.2]? then
          some { health with latencyWindow := .empty }
        else some health
      else none }

/-- The part of `upsert` that installs a record under a new identity. -/
def installCandidate (engine : RotationEngine) (candidate : RotationCandidate) : RotationEngine :=
  let generation := engine.nextCandidateGeneration + 1
  { engine with
    nextCandidateGeneration := generation
    candidateGenerations := engine.candidateGenerations.insert candidate.id generation
    candidates := engine.candidates.insert candidate.id ⟨candidate, 0⟩ }

/-- The limits and cursors that follow the replacement of `previous`. -/
def recomputeDerived (engine : RotationEngine) (previous candidate : RotationCandidate) :
    RotationEngine :=
  let recomputed := engine.recomputeCapacityLimit candidate.capacityKey
  let recomputed :=
    if previous.capacityKey ≠ candidate.capacityKey then
      recomputed.recomputeCapacityLimit previous.capacityKey
    else recomputed
  if previous.routes ≠ candidate.routes then recomputed.pruneRoundRobinCursors else recomputed

theorem recomputeDerived_same (engine : RotationEngine) (previous candidate : RotationCandidate) :
    engine.SameUpToDerived (engine.recomputeDerived previous candidate) := by
  have first := engine.recomputeCapacityLimit_same candidate.capacityKey
  have second := first.trans
    ((engine.recomputeCapacityLimit candidate.capacityKey).recomputeCapacityLimit_same
      previous.capacityKey)
  unfold recomputeDerived
  dsimp only
  split <;> split
  · exact second.trans (pruneRoundRobinCursors_same _)
  · exact first.trans (pruneRoundRobinCursors_same _)
  · exact second
  · exact first

def upsert (engine : RotationEngine) (candidate : RotationCandidate) :
    RotationEngine × Except String Unit :=
  match candidate.validate with
  | .error message => (engine, .error message)
  | .ok () =>
    match engine.candidates[candidate.id]? with
    | some runtime =>
      ((engine.replaceCandidate runtime candidate).recomputeDerived runtime.candidate candidate,
        .ok ())
    | none =>
      if engine.nextCandidateGeneration ≥ u64Max then
        (engine, .error "rotation identity generation exhausted")
      else
        ((engine.installCandidate candidate).recomputeCapacityLimit candidate.capacityKey, .ok ())

/-- The part of `remove` that drops the record and its observations. -/
def eraseCandidate (engine : RotationEngine) (candidateId : String) : RotationEngine :=
  { engine with
    candidates := engine.candidates.erase candidateId
    candidateGenerations := engine.candidateGenerations.erase candidateId
    quotaRevisions := engine.quotaRevisions.erase candidateId
    circuits := engine.circuits.filter fun key _ => key.1 ≠ candidateId
    health := engine.health.filter fun key _ => key.1 ≠ candidateId
    rotationCredit := ∅ }

/-- Removes a candidate from future admission; leases stay live until their
owner settles them, under the capacity key they stored. -/
def remove (engine : RotationEngine) (candidateId : String) :
    RotationEngine × Option RotationCandidate :=
  match engine.candidates[candidateId]? with
  | none => (engine, none)
  | some runtime =>
    (((engine.eraseCandidate candidateId).recomputeCapacityLimit
      runtime.candidate.capacityKey).pruneRoundRobinCursors, some runtime.candidate)

theorem eraseCandidate_same (engine : RotationEngine) (candidateId capacityKey : String) :
    (engine.eraseCandidate candidateId).SameUpToDerived
      ((engine.eraseCandidate candidateId).recomputeCapacityLimit
        capacityKey).pruneRoundRobinCursors :=
  (recomputeCapacityLimit_same _ capacityKey).trans (pruneRoundRobinCursors_same _)

/-- Applies `edit` to a stored record; the observation setters are its instances. -/
def editCandidate (engine : RotationEngine) (candidateId : String)
    (edit : RotationCandidate → RotationCandidate) : RotationEngine × Bool :=
  ({ engine with
      candidates := engine.candidates.modify candidateId fun runtime =>
        { runtime with candidate := edit runtime.candidate } },
    engine.candidates.contains candidateId)

def syncCandidateState (engine : RotationEngine) (candidateId : String) (enabled draining : Bool)
    (auth : AuthState) (quota : QuotaState) (rate : RateState) : RotationEngine × Bool :=
  engine.editCandidate candidateId fun candidate =>
    { candidate with enabled, draining, auth, quota, rate }

def syncCandidateRouteRate (engine : RotationEngine) (candidateId routeKey : String)
    (rate : RateState) : RotationEngine × Bool :=
  engine.editCandidate candidateId fun candidate =>
    { candidate with routeRates := candidate.routeRates.insert routeKey rate }

def setAuth (engine : RotationEngine) (candidateId : String) (auth : AuthState) :
    RotationEngine × Bool :=
  engine.editCandidate candidateId fun candidate => { candidate with auth }

/-- Applies a provider observation only when its fence is newer than the one
already installed for this candidate. -/
def setQuotaIfNewer (engine : RotationEngine) (candidateId : String) (quota : QuotaState)
    (revision : Nat) : RotationEngine × Bool :=
  if revision ≤ engine.quotaRevisions[candidateId]?.getD 0 then (engine, false)
  else if !engine.candidates.contains candidateId then (engine, false)
  else
    let edited := (engine.editCandidate candidateId fun candidate =>
      if quota ≠ .available then
        { candidate with
          quota
          quotaRemainingBasisPoints := none
          quotaObservedAtMs := none }
      else { candidate with quota }).1
    ({ edited with quotaRevisions := edited.quotaRevisions.insert candidateId revision }, true)

def setQuota (engine : RotationEngine) (candidateId : String) (quota : QuotaState) :
    RotationEngine × Bool :=
  engine.setQuotaIfNewer candidateId quota
    (saturatingAdd u64Max (engine.quotaRevisions[candidateId]?.getD 0) 1)

def setQuotaRemaining (engine : RotationEngine) (candidateId : String)
    (remainingBasisPoints observedAtMs : Option Nat) : RotationEngine × Bool :=
  let remaining := remainingBasisPoints.filter fun remaining => remaining > 0
  engine.editCandidate candidateId fun candidate =>
    { candidate with
      quotaRemainingBasisPoints := remaining
      quotaObservedAtMs := observedAtMs.filter fun _ => remaining.isSome }

def setProviderCredits (engine : RotationEngine) (candidateId : String)
    (creditsMicroUnits : Option Nat) (unlimited : Bool) (observedAtMs : Option Nat) :
    RotationEngine × Bool :=
  engine.editCandidate candidateId fun candidate =>
    { candidate with
      providerCreditsMicroUnits := creditsMicroUnits
      providerCreditsUnlimited := unlimited
      providerCreditsObservedAtMs := observedAtMs }

def setRate (engine : RotationEngine) (candidateId : String) (rate : RateState) :
    RotationEngine × Bool :=
  engine.editCandidate candidateId fun candidate => { candidate with rate }

def setEnabled (engine : RotationEngine) (candidateId : String) (enabled : Bool) :
    RotationEngine × Bool :=
  engine.editCandidate candidateId fun candidate => { candidate with enabled }

end ZenithRelay.Scheduler.Rotation.RotationEngine
