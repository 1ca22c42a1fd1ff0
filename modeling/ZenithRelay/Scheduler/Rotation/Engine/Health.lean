import ZenithRelay.Scheduler.Rotation.Engine.State

/-!
# Health and circuits

Incident-scoped outcomes, circuit transitions and bounded recovery pacing. The
update of one circuit and of one health record are functions of that record.
-/

set_option autoImplicit false

namespace ZenithRelay.Scheduler.Rotation

def failureBackoffMs (failureStreak : Nat) : Nat :=
  if failureStreak = 0 ∨ failureStreak = 1 then firstTransientPacingMs
  else if failureStreak = 2 then secondTransientPacingMs
  else
    min (saturatingMul u64Max openBackoffMs
      (saturatingPow u64Max 2 (min (failureStreak - 3) 5))) maxOpenBackoffMs

/-- The pacing after a failure is never shorter than the first one. -/
theorem firstTransientPacingMs_le_failureBackoffMs (failureStreak : Nat) :
    firstTransientPacingMs ≤ failureBackoffMs failureStreak := by
  have power : 1 ≤ 2 ^ min (failureStreak - 3) 5 := Nat.one_le_two_pow
  simp only [failureBackoffMs, firstTransientPacingMs, secondTransientPacingMs, openBackoffMs,
    maxOpenBackoffMs, saturatingMul, saturatingPow, u64Max]
  split_ifs <;> omega

namespace HealthRuntime

def halvings (health : HealthRuntime) (nowMs : Nat) : Nat :=
  let elapsed := (health.observedAtMs.map fun observed => nowMs - observed).getD 0
  min (elapsed / healthHalfLifeMs) 16

def decayedFailureScore (health : HealthRuntime) (nowMs : Nat) : Nat :=
  (· / 2)^[health.halvings nowMs] health.failureScoreMilli

/-- The record after a success or a countable transient failure. -/
def observe (health : HealthRuntime) (observation : HealthObservation) (nowMs : Nat) :
    HealthRuntime :=
  let decayed := health.decayedFailureScore nowMs
  match observation with
  | .countableTransient _ =>
    { health with
      failureScoreMilli :=
        saturatingAdd u32Max (saturatingMul u32Max decayed (1000 - healthEwmaAlphaMilli))
          (saturatingMul u32Max 1000 healthEwmaAlphaMilli) / 1000
      observedAtMs := some nowMs }
  | .success =>
    { health with
      failureScoreMilli := saturatingMul u32Max decayed (1000 - healthEwmaAlphaMilli) / 1000
      observedAtMs := some nowMs }
  | .busy | .cancelled | .clientError | .localError | .monitoringFailure | .unknown =>
    { health with failureScoreMilli := decayed }

def observeFirstOutputLatency (health : HealthRuntime) (latencyMs : Option Nat) (nowMs : Nat) :
    HealthRuntime :=
  let health := { health with latencyWindow := health.latencyWindow.observe latencyMs nowMs }
  match latencyMs with
  | none => health
  | some latencyMs =>
    let blended :=
      match health.firstOutputLatencyMs with
      | some previous =>
        saturatingAdd u64Max (saturatingMul u64Max previous (1000 - healthEwmaAlphaMilli))
          (saturatingMul u64Max latencyMs healthEwmaAlphaMilli) / 1000
      | none => latencyMs
    { health with firstOutputLatencyMs := some blended, latencyObservedAtMs := some nowMs }

end HealthRuntime

namespace CircuitRuntime

def popFirst (requests : BTreeSet RequestId) : BTreeSet RequestId :=
  match requests.min? with
  | some first => requests.erase first
  | none => requests

/-- A newer failure or refresh supersedes a success of an older epoch: it closes
nothing and shortens no cooldown. -/
def observeSuccess (circuit : CircuitRuntime) (lease : LeaseRuntime) : CircuitRuntime × Bool :=
  if circuit.epoch ≠ lease.circuitEpoch then
    (if lease.recovery then { circuit with state := .open } else circuit, false)
  else
    ({ circuit with
        state := .closed
        failureStreak := 0
        countedRequests := ∅
        notBeforeMs := none
        epoch := saturatingAdd u64Max circuit.epoch 1
        incident := saturatingAdd u64Max circuit.incident 1
        lastFailureAtMs := none
        lastTransition := .success }, true)

/-- Failures outside the window no longer count towards the threshold. -/
def forgetOldFailures (circuit : CircuitRuntime) (nowMs : Nat) : CircuitRuntime :=
  if circuit.lastFailureAtMs.any (fun failedAt => nowMs - failedAt > failureWindowMs) then
    { circuit with failureStreak := 0, countedRequests := ∅ }
  else circuit

def observeTransient (circuit : CircuitRuntime) (lease : LeaseRuntime)
    (providerNotBeforeMs : Option Nat) (nowMs : Nat) : CircuitRuntime × Bool :=
  let circuit := circuit.forgetOldFailures nowMs
  if circuit.countedRequests.contains lease.requestId then
    -- A second failure of one request is no second vote.
    if lease.recovery then
      ({ circuit with
          state := .open
          notBeforeMs := some (max (max (saturatingAdd u64Max nowMs firstTransientPacingMs)
            (providerNotBeforeMs.getD 0)) (circuit.notBeforeMs.getD 0)) }, false)
    else (circuit, false)
  else
    let inserted := circuit.countedRequests.insert lease.requestId
    let countedRequests := if inserted.size > 64 then popFirst inserted else inserted
    let failureStreak := saturatingAdd u32Max circuit.failureStreak 1
    let localNotBefore := saturatingAdd u64Max nowMs (failureBackoffMs (max failureStreak 1))
    ({ circuit with
        countedRequests
        failureStreak
        lastFailureAtMs := some nowMs
        notBeforeMs := some (max (max (providerNotBeforeMs.getD 0) localNotBefore)
          (circuit.notBeforeMs.getD 0))
        epoch := saturatingAdd u64Max circuit.epoch 1
        lastTransition := .failure
        state := if lease.recovery ∨ failureStreak ≥ circuitFailureThreshold then .open
          else .degraded }, true)

/-- A cancelled or unknown recovery attempt is no failure, but it must not leave
the one-permit gate stuck. -/
def observeNeutral (circuit : CircuitRuntime) (lease : LeaseRuntime) (nowMs : Nat) :
    CircuitRuntime :=
  if lease.recovery then
    { circuit with
      state := .open
      notBeforeMs := some (max (saturatingAdd u64Max nowMs firstTransientPacingMs)
        (circuit.notBeforeMs.getD 0))
      epoch := saturatingAdd u64Max circuit.epoch 1
      lastTransition := .recoveryAbort }
  else circuit

def releaseHalfOpen (circuit : CircuitRuntime) (leaseId : LeaseId) : CircuitRuntime :=
  if circuit.halfOpenLease = some leaseId then { circuit with halfOpenLease := none } else circuit

/-- The outcome of one lease on its circuit, and whether it was counted. -/
def update (circuit : CircuitRuntime) (lease : LeaseRuntime) (health : HealthObservation)
    (nowMs : Nat) : CircuitRuntime × Bool :=
  if circuit.incident ≠ lease.circuitIncident then (circuit, false)
  else
    let circuit := circuit.releaseHalfOpen lease.leaseId
    match health with
    | .success => circuit.observeSuccess lease
    | .countableTransient providerNotBeforeMs =>
      circuit.observeTransient lease providerNotBeforeMs nowMs
    | .cancelled | .busy | .clientError | .localError | .monitoringFailure | .unknown =>
      (circuit.observeNeutral lease nowMs, false)

/-- The transition an outcome makes on its circuit: none for a lease of an older
incident, a superseded success or a second failure of one request. -/
def transition (circuit : CircuitRuntime) (lease : LeaseRuntime) (health : HealthObservation)
    (nowMs : Nat) : CircuitTransition :=
  if circuit.incident ≠ lease.circuitIncident then .none
  else
    match health with
    | .success => if circuit.epoch = lease.circuitEpoch then .success else .none
    | .countableTransient _ =>
      if (circuit.forgetOldFailures nowMs).countedRequests.contains lease.requestId then .none
      else .failure
    | .busy | .cancelled | .clientError | .localError | .monitoringFailure | .unknown =>
      if lease.recovery then .recoveryAbort else .none

/-- What an outcome does to the cooldown of its circuit, told by its transition. -/
structure UpdatesCooldown (circuit after : CircuitRuntime) (transition : CircuitTransition) :
    Prop where
  epoch : after.epoch =
    if transition = .none then circuit.epoch else saturatingAdd u64Max circuit.epoch 1
  notBefore : transition ≠ .success → circuit.notBeforeMs ≤ after.notBeforeMs
  closed : transition ≠ .success → after.state = .closed → circuit.state = .closed
  lastTransition : after.lastTransition =
    if transition = .none then circuit.lastTransition else transition

private theorem le_some_max (deadline : Option Nat) (other : Nat) :
    deadline ≤ some (max other (deadline.getD 0)) := by
  cases deadline with
  | none => trivial
  | some deadline => exact Nat.le_max_right _ _

theorem update_cooldown (circuit : CircuitRuntime) (lease : LeaseRuntime)
    (health : HealthObservation) (nowMs : Nat) :
    UpdatesCooldown circuit (circuit.update lease health nowMs).1
      (circuit.transition lease health nowMs) := by
  have refl : ∀ deadline : Option Nat, deadline ≤ deadline := fun deadline => by
    cases deadline with
    | none => trivial
    | some deadline => exact Nat.le_refl deadline
  unfold update transition
  split
  next => exact ⟨rfl, fun _ => refl _, fun _ closed => closed, rfl⟩
  next =>
  obtain ⟨released, releasedEq⟩ : ∃ released, circuit.releaseHalfOpen lease.leaseId = released :=
    ⟨_, rfl⟩
  have same : released.state = circuit.state ∧ released.notBeforeMs = circuit.notBeforeMs ∧
      released.epoch = circuit.epoch ∧ released.lastTransition = circuit.lastTransition ∧
      (released.forgetOldFailures nowMs).countedRequests =
        (circuit.forgetOldFailures nowMs).countedRequests := by
    rw [← releasedEq]
    unfold releaseHalfOpen
    split
    · refine ⟨rfl, rfl, rfl, rfl, ?_⟩
      unfold forgetOldFailures
      dsimp only
      split <;> rfl
    · exact ⟨rfl, rfl, rfl, rfl, rfl⟩
  obtain ⟨state, notBefore, epoch, last, counted⟩ := same
  have forgot : (released.forgetOldFailures nowMs).state = released.state ∧
      (released.forgetOldFailures nowMs).notBeforeMs = released.notBeforeMs ∧
      (released.forgetOldFailures nowMs).epoch = released.epoch ∧
      (released.forgetOldFailures nowMs).lastTransition = released.lastTransition := by
    unfold forgetOldFailures
    split <;> exact ⟨rfl, rfl, rfl, rfl⟩
  obtain ⟨stateKept, notBeforeKept, epochKept, lastKept⟩ := forgot
  dsimp only
  rw [releasedEq]
  cases health with
  | success =>
      dsimp only [observeSuccess]
      rw [epoch]
      by_cases current : circuit.epoch = lease.circuitEpoch
      · rw [if_neg (not_not.mpr current), if_pos current]
        exact ⟨rfl, fun other => absurd rfl other, fun other => absurd rfl other, rfl⟩
      · rw [if_pos current, if_neg current]
        split
        · exact ⟨rfl, fun _ => notBefore ▸ refl _, fun _ => nofun, last⟩
        · exact ⟨epoch, fun _ => notBefore ▸ refl _, fun _ closed => state ▸ closed, last⟩
  | countableTransient providerNotBeforeMs =>
      dsimp only [observeTransient]
      rw [counted]
      split
      · split
        · refine ⟨epochKept.trans epoch, fun _ => ?_, fun _ => nofun, lastKept.trans last⟩
          rw [notBeforeKept, notBefore]
          exact le_some_max _ _
        · exact ⟨epochKept.trans epoch, fun _ => (notBeforeKept.trans notBefore) ▸ refl _,
            fun _ closed => (stateKept.trans state) ▸ closed, lastKept.trans last⟩
      · refine ⟨?_, fun _ => ?_, fun _ closed => ?_, rfl⟩
        · change saturatingAdd u64Max (released.forgetOldFailures nowMs).epoch 1 =
            saturatingAdd u64Max circuit.epoch 1
          rw [epochKept, epoch]
        · rw [notBeforeKept, notBefore]
          exact le_some_max _ _
        · dsimp only at closed
          split at closed <;> cases closed
  | busy | cancelled | clientError | localError | monitoringFailure | unknown =>
      dsimp only [observeNeutral]
      split
      · refine ⟨?_, fun _ => ?_, fun _ => nofun, rfl⟩
        · change saturatingAdd u64Max released.epoch 1 = saturatingAdd u64Max circuit.epoch 1
          rw [epoch]
        · rw [notBefore]
          exact le_some_max _ _
      · exact ⟨epoch, fun _ => notBefore ▸ refl _, fun _ closed => state ▸ closed, last⟩

/-- The counted outcomes are the successes and failures that made a transition. -/
theorem update_counted (circuit : CircuitRuntime) (lease : LeaseRuntime)
    (health : HealthObservation) (nowMs : Nat) :
    (circuit.update lease health nowMs).2 = true ↔
      circuit.transition lease health nowMs = .success ∨
        circuit.transition lease health nowMs = .failure := by
  have epoch : (circuit.releaseHalfOpen lease.leaseId).epoch = circuit.epoch := by
    unfold releaseHalfOpen
    split <;> rfl
  have requests : ((circuit.releaseHalfOpen lease.leaseId).forgetOldFailures nowMs).countedRequests =
      (circuit.forgetOldFailures nowMs).countedRequests := by
    unfold releaseHalfOpen forgetOldFailures
    split
    · dsimp only
      split <;> rfl
    · rfl
  unfold update transition
  split
  next => simp
  next =>
  cases health with
  | success =>
      dsimp only [observeSuccess]
      rw [epoch]
      split <;> simp_all
  | countableTransient providerNotBeforeMs =>
      dsimp only [observeTransient]
      rw [requests]
      split
      · split <;> simp
      · simp
  | busy | cancelled | clientError | localError | monitoringFailure | unknown =>
      dsimp only
      split <;> simp

/-- An outcome hands back no permit but the lease's own. -/
theorem update_halfOpenLease {circuit : CircuitRuntime} {lease : LeaseRuntime}
    (other : circuit.halfOpenLease ≠ some lease.leaseId) (health : HealthObservation)
    (nowMs : Nat) : (circuit.update lease health nowMs).1.halfOpenLease = circuit.halfOpenLease := by
  have released : circuit.releaseHalfOpen lease.leaseId = circuit := if_neg other
  unfold update
  split
  · rfl
  · rw [released]
    cases health with
    | success =>
        dsimp only [observeSuccess]
        split
        · split <;> rfl
        · rfl
    | countableTransient providerNotBeforeMs =>
        dsimp only [observeTransient, forgetOldFailures]
        split <;> split <;> [split; skip; split; skip] <;> rfl
    | busy | cancelled | clientError | localError | monitoringFailure | unknown =>
        dsimp only [observeNeutral]
        split <;> rfl

/-- No outcome opens a recovery trial; only a reservation does. -/
theorem update_halfOpen {circuit : CircuitRuntime} {lease : LeaseRuntime}
    {health : HealthObservation} {nowMs : Nat}
    (halfOpen : (circuit.update lease health nowMs).1.state = .halfOpen) :
    circuit.state = .halfOpen := by
  have released : (circuit.releaseHalfOpen lease.leaseId).state = circuit.state := by
    unfold releaseHalfOpen
    split <;> rfl
  unfold update at halfOpen
  split at halfOpen
  next => exact halfOpen
  next =>
  rw [← released]
  cases health with
  | success =>
      dsimp only [observeSuccess] at halfOpen
      split at halfOpen
      · split at halfOpen
        · cases halfOpen
        · exact halfOpen
      · cases halfOpen
  | countableTransient providerNotBeforeMs =>
      have kept : ((circuit.releaseHalfOpen lease.leaseId).forgetOldFailures nowMs).state =
          (circuit.releaseHalfOpen lease.leaseId).state := by
        unfold forgetOldFailures
        split <;> rfl
      dsimp only [observeTransient] at halfOpen
      split at halfOpen
      · split at halfOpen
        · cases halfOpen
        · exact kept ▸ halfOpen
      · dsimp only at halfOpen
        split at halfOpen <;> cases halfOpen
  | busy | cancelled | clientError | localError | monitoringFailure | unknown =>
      dsimp only [observeNeutral] at halfOpen
      split at halfOpen
      · cases halfOpen
      · exact halfOpen

end CircuitRuntime

namespace RotationEngine

def observeHealth (engine : RotationEngine) (candidateId routeKey : String)
    (observation : HealthObservation) (nowMs : Nat) : RotationEngine :=
  match observation with
  | .success | .countableTransient _ =>
    let key := (candidateId, routeKey)
    let health := engine.health[key]?.getD .default
    { engine with health := engine.health.insert key (health.observe observation nowMs) }
  | _ => engine

def observeFirstOutputLatency (engine : RotationEngine) (candidateId routeKey : String)
    (latencyMs : Option Nat) (nowMs : Nat) : RotationEngine :=
  let key := (candidateId, routeKey)
  let health := engine.health[key]?.getD .default
  { engine with
    health := engine.health.insert key (health.observeFirstOutputLatency latencyMs nowMs) }

/-- The engine after the outcome of `lease`, its circuit, and whether it counted. -/
def updateCircuit (engine : RotationEngine) (lease : LeaseRuntime) (health : HealthObservation)
    (nowMs : Nat) : RotationEngine × CircuitSnapshot × Bool :=
  let outcome := (engine.circuitRuntime lease.candidateId lease.routeKey).update lease health nowMs
  ({ engine with
      circuits := engine.circuits.insert (lease.candidateId, lease.routeKey) outcome.1 },
    outcome.1.snapshot, outcome.2)

end RotationEngine

end ZenithRelay.Scheduler.Rotation
