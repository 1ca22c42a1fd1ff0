import ZenithRelay.Scheduler.Rotation.Engine.ProgressProperties

/-!
# Waiting

What availability reads at a later time when nothing else changes. Only deadlines
and the age of a credit observation depend on the clock: a passed deadline stays
passed, and a credit observation that is not of the future only gets older.
-/

set_option autoImplicit false

namespace ZenithRelay.Scheduler.Rotation.RotationEngine

/-- Every check of `candidateAvailability` that no clock and no capacity enters. -/
structure Permitted (engine : RotationEngine) (request : RotationRequest) (candidateId : String)
    (runtime : CandidateRuntime) : Prop where
  untried : request.tried.contains candidateId = false
  allowed : request.allowedCandidates.any (fun allowed => !allowed.contains candidateId) = false
  owned : request.owner.any (fun owner => owner ≠ candidateId) = false
  stored : engine.candidates[candidateId]? = some runtime
  supported : runtime.candidate.supports request = .ok ()
  authorized : runtime.candidate.auth = .ready

/-- The rate of the route, or the rate of the member where the route has none. -/
def routeRate (runtime : CandidateRuntime) (routeKey : String) : RateState :=
  runtime.candidate.routeRates[routeKey]?.getD runtime.candidate.rate

/-- A rate deadline is not ahead. -/
def RatePassed (rate : RateState) (nowMs : Nat) : Prop :=
  ∀ notBeforeMs, rate = .limited notBeforeMs → notBeforeMs ≤ nowMs

/-- No deadline of a member is ahead, the quota aside. -/
structure DeadlinesPassed (engine : RotationEngine) (request : RotationRequest)
    (runtime : CandidateRuntime) (nowMs : Nat) : Prop where
  rate : RatePassed runtime.candidate.rate nowMs
  route : RatePassed (routeRate runtime request.routeKey) nowMs
  circuit : ∀ notBeforeMs,
    (engine.circuitRuntime runtime.candidate.id request.routeKey).notBeforeMs = some notBeforeMs →
      notBeforeMs ≤ nowMs

/-- A member that nothing but capacity and its circuit's trial can keep from the request. -/
structure OtherwiseEligible (engine : RotationEngine) (request : RotationRequest)
    (candidateId : String) (runtime : CandidateRuntime) (nowMs : Nat) : Prop
    extends Permitted engine request candidateId runtime,
      DeadlinesPassed engine request runtime nowMs where
  quota : engine.quotaWait runtime.candidate nowMs = .ok none

section Deadlines

variable {earliestWait : Option Wait} {notBeforeMs nowMs atMs : Nat} {rate : RateState}
  {reason : CandidateBlockReason}

theorem laterWait_eq_none_iff :
    laterWait earliestWait notBeforeMs nowMs reason = none ↔
      earliestWait = none ∧ notBeforeMs ≤ nowMs := by
  unfold laterWait
  split
  next later => simpa using fun _ => later.1
  next kept =>
    refine ⟨fun absent => ⟨absent, ?_⟩, fun both => both.1⟩
    subst absent
    simpa using kept

theorem rateWait_eq_none_iff :
    rateWait earliestWait rate nowMs = none ↔ earliestWait = none ∧ RatePassed rate nowMs := by
  unfold rateWait RatePassed
  cases rate with
  | ready => simp
  | limited deadline => simp [laterWait_eq_none_iff]

/-- Merging deadlines that pass by `atMs` gives one that does. -/
theorem laterWait_le (before : earliestWait.all (fun wait => wait.1 ≤ atMs) = true)
    (passes : notBeforeMs ≤ atMs) :
    (laterWait earliestWait notBeforeMs nowMs reason).all (fun wait => wait.1 ≤ atMs) = true := by
  unfold laterWait
  split
  next => simpa using passes
  next => exact before

theorem rateWait_le (before : earliestWait.all (fun wait => wait.1 ≤ atMs) = true)
    (passes : RatePassed rate atMs) :
    (rateWait earliestWait rate nowMs).all (fun wait => wait.1 ≤ atMs) = true := by
  cases rate with
  | ready => exact before
  | limited deadline => exact laterWait_le before (passes deadline rfl)

end Deadlines

variable {engine : RotationEngine} {request : RotationRequest} {candidateId : String}
  {runtime : CandidateRuntime} {nowMs atMs : Nat}

/-- The latest deadline of a member whose quota asks for `quotaWait`. -/
def mergedWait (engine : RotationEngine) (request : RotationRequest) (runtime : CandidateRuntime)
    (quotaWait : Option Wait) (nowMs : Nat) : Option Wait :=
  let rates := rateWait (rateWait quotaWait runtime.candidate.rate nowMs)
    (routeRate runtime request.routeKey) nowMs
  match (engine.circuitRuntime runtime.candidate.id request.routeKey).notBeforeMs with
  | some notBeforeMs => laterWait rates notBeforeMs nowMs .circuitOpen
  | none => rates

theorem mergedWait_eq_none_iff {quotaWait : Option Wait} :
    engine.mergedWait request runtime quotaWait nowMs = none ↔
      quotaWait = none ∧ DeadlinesPassed engine request runtime nowMs := by
  unfold mergedWait
  have circuitPassed : ∀ deadline : Option Nat,
      (match deadline with
        | some notBeforeMs => laterWait (rateWait (rateWait quotaWait runtime.candidate.rate nowMs)
            (routeRate runtime request.routeKey) nowMs) notBeforeMs nowMs .circuitOpen
        | none => rateWait (rateWait quotaWait runtime.candidate.rate nowMs)
            (routeRate runtime request.routeKey) nowMs) = none ↔
        ((quotaWait = none ∧ RatePassed runtime.candidate.rate nowMs) ∧
          RatePassed (routeRate runtime request.routeKey) nowMs) ∧
          ∀ notBeforeMs, deadline = some notBeforeMs → notBeforeMs ≤ nowMs := by
    intro deadline
    cases deadline with
    | none => simp [rateWait_eq_none_iff]
    | some notBeforeMs => simp [laterWait_eq_none_iff, rateWait_eq_none_iff]
  refine (circuitPassed _).trans ⟨?_, ?_⟩
  · rintro ⟨⟨⟨clear, rate⟩, route⟩, circuit⟩
    exact ⟨clear, rate, route, circuit⟩
  · rintro ⟨clear, passed⟩
    exact ⟨⟨⟨clear, passed.rate⟩, passed.route⟩, passed.circuit⟩

/-- A member with no quota wait does not wait past the time its deadlines have passed. -/
private theorem mergedWait_le {wait : Wait} (waits : engine.mergedWait request runtime none nowMs = some wait)
    (passed : DeadlinesPassed engine request runtime atMs) : wait.1 ≤ atMs := by
  unfold mergedWait at waits
  dsimp only at waits
  have rates : (rateWait (rateWait none runtime.candidate.rate nowMs)
      (routeRate runtime request.routeKey) nowMs).all (fun wait => wait.1 ≤ atMs) = true :=
    rateWait_le (rateWait_le rfl passed.rate) passed.route
  have circuit := passed.circuit
  cases deadline : (engine.circuitRuntime runtime.candidate.id request.routeKey).notBeforeMs with
  | none =>
      rw [deadline] at waits
      simpa [waits] using rates
  | some notBeforeMs =>
      rw [deadline] at waits
      have bounded : (laterWait (rateWait (rateWait none runtime.candidate.rate nowMs)
          (routeRate runtime request.routeKey) nowMs) notBeforeMs nowMs .circuitOpen).all
            (fun wait => wait.1 ≤ atMs) = true :=
        laterWait_le rates (circuit notBeforeMs deadline)
      simpa [waits] using bounded

/-- Availability of a permitted member is its wait, then its capacity. -/
theorem Permitted.availability (permitted : Permitted engine request candidateId runtime)
    (nowMs : Nat) :
    engine.candidateAvailability request candidateId nowMs =
      match engine.quotaWait runtime.candidate nowMs with
      | .error reason => .blocked reason
      | .ok quotaWait =>
        match engine.mergedWait request runtime quotaWait nowMs with
        | some (atMs, reason) => .waitUntil atMs reason
        | none => engine.capacityAvailability runtime
            (engine.circuitRuntime runtime.candidate.id request.routeKey) := by
  unfold candidateAvailability
  rw [if_neg (Bool.eq_false_iff.mp permitted.untried),
    if_neg (Bool.eq_false_iff.mp permitted.allowed), if_neg (Bool.eq_false_iff.mp permitted.owned)]
  simp only [permitted.stored, permitted.supported]
  unfold mutableAvailability
  simp only [permitted.authorized]
  rfl

/-- A member that is not permitted is blocked for one reason at every time. -/
theorem permitted_or_blocked (engine : RotationEngine) (request : RotationRequest)
    (candidateId : String) :
    (∃ runtime, Permitted engine request candidateId runtime) ∨
      ∃ reason, ∀ nowMs,
        engine.candidateAvailability request candidateId nowMs = .blocked reason := by
  unfold candidateAvailability
  by_cases untried : request.tried.contains candidateId = true
  · exact .inr ⟨.alreadyTried, fun _ => by rw [if_pos untried]⟩
  by_cases allowed : request.allowedCandidates.any
      (fun allowed => !allowed.contains candidateId) = true
  · exact .inr ⟨.notAllowed, fun _ => by rw [if_neg untried, if_pos allowed]⟩
  by_cases owned : request.owner.any (fun owner => owner ≠ candidateId) = true
  · exact .inr ⟨.ownerMismatch, fun _ => by rw [if_neg untried, if_neg allowed, if_pos owned]⟩
  simp only [if_neg untried, if_neg allowed, if_neg owned]
  cases stored : engine.candidates[candidateId]? with
  | none => exact .inr ⟨.disabled, fun _ => rfl⟩
  | some runtime =>
      cases supported : runtime.candidate.supports request with
      | error reason => exact .inr ⟨reason, fun _ => by simp only [supported]⟩
      | ok checked =>
          simp only [supported, mutableAvailability]
          cases authorized : runtime.candidate.auth with
          | needsRefresh => exact .inr ⟨.authRequired, fun _ => rfl⟩
          | blocked => exact .inr ⟨.authBlocked, fun _ => rfl⟩
          | ready =>
              exact .inl ⟨runtime, Bool.eq_false_iff.mpr untried, Bool.eq_false_iff.mpr allowed,
                Bool.eq_false_iff.mpr owned, stored, supported, authorized⟩

/-- Readiness is permission, passed deadlines and room. -/
theorem ready_iff {recovery : Bool} :
    engine.candidateAvailability request candidateId nowMs = .ready recovery ↔
      ∃ runtime, OtherwiseEligible engine request candidateId runtime nowMs ∧
        engine.capacityAvailability runtime
          (engine.circuitRuntime runtime.candidate.id request.routeKey) = .ready recovery := by
  constructor
  · intro ready
    obtain ⟨runtime, permitted⟩ := (permitted_or_blocked engine request candidateId).resolve_right
      (by rintro ⟨reason, blocked⟩; simp [blocked] at ready)
    rw [permitted.availability nowMs] at ready
    cases quota : engine.quotaWait runtime.candidate nowMs with
    | error reason => simp [quota] at ready
    | ok quotaWait =>
        rw [quota] at ready
        cases waits : engine.mergedWait request runtime quotaWait nowMs with
        | some wait => simp [waits] at ready
        | none =>
            obtain ⟨rfl, passed⟩ := mergedWait_eq_none_iff.mp waits
            simp only [waits] at ready
            exact ⟨runtime, ⟨permitted, passed, quota⟩, ready⟩
  · rintro ⟨runtime, eligible, room⟩
    rw [eligible.toPermitted.availability nowMs, eligible.quota]
    simp only [mergedWait_eq_none_iff.mpr ⟨rfl, eligible.toDeadlinesPassed⟩, room]

/-- Selection chooses whenever it has something to choose from. -/
theorem select_eq_none_iff :
    engine.select request nowMs = none ↔ (engine.selectionCandidates request nowMs).1 = [] := by
  have narrows := engine.selectionGroup_narrows (engine.selectionCandidates request nowMs).1
    request nowMs
  unfold select
  dsimp only
  rw [Option.map_eq_none_iff]
  constructor
  · intro none_chosen
    by_contra eligible
    obtain ⟨selected, chosen⟩ := engine.chooseForRequest_isSome request (narrows.nonempty eligible)
    rw [none_chosen] at chosen
    cases chosen
  · intro empty
    rw [Option.eq_none_iff_forall_ne_some]
    intro selected chosen
    have member := narrows.subset (chooseForRequest_mem chosen)
    rw [empty] at member
    cases member

/-- The saturation test covers every branch of the capacity part of availability. -/
theorem capacityAvailability_busy (reserved : engine.allCapacityReserved = true)
    (stored : engine.candidates[candidateId]? = some runtime) (circuit : CircuitRuntime) :
    ∃ reason, engine.capacityAvailability runtime circuit = .busy reason := by
  unfold allCapacityReserved at reserved
  unfold capacityAvailability
  dsimp only
  by_cases leasesFull : engine.leases.size ≥ engine.maxInFlight
  · exact ⟨.capacityBusy, if_pos leasesFull⟩
  rw [if_neg leasesFull]
  split
  next => exact ⟨.capacityBusy, rfl⟩
  next physicalRoom =>
  have concurrencyFull : runtime.candidate.maxConcurrency > 0 ∧
      runtime.inFlight ≥ runtime.candidate.maxConcurrency := by
    have full := List.all_eq_true.mp
      ((Bool.or_eq_true_iff.mp reserved).resolve_left (by simpa using leasesFull)) runtime
      (BTreeMap.mem_values_iff.mpr ⟨candidateId, stored⟩)
    simp only [Bool.or_eq_true, Bool.and_eq_true, decide_eq_true_eq] at full
    exact full.resolve_left physicalRoom
  have concurrencyBusy : runtime.inFlight > 0 ∧ runtime.candidate.maxConcurrency > 0 ∧
      runtime.inFlight ≥ runtime.candidate.maxConcurrency := by omega
  cases circuit.state with
  | closed => exact ⟨.capacityBusy, if_pos concurrencyFull⟩
  | degraded | «open» =>
      by_cases held : circuit.halfOpenLease.isSome
      · exact ⟨.recoveryBusy, if_pos held⟩
      · exact ⟨.capacityBusy, (if_neg held).trans (if_pos concurrencyBusy)⟩
  | halfOpen => exact ⟨.recoveryBusy, rfl⟩

/-- The saturation fast path agrees with full selection: nothing is selected, whatever is
otherwise eligible is busy, and nothing is ready. -/
theorem allCapacityReserved_refuses (reachable : engine.Reachable)
    (reserved : engine.allCapacityReserved = true) (request : RotationRequest) (nowMs : Nat) :
    engine.select request nowMs = none ∧
      (∀ candidateId runtime, OtherwiseEligible engine request candidateId runtime nowMs →
        ∃ reason, engine.candidateAvailability request candidateId nowMs = .busy reason) ∧
      ∀ candidateId recovery,
        engine.candidateAvailability request candidateId nowMs ≠ .ready recovery := by
  have neverReady : ∀ candidateId recovery,
      engine.candidateAvailability request candidateId nowMs ≠ .ready recovery := by
    intro candidateId recovery ready
    obtain ⟨runtime, eligible, room⟩ := ready_iff.mp ready
    obtain ⟨reason, busy⟩ := capacityAvailability_busy reserved eligible.stored
      (engine.circuitRuntime runtime.candidate.id request.routeKey)
    rw [busy] at room
    cases room
  refine ⟨?_, ?_, neverReady⟩
  · rw [select_eq_none_iff]
    by_contra eligible
    obtain ⟨candidate, member⟩ := List.exists_mem_of_ne_nil _ eligible
    exact neverReady _ _ (readyCandidates_ready reachable.registered
      (selectionCandidates_mem member).1)
  · intro candidateId runtime eligible
    obtain ⟨reason, busy⟩ := capacityAvailability_busy reserved eligible.stored
      (engine.circuitRuntime runtime.candidate.id request.routeKey)
    refine ⟨reason, ?_⟩
    rw [eligible.toPermitted.availability nowMs, eligible.quota]
    simp only [mergedWait_eq_none_iff.mpr ⟨rfl, eligible.toDeadlinesPassed⟩, busy]

/-- Two aliases share one slot; a lease of the first saturates both. -/
theorem allCapacityReserved_refuses_alias :
    (RotationEngine.default.runOperations [
      .upsert ((RotationCandidate.create "a" "r" "m").withCapacity "k" 1),
      .upsert ((RotationCandidate.create "b" "r" "m").withCapacity "k" 1),
      .reserve (.create 1 "r" "m") 0]).select (.create 2 "r" "m") 5 = none :=
  (allCapacityReserved_refuses ⟨_, rfl⟩ (by decide +kernel) (.create 2 "r" "m") 5).1

/-!
## Sleeping until the next wake-up
-/

/-- No provider-credit observation is dated after `nowMs`. -/
def creditsDated (engine : RotationEngine) (nowMs : Nat) : Bool :=
  engine.candidates.values.all fun runtime =>
    runtime.candidate.providerCreditsObservedAtMs.all (· ≤ nowMs)

/-- A member that works on provider credits has no fresh observation of them any more. -/
def Lapsed (engine : RotationEngine) (runtime : CandidateRuntime) (atMs : Nat) : Prop :=
  (∃ resetAtMs, runtime.candidate.quota = .creditFallback resetAtMs) ∧
    observationIsFresh runtime.candidate.providerCreditsObservedAtMs atMs
      engine.quotaStaleAfterMs = false

/-- A request refused at `nowMs` stays refused until `nextWakeup`. -/
def NeverLate (engine : RotationEngine) (request : RotationRequest) (nowMs : Nat) : Prop :=
  ∀ atMs, nowMs ≤ atMs →
    (∀ wakeMs, engine.nextWakeup request nowMs = some wakeMs → atMs < wakeMs) →
      engine.select request atMs = none

/-- No member's own wait has ended by `atMs`. -/
def StillWaiting (engine : RotationEngine) (request : RotationRequest) (nowMs atMs : Nat) : Prop :=
  ∀ candidateId untilMs reason,
    engine.candidateAvailability request candidateId nowMs = .waitUntil untilMs reason →
      atMs < untilMs

/-- Every ordinary member that is ready at `nowMs` and has not lapsed by `atMs` has an alias
of smaller id that is ready for a trial at `nowMs` and has not lapsed either. -/
def HiddenAt (engine : RotationEngine) (request : RotationRequest) (nowMs atMs : Nat) : Prop :=
  ∀ candidateId runtime, engine.candidates[candidateId]? = some runtime →
    engine.candidateAvailability request candidateId nowMs = .ready false →
    ¬engine.Lapsed runtime atMs →
    ∃ other peer, engine.candidates[other]? = some peer ∧
      peer.candidate.capacityKey = runtime.candidate.capacityKey ∧
      compare other candidateId = .lt ∧
      engine.candidateAvailability request other nowMs = .ready true ∧ ¬engine.Lapsed peer atMs

private theorem observationIsFresh_mono {observedAtMs : Option Nat} {staleAfterMs : Nat}
    (dated : observedAtMs.all (· ≤ nowMs) = true) (later : nowMs ≤ atMs)
    (fresh : observationIsFresh observedAtMs atMs staleAfterMs = true) :
    observationIsFresh observedAtMs nowMs staleAfterMs = true := by
  unfold observationIsFresh at fresh ⊢
  cases observedAtMs with
  | none => cases fresh
  | some observed =>
      simp only [Option.all_some, Option.any_some, Bool.and_eq_true, decide_eq_true_eq] at *
      omega

/-- A quota asks for nothing when it is not exhausted and its credits have not lapsed. -/
theorem quotaWait_eq_ok_none_iff :
    engine.quotaWait runtime.candidate nowMs = .ok none ↔
      (∀ resetAtMs, runtime.candidate.quota ≠ .exhausted resetAtMs) ∧
        ¬engine.Lapsed runtime nowMs := by
  have untilReset : ∀ resetAtMs : Option Nat,
      (match resetAtMs with
        | some resetAtMs =>
          if resetAtMs > nowMs then
            (.ok (some (resetAtMs, .quotaExhausted)) : Except CandidateBlockReason (Option Wait))
          else .error .quotaExhausted
        | none => .error .quotaExhausted) ≠ .ok none := by
    intro resetAtMs
    cases resetAtMs with
    | none => nofun
    | some resetAtMs => dsimp only; split <;> nofun
  unfold quotaWait Lapsed
  cases quota : runtime.candidate.quota with
  | unknown | available | stale => simp
  | exhausted resetAtMs =>
      exact iff_of_false (untilReset resetAtMs) fun both => both.1 resetAtMs rfl
  | creditFallback resetAtMs =>
      simp only
      split
      next fresh => simp [fresh]
      next stale =>
        exact iff_of_false (untilReset resetAtMs) fun both =>
          both.2 ⟨⟨resetAtMs, rfl⟩, Bool.eq_false_iff.mpr stale⟩

theorem Lapsed.mono (dated : engine.creditsDated nowMs = true)
    (stored : engine.candidates[candidateId]? = some runtime) (later : nowMs ≤ atMs)
    (lapsed : engine.Lapsed runtime nowMs) : engine.Lapsed runtime atMs := by
  refine ⟨lapsed.1, Bool.eq_false_iff.mpr fun fresh => ?_⟩
  have own := List.all_eq_true.mp dated runtime (BTreeMap.mem_values_iff.mpr ⟨candidateId, stored⟩)
  exact Bool.eq_false_iff.mp lapsed.2 (observationIsFresh_mono own later fresh)

theorem RatePassed.mono {rate : RateState} (passed : RatePassed rate nowMs) (later : nowMs ≤ atMs) :
    RatePassed rate atMs :=
  fun notBeforeMs limited => (passed notBeforeMs limited).trans later

theorem DeadlinesPassed.mono (passed : DeadlinesPassed engine request runtime nowMs)
    (later : nowMs ≤ atMs) : DeadlinesPassed engine request runtime atMs where
  rate := passed.rate.mono later
  route := passed.route.mono later
  circuit := fun notBeforeMs stored => (passed.circuit notBeforeMs stored).trans later

/-- While every wait lasts, readiness changes only by credits that lapse. -/
theorem ready_later_iff (dated : engine.creditsDated nowMs = true) (later : nowMs ≤ atMs)
    (waiting : engine.StillWaiting request nowMs atMs)
    (stored : engine.candidates[candidateId]? = some runtime) {recovery : Bool} :
    engine.candidateAvailability request candidateId atMs = .ready recovery ↔
      engine.candidateAvailability request candidateId nowMs = .ready recovery ∧
        ¬engine.Lapsed runtime atMs := by
  rw [ready_iff, ready_iff]
  constructor
  · rintro ⟨own, eligible, room⟩
    obtain rfl : own = runtime := Option.some.inj (eligible.stored.symm.trans stored)
    obtain ⟨available, current⟩ := quotaWait_eq_ok_none_iff.mp eligible.quota
    have quota : engine.quotaWait own.candidate nowMs = .ok none :=
      quotaWait_eq_ok_none_iff.mpr ⟨available, fun lapsed => current (lapsed.mono dated stored later)⟩
    refine ⟨⟨own, ⟨eligible.toPermitted, ?_, quota⟩, room⟩, current⟩
    cases waits : engine.mergedWait request own none nowMs with
    | none => exact (mergedWait_eq_none_iff.mp waits).2
    | some wait =>
        have ended : wait.1 ≤ atMs := mergedWait_le waits eligible.toDeadlinesPassed
        have ahead := waiting candidateId wait.1 wait.2 (by
          rw [eligible.toPermitted.availability nowMs, quota]
          simp only [waits])
        omega
  · rintro ⟨⟨own, eligible, room⟩, current⟩
    obtain rfl : own = runtime := Option.some.inj (eligible.stored.symm.trans stored)
    have available := (quotaWait_eq_ok_none_iff.mp eligible.quota).1
    exact ⟨own, ⟨eligible.toPermitted, eligible.toDeadlinesPassed.mono later,
      quotaWait_eq_ok_none_iff.mpr ⟨available, current⟩⟩, room⟩

private theorem candidateAvailability_stored {recovery : Bool}
    (ready : engine.candidateAvailability request candidateId nowMs = .ready recovery) :
    ∃ runtime, engine.candidates[candidateId]? = some runtime :=
  (ready_iff.mp ready).elim fun runtime eligible => ⟨runtime, eligible.1.stored⟩

/-- The next wake-up is the first end of a member's wait. -/
private theorem lt_of_forall_min {times : List Nat} {earlierMs laterMs : Nat}
    (before : ∀ leastMs, times.min? = some leastMs → earlierMs < leastMs)
    (member : laterMs ∈ times) : earlierMs < laterMs := by
  obtain ⟨leastMs, least⟩ := Option.isSome_iff_exists.mp (List.isSome_min?_of_mem member)
  exact (before leastMs least).trans_le ((List.min?_eq_some_iff.mp least).2 laterMs member)

private theorem before_nextWakeup_iff :
    (∀ wakeMs, engine.nextWakeup request nowMs = some wakeMs → atMs < wakeMs) ↔
      engine.StillWaiting request nowMs atMs := by
  unfold nextWakeup
  constructor
  · intro before candidateId untilMs reason waits
    obtain ⟨runtime, permitted⟩ := (permitted_or_blocked engine request candidateId).resolve_right
      (by rintro ⟨blocked, at_every_time⟩; simp [at_every_time] at waits)
    have present : candidateId ∈ engine.candidates.keys := by
      rw [Std.ExtTreeMap.mem_keys, Std.ExtTreeMap.mem_iff_isSome_getElem?, permitted.stored]
      rfl
    exact lt_of_forall_min before
      (List.mem_filterMap.mpr ⟨candidateId, present, by simp only [waits]⟩)
  · intro waiting wakeMs least
    obtain ⟨candidateId, -, waits⟩ := List.mem_filterMap.mp (List.min?_eq_some_iff.mp least).1
    split at waits
    next untilMs reason available =>
      obtain rfl := Option.some.inj waits
      exact waiting candidateId untilMs reason available
    next => cases waits

/-- Without a recovery permit a request is refused when all its ordinary work is hidden. -/
private theorem select_refused_iff (registered : Registered engine)
    (spent : ¬engine.recoveryInFlight < engine.recoveryPolicy.maxInFlight) :
    engine.select request nowMs = none ↔ ¬engine.Unshadowed request nowMs := by
  rw [select_eq_none_iff, ← ordinary_seen_iff registered, ← not_iff_not, not_not, ← ne_eq,
    eligible_ne_nil_iff]
  exact or_iff_left fun permit => spent permit.1

private theorem unshadowed_later_iff (dated : engine.creditsDated nowMs = true) (later : nowMs ≤ atMs)
    (waiting : engine.StillWaiting request nowMs atMs) :
    ¬engine.Unshadowed request atMs ↔ engine.HiddenAt request nowMs atMs := by
  constructor
  · intro hidden candidateId runtime stored ready current
    by_contra alone
    refine hidden ⟨candidateId, runtime, stored,
      (ready_later_iff dated later waiting stored).mpr ⟨ready, current⟩, ?_⟩
    intro other peer present same before recovering
    obtain ⟨earlier, fresh⟩ := (ready_later_iff dated later waiting present).mp recovering
    exact alone ⟨other, peer, present, same, before, earlier, fresh⟩
  · rintro hidden ⟨candidateId, runtime, stored, ready, clear⟩
    obtain ⟨earlier, current⟩ := (ready_later_iff dated later waiting stored).mp ready
    obtain ⟨other, peer, present, same, before, recovering, fresh⟩ :=
      hidden candidateId runtime stored earlier current
    exact clear other peer present same before
      ((ready_later_iff dated later waiting present).mpr ⟨recovering, fresh⟩)

/-- Sleeping until `nextWakeup` misses nothing exactly when a recovery permit is left, or the
recovering aliases that hide ordinary work hide it for as long as the sleep lasts. -/
theorem neverLate_iff (reachable : engine.Reachable) (dated : engine.creditsDated nowMs = true)
    (refused : engine.select request nowMs = none) :
    engine.NeverLate request nowMs ↔
      engine.recoveryInFlight < engine.recoveryPolicy.maxInFlight ∨
        ∀ atMs, nowMs ≤ atMs → engine.StillWaiting request nowMs atMs →
          engine.HiddenAt request nowMs atMs := by
  have registered := reachable.registered
  unfold NeverLate
  simp only [before_nextWakeup_iff]
  by_cases permit : engine.recoveryInFlight < engine.recoveryPolicy.maxInFlight
  · refine iff_of_true (fun atMs later waiting => ?_) (.inl permit)
    -- With a permit left nothing was ready, and nothing becomes ready before the wake-up.
    rw [select_eq_none_iff] at refused ⊢
    by_contra eligible
    obtain ⟨candidate, member⟩ := List.exists_mem_of_ne_nil _ eligible
    have ready := readyCandidates_ready registered (selectionCandidates_mem member).1
    obtain ⟨runtime, stored⟩ := candidateAvailability_stored ready
    obtain ⟨view, shown, -⟩ := readyCandidates_represents registered stored
      ((ready_later_iff dated later waiting stored).mp ready).1
    exact eligible_ne_nil_iff.mpr (.inr ⟨permit, List.ne_nil_of_mem shown⟩) refused
  · rw [or_iff_right permit]
    refine forall_congr' fun atMs => imp_congr_right fun later => imp_congr_right fun waiting => ?_
    rw [select_refused_iff registered permit]
    exact unshadowed_later_iff dated later waiting

/-- A rate-limited member is not missed: the request stays refused until it is due. -/
theorem neverLate_rate_limited :
    (RotationEngine.default.runOperations [
      .upsert (.create "a" "r" "m"), .setRate "a" (.limited 200)]).NeverLate
        (.create 1 "r" "m") 0 :=
  (neverLate_iff ⟨_, rfl⟩ (by decide +kernel) (by decide +kernel)).mpr (.inl (by decide +kernel))

/-- The aliases of `shadowingRun`, the recovering one working on provider credits. -/
def lapsingRun : List EngineOperation := shadowingRun ++ [
  .setQuota "a" (.creditFallback none), .setProviderCredits "a" (some 1) false (some 1000)]

/-- Nobody waits, so there is no wake-up; yet b is admissible once the credits of a lapse. -/
theorem lapsed_alias_missed :
    ¬∀ engine : RotationEngine, engine.Reachable → ∀ request nowMs,
      engine.creditsDated nowMs = true → engine.select request nowMs = none →
        engine.NeverLate request nowMs := by
  intro neverLate
  have missed := neverLate (RotationEngine.default.runOperations lapsingRun) ⟨lapsingRun, rfl⟩
    (.create 4 "r" "m") 1000 (by decide +kernel) (by decide +kernel) (1000 + 1200001) (by omega)
    (by
      have unscheduled : (RotationEngine.default.runOperations lapsingRun).nextWakeup
          (.create 4 "r" "m") 1000 = none := by decide +kernel
      rw [unscheduled]
      nofun)
  revert missed
  decide +kernel

end ZenithRelay.Scheduler.Rotation.RotationEngine
