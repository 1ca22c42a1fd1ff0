import ZenithRelay.Scheduler.Rotation.Engine.RotationMembers

/-!
# Rotation state

What each operation does to the credit of a route; a run of the engine is a run of the
rotation over its members.
-/

set_option autoImplicit false

namespace ZenithRelay.Scheduler.Rotation

namespace RotationEngine

variable {engine : RotationEngine} {routeKey : String} {members : List RotationMember}
  {request : RotationRequest} {nowMs : Nat}

/-- The candidate an unowned reservation on the route chose. -/
def unownedPick (engine : RotationEngine) (routeKey : String) : EngineOperation → Option String
  | .reserve request nowMs =>
    if request.routeKey = routeKey ∧ request.owner = none then
      (engine.reserve request nowMs).2.toOption.map (·.candidateId)
    else none
  | _ => none

/-- The candidates chosen for unowned requests on the route, in order. -/
def unownedPicks (engine : RotationEngine) (routeKey : String)
    (operations : List EngineOperation) : List String :=
  Execution.trace apply (fun engine => engine.unownedPick routeKey) engine operations

/-- The members stay as they are: no reconfiguration, and every unowned reservation on
the route finds the same ones ready. -/
def Steady (routeKey : String) (members : List RotationMember) (engine : RotationEngine) :
    EngineOperation → Prop
  | .setMode _ | .upsert _ | .remove _ => False
  | .reserve request nowMs =>
    (engine.unownedPick routeKey (.reserve request nowMs)).isSome →
      engine.Sees request nowMs members
  | _ => True

instance decidableSees (engine : RotationEngine) (request : RotationRequest) (nowMs : Nat)
    (members : List RotationMember) : Decidable (engine.Sees request nowMs members) :=
  inferInstanceAs (Decidable (_ ∧ _))

instance decidableSteady (routeKey : String) (members : List RotationMember)
    (engine : RotationEngine) (operation : EngineOperation) :
    Decidable (Steady routeKey members engine operation) :=
  match operation with
  | .setMode _ | .upsert _ | .remove _ => inferInstanceAs (Decidable False)
  | .reserve _ _ => inferInstanceAs (Decidable (_ → _))
  | .setQuotaStaleAfterMs _ | .setMaxInFlight _ | .setRecoveryPolicy _ | .syncCandidateState .. |
    .syncCandidateRouteRate .. | .setAuth .. | .setQuota .. | .setQuotaIfNewer .. |
    .setQuotaRemaining .. | .setProviderCredits .. | .setRate .. | .setEnabled .. |
    .releaseUnstarted _ | .beginDispatch .. | .beginTransportDispatch .. |
    .settleWithLatency .. | .settle .. | .cancel .. => inferInstanceAs (Decidable True)

/-- What an operation among steady members does to the credits of the route, under
what it picks. -/
inductive CreditStep (engine : RotationEngine) (routeKey : String) (members : List RotationMember)
    (operation : EngineOperation) (after : RotationEngine) : Option String → Prop where
  | same :
      (∀ capacityKey : String, after.rotationCredit[(routeKey, capacityKey)]? =
        engine.rotationCredit[(routeKey, capacityKey)]?) →
      CreditStep engine routeKey members operation after none
  | pick (picked : RotationMember) :
      RotationMember.Proper members →
      RotationMember.choose members (engine.routeCredit routeKey) = some picked →
      (∀ capacityKey : String, after.rotationCredit[(routeKey, capacityKey)]? =
        (members.find? fun member => member.capacityKey = capacityKey).map fun _ =>
          RotationMember.advance members (engine.routeCredit routeKey) picked capacityKey) →
      CreditStep engine routeKey members operation after (some picked.id)
  | pin (request : RotationRequest) (nowMs : Nat) (owner : String) (runtime : CandidateRuntime) :
      operation = .reserve request nowMs → request.routeKey = routeKey →
      request.owner = some owner → engine.candidates[owner]? = some runtime →
      (∀ capacityKey : String, after.rotationCredit[(routeKey, capacityKey)]? =
        if capacityKey = runtime.candidate.capacityKey then
          some (saturatingSubI64
            (saturatingAddI64 (engine.routeCredit routeKey capacityKey) runtime.candidate.weight)
            runtime.candidate.weight)
        else none) →
      CreditStep engine routeKey members operation after none

private theorem reserve_creditStep (reachable : engine.Reachable)
    (weighted : engine.mode = .weightedRoundRobin) (request : RotationRequest) (nowMs : Nat)
    (steady : Steady routeKey members engine (.reserve request nowMs)) :
    CreditStep engine routeKey members (.reserve request nowMs)
      (engine.apply (.reserve request nowMs))
      (engine.unownedPick routeKey (.reserve request nowMs)) := by
  have registered := reachable.registered
  change CreditStep engine routeKey members _ (engine.reserve request nowMs).1 _
  simp only [Steady, unownedPick] at steady ⊢
  rcases engine.reserve_cases request nowMs with
    ⟨error, refused⟩ | ⟨group, selected, runtime, admission, reserved⟩
  · simp only [refused, Except.toOption, Option.map_none, ite_self]
    exact .same fun _ => rfl
  rw [reserved] at steady ⊢
  simp only [Except.toOption, Option.map_some] at steady ⊢
  by_cases onRoute : request.routeKey = routeKey
  · subst onRoute
    cases pinned : request.owner with
    | none =>
        simp only [pinned, and_self, ↓reduceIte, Option.isSome_some, forall_const] at steady ⊢
        have everyone := admission.group_eq.trans (steady.group (.inl weighted))
        have chosen := admission.chosen
        rw [everyone] at chosen ⊢
        exact .pick selected.member (steady.proper reachable)
          (steady.chosen weighted chosen)
          (steady.advanced registered weighted (chooseForRequest_mem chosen) runtime _)
    | some owner =>
        simp only [reduceCtorEq, and_false, ↓reduceIte]
        have own := (pinned_group registered weighted pinned admission).1
        exact .pin request nowMs owner runtime rfl rfl pinned (own ▸ admission.found)
          (pinned_advanced registered weighted pinned admission _)
  · rw [if_neg fun unowned => onRoute unowned.1]
    refine .same fun capacityKey => ?_
    refine advanceRotationState_lookup_other ?_ (Ne.symm onRoute) capacityKey
    change engine.mode ≠ .roundRobin
    simp [weighted]

/-- What an operation leaves alone that neither reserves nor reconfigures. -/
structure KeepsRotation (engine after : RotationEngine) : Prop where
  rotationCredit : after.rotationCredit = engine.rotationCredit
  mode : after.mode = engine.mode
  roundRobinCursor : after.roundRobinCursor = engine.roundRobinCursor
  records : ∀ id : String,
    after.candidates[id]?.map (fun runtime =>
        (runtime.candidate.capacityKey, runtime.candidate.priority)) =
      engine.candidates[id]?.map fun runtime =>
        (runtime.candidate.capacityKey, runtime.candidate.priority)

theorem KeepsRotation.refl (engine : RotationEngine) : KeepsRotation engine engine :=
  ⟨rfl, rfl, rfl, fun _ => rfl⟩

private theorem editCandidate_keepsRotation (candidateId : String)
    (edit : RotationCandidate → RotationCandidate)
    (keeps : ∀ candidate, KeepsRegistration candidate (edit candidate)) :
    KeepsRotation engine (engine.editCandidate candidateId edit).1 := by
  refine ⟨rfl, rfl, rfl, fun id => ?_⟩
  change (engine.candidates.modify candidateId _)[id]?.map _ = _
  rw [BTreeMap.lookup_modify]
  split
  next =>
    rw [Option.map_map]
    refine congrArg (Option.map · _) (funext fun runtime => ?_)
    have same := keeps runtime.candidate
    simp [same.capacityKey, same.priority]
  next => rfl

private theorem setQuotaIfNewer_keepsRotation (candidateId : String) (quota : QuotaState)
    (revision : Nat) :
    KeepsRotation engine (engine.setQuotaIfNewer candidateId quota revision).1 := by
  unfold setQuotaIfNewer
  split
  next => exact .refl engine
  next =>
  split
  next => exact .refl engine
  next =>
  have edited := @editCandidate_keepsRotation engine candidateId
    (fun candidate =>
      if quota ≠ .available then
        { candidate with
          quota
          quotaRemainingBasisPoints := none
          quotaObservedAtMs := none }
      else { candidate with quota }) fun candidate => by
        split <;> exact ⟨rfl, rfl, rfl, rfl, rfl, rfl, rfl⟩
  exact { edited with }

private theorem dropLease_keepsRotation (leaseId : LeaseId) (lease : LeaseRuntime) :
    KeepsRotation engine (engine.dropLease leaseId lease) := by
  refine ⟨rfl, rfl, rfl, fun id => ?_⟩
  unfold dropLease releaseCapacity
  dsimp only
  split
  next =>
    rw [BTreeMap.lookup_modify]
    split
    next => rw [Option.map_map]; rfl
    next => rfl
  next => rfl

private theorem settleWithLatency_keepsRotation (leaseId : LeaseId)
    (observation : AttemptObservation) (budget : RequestBudget) (clock : ClockReadings)
    (nowMs : Nat) (firstOutputLatencyMs : Option Nat) :
    KeepsRotation engine (engine.settleWithLatency leaseId observation budget clock nowMs
      firstOutputLatencyMs).1 := by
  rcases engine.settleWithLatency_cases leaseId observation budget clock nowMs
      firstOutputLatencyMs with ⟨error, refused⟩ | ⟨lease, settlement, -, -, -, settled⟩
  · rw [refused]
    exact .refl engine
  · obtain ⟨circuits, healthRecords, recoveryCredits, successes, same⟩ :=
      engine.settleLease_same leaseId lease observation.health nowMs firstOutputLatencyMs
    have dropped := @dropLease_keepsRotation engine leaseId lease
    rw [settled, same]
    exact { dropped with }

private theorem beginDispatchInternal_keepsRotation (leaseId : LeaseId) (budget : RequestBudget)
    (clock : ClockReadings) (allowRetainedLease : Bool) :
    KeepsRotation engine
      (engine.beginDispatchInternal leaseId budget clock allowRetainedLease).1 := by
  rcases engine.beginDispatchInternal_cases leaseId budget clock allowRetainedLease with
    ⟨error, refused⟩ | ⟨pending, attemptId, -, -, -, started⟩
  · rw [refused]
    exact .refl engine
  · rw [started]
    exact ⟨rfl, rfl, rfl, fun _ => rfl⟩

/-- Apart from reservations, only a reconfiguration touches the rotation. -/
theorem apply_keepsRotation {operation : EngineOperation}
    (steady : Steady routeKey members engine operation)
    (unreserved : ∀ request nowMs, operation ≠ .reserve request nowMs) :
    KeepsRotation engine (engine.apply operation) := by
  cases operation with
  | setMode | upsert | remove => exact steady.elim
  | reserve request nowMs => exact absurd rfl (unreserved request nowMs)
  | setQuotaStaleAfterMs | setRecoveryPolicy => exact ⟨rfl, rfl, rfl, fun _ => rfl⟩
  | syncCandidateState | syncCandidateRouteRate | setAuth | setQuotaRemaining |
    setProviderCredits | setRate | setEnabled =>
      exact editCandidate_keepsRotation _ _ fun candidate => ⟨rfl, rfl, rfl, rfl, rfl, rfl, rfl⟩
  | setMaxInFlight maxInFlight =>
      simp only [apply, setMaxInFlight]
      split <;> exact ⟨rfl, rfl, rfl, fun _ => rfl⟩
  | setQuota candidateId quota => exact setQuotaIfNewer_keepsRotation candidateId quota _
  | setQuotaIfNewer candidateId quota revision =>
      exact setQuotaIfNewer_keepsRotation candidateId quota revision
  | releaseUnstarted leaseId =>
      simp only [apply]
      rcases engine.releaseUnstarted_cases leaseId with refused | ⟨lease, -, -, released⟩
      · rw [refused]
        exact .refl engine
      · rw [released]
        exact dropLease_keepsRotation leaseId lease
  | beginDispatch leaseId budget clock =>
      exact beginDispatchInternal_keepsRotation leaseId budget clock false
  | beginTransportDispatch leaseId budget clock =>
      exact beginDispatchInternal_keepsRotation leaseId budget clock true
  | settleWithLatency leaseId observation budget clock nowMs latency =>
      exact settleWithLatency_keepsRotation leaseId observation budget clock nowMs latency
  | settle leaseId observation budget clock nowMs =>
      exact settleWithLatency_keepsRotation leaseId observation budget clock nowMs none
  | cancel leaseId budget clock nowMs =>
      exact settleWithLatency_keepsRotation leaseId ⟨.unknown, .cancelled⟩ budget clock nowMs none

/-- Only a reservation picks. -/
theorem unownedPick_silent {operation : EngineOperation}
    (unreserved : ∀ request nowMs, operation ≠ .reserve request nowMs) :
    engine.unownedPick routeKey operation = none := by
  cases operation with
  | reserve request nowMs => exact absurd rfl (unreserved request nowMs)
  | _ => rfl

/-- Among steady members the engine stays in weighted rotation, and an operation takes
one step of the credits under what it picks. -/
theorem apply_creditStep (reachable : engine.Reachable)
    (weighted : engine.mode = .weightedRoundRobin) {operation : EngineOperation}
    (steady : Steady routeKey members engine operation) :
    CreditStep engine routeKey members operation (engine.apply operation)
        (engine.unownedPick routeKey operation) ∧
      (engine.apply operation).mode = .weightedRoundRobin := by
  by_cases reserves : ∃ request nowMs, operation = .reserve request nowMs
  · obtain ⟨request, nowMs, rfl⟩ := reserves
    refine ⟨reserve_creditStep reachable weighted request nowMs steady, ?_⟩
    change (engine.reserve request nowMs).1.mode = .weightedRoundRobin
    rcases engine.reserve_cases request nowMs with
      ⟨error, refused⟩ | ⟨group, selected, runtime, -, reserved⟩
    · rw [refused]
      exact weighted
    · obtain ⟨rotationCredit, roundRobinCursor, same⟩ :=
        engine.takeLease_same request group selected runtime
          (engine.selectionCandidates request nowMs).2
      rw [reserved, same]
      exact weighted
  · have unreserved : ∀ request nowMs, operation ≠ .reserve request nowMs :=
      fun request nowMs reserve => reserves ⟨request, nowMs, reserve⟩
    have keeps := apply_keepsRotation steady unreserved
    rw [unownedPick_silent unreserved]
    exact ⟨.same fun capacityKey => by rw [keeps.rotationCredit], keeps.mode.trans weighted⟩

/-- Every stored credit is at least the least `i64`. -/
def Floored (engine : RotationEngine) : Prop :=
  ∀ (key : String × String) (credit : Int), engine.rotationCredit[key]? = some credit →
    i64Min ≤ credit

theorem Floored.advanceRotationState (floored : engine.Floored) (routeKey : String)
    (candidates : List ReadyCandidate) (candidateId : String) (advanceRoundRobinCursor : Bool) :
    (engine.advanceRotationState routeKey candidates candidateId
      advanceRoundRobinCursor).Floored := by
  have fold : ∀ credit : BTreeMap (String × String) Int,
      (∀ (key : String × String) (stored : Int), credit[key]? = some stored → i64Min ≤ stored) →
      ∀ (key : String × String) (stored : Int),
        (candidates.foldl (fun credit candidate =>
          credit.insert (creditKey routeKey candidate)
            (saturatingAddI64 (credit[creditKey routeKey candidate]?.getD 0) candidate.weight))
          credit)[key]? = some stored → i64Min ≤ stored := by
    induction candidates with
    | nil => exact fun _ bounded => bounded
    | cons candidate rest ih =>
        intro credit bounded
        refine ih _ fun key stored found => ?_
        rw [BTreeMap.lookup_insert] at found
        split at found
        next => cases found; exact le_max_left _ _
        next => exact bounded key stored found
  have earned : ∀ (key : String × String) (stored : Int),
      (engine.earnCredits routeKey candidates)[key]? = some stored → i64Min ≤ stored := by
    refine fold _ fun key stored found => ?_
    rw [BTreeMap.lookup_filter] at found
    exact floored key stored (Option.filter_eq_some_iff.mp found).1
  unfold RotationEngine.advanceRotationState
  dsimp only
  split
  next => split <;> exact floored
  next =>
    split
    next => exact earned
    next selected found =>
      intro key stored found
      change ((engine.earnCredits routeKey candidates).modify _ _)[key]? = some stored at found
      rw [BTreeMap.lookup_modify] at found
      split at found
      next =>
        obtain ⟨before, -, rfl⟩ := Option.map_eq_some_iff.mp found
        exact le_max_left _ _
      next => exact earned key stored found

theorem Floored.apply (floored : engine.Floored) (operation : EngineOperation) :
    (engine.apply operation).Floored := by
  have kept : ∀ {after : RotationEngine},
      after.rotationCredit = engine.rotationCredit ∨ after.rotationCredit = ∅ → after.Floored := by
    rintro after (same | cleared) key credit found
    · exact floored key credit (same ▸ found)
    · simp [cleared] at found
  cases operation with
  | reserve request nowMs =>
      change (engine.reserve request nowMs).1.Floored
      rcases engine.reserve_cases request nowMs with
        ⟨error, refused⟩ | ⟨group, selected, runtime, -, reserved⟩
      · rw [refused]
        exact floored
      · rw [reserved]
        have inserted : (engine.insertLease runtime (engine.newLease request selected runtime
            (engine.selectionCandidates request nowMs).2)).Floored := floored
        exact inserted.advanceRotationState _ _ _ _
  | setMode mode =>
      refine kept ?_
      simp only [RotationEngine.apply, setMode]
      split
      · exact .inr rfl
      · exact .inl rfl
  | upsert candidate =>
      refine kept ?_
      simp only [RotationEngine.apply]
      rcases engine.upsert_cases candidate with
        ⟨error, refused⟩ | ⟨-, ⟨runtime, -, replaced⟩ | ⟨-, -, installed⟩⟩
      · rw [refused]
        exact .inl rfl
      · rw [replaced, recomputeDerived_same]
        simp only [replaceCandidate]
        split
        · exact .inr rfl
        · exact .inl rfl
      · rw [installed, recomputeCapacityLimit_same]
        exact .inl rfl
  | remove candidateId =>
      refine kept ?_
      simp only [RotationEngine.apply]
      rcases engine.remove_cases candidateId with ⟨-, refused⟩ | ⟨runtime, -, removed⟩
      · rw [refused]
        exact .inl rfl
      · rw [removed, eraseCandidate_same]
        exact .inr rfl
  | _ => exact kept (.inl (@apply_keepsRotation engine "" [] _ (by trivial) (by simp)).rotationCredit)

theorem Reachable.floored (reachable : engine.Reachable) : engine.Floored :=
  Execution.Reachable.invariant Floored reachable
    (fun _ _ found => by simp [RotationEngine.default] at found)
    fun _ operation floored => floored.apply operation

/-- A pinned reservation on the route that finds no credit on it but its owner's, and
room in that one for the owner's weight. Other operations pin nothing. -/
def PinsCleanly (routeKey : String) (engine : RotationEngine) : EngineOperation → Prop
  | .reserve request _ =>
    request.routeKey = routeKey → ∀ (owner : String) (runtime : CandidateRuntime),
      request.owner = some owner → engine.candidates[owner]? = some runtime →
        (∀ capacityKey, capacityKey ≠ runtime.candidate.capacityKey →
          engine.routeCredit routeKey capacityKey = 0) ∧
        engine.routeCredit routeKey runtime.candidate.capacityKey + runtime.candidate.weight ≤ i64Max
  | _ => True

/-- A step of the credits is silent and changes none, or one round of the rotation. -/
theorem CreditStep.rotates (floored : engine.Floored) {operation : EngineOperation}
    {after : RotationEngine} {pick : Option String}
    (step : CreditStep engine routeKey members operation after pick)
    (clean : PinsCleanly routeKey engine operation) :
    (pick = none ∧ after.routeCredit routeKey = engine.routeCredit routeKey) ∨
      ∃ picked, pick = some picked.id ∧ RotationMember.Proper members ∧
        RotationMember.choose members (engine.routeCredit routeKey) = some picked ∧
        after.routeCredit routeKey =
          RotationMember.advance members (engine.routeCredit routeKey) picked := by
  cases step with
  | same same =>
      refine .inl ⟨rfl, funext fun capacityKey => ?_⟩
      rw [routeCredit, same]
      rfl
  | pick picked proper chosen advanced =>
      refine .inr ⟨picked, rfl, proper, chosen, funext fun capacityKey => ?_⟩
      rw [routeCredit, advanced]
      unfold RotationMember.advance
      cases members.find? fun member => member.capacityKey = capacityKey <;> rfl
  | pin request nowMs owner runtime shape onRoute pinned stored rewritten =>
      subst shape
      obtain ⟨others, room⟩ := clean onRoute owner runtime pinned stored
      refine .inl ⟨rfl, funext fun capacityKey => ?_⟩
      rw [routeCredit, rewritten]
      split
      next own =>
        have low : i64Min ≤ engine.routeCredit routeKey capacityKey := by
          unfold routeCredit
          cases credit : engine.rotationCredit[(routeKey, capacityKey)]? with
          | none => decide
          | some credit => exact floored _ _ ‹_›
        subst own
        have weight : (0 : Int) ≤ runtime.candidate.weight := Int.natCast_nonneg _
        rw [Option.getD_some, saturatingAddI64_eq (by omega) room,
          saturatingSubI64_eq (by omega) (by omega)]
        omega
      next other =>
        exact (others capacityKey other).symm

/-- A run among steady members whose pinned reservations are clean is a run of the
rotation from the credits it starts with. -/
theorem run_rotates (reachable : engine.Reachable) (weighted : engine.mode = .weightedRoundRobin)
    {operations : List EngineOperation}
    (along : Execution.Along apply (fun engine operation =>
      Steady routeKey members engine operation ∧ PinsCleanly routeKey engine operation)
      engine operations) :
    (engine.runOperations operations).mode = .weightedRoundRobin ∧
      ∃ picks, engine.unownedPicks routeKey operations = picks.map (·.id) ∧
        (picks ≠ [] → RotationMember.Proper members) ∧
        RotationMember.Rotates members (engine.routeCredit routeKey) picks
          ((engine.runOperations operations).routeCredit routeKey) := by
  induction operations using List.reverseRecOn with
  | nil => exact ⟨weighted, [], rfl, (absurd rfl ·), .nil⟩
  | append_singleton earlier operation ih =>
      obtain ⟨before, ⟨steady, clean⟩, -⟩ := (Execution.along_append apply).mp along
      obtain ⟨mode, picks, shown, proper, rotates⟩ := ih before
      have reached := reachable.run earlier
      obtain ⟨step, modeAfter⟩ := apply_creditStep reached mode steady
      have last : engine.unownedPicks routeKey (earlier ++ [operation]) =
          picks.map (·.id) ++
            ((engine.runOperations earlier).unownedPick routeKey operation).toList := by
        unfold unownedPicks at shown ⊢
        rw [Execution.trace_append, shown]
        simp [Execution.trace]
      rw [runOperations_append, last]
      refine ⟨modeAfter, ?_⟩
      rcases step.rotates reached.floored clean with
        ⟨silent, same⟩ | ⟨picked, shows, found, chosen, advanced⟩
      · refine ⟨picks, by simp [silent], proper, ?_⟩
        exact same ▸ rotates
      · refine ⟨picks ++ [picked], by simp [shows], fun _ => found, ?_⟩
        exact advanced ▸ rotates.snoc chosen

end RotationEngine

end ZenithRelay.Scheduler.Rotation
