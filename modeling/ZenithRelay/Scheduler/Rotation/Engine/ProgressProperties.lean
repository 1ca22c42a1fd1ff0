import ZenithRelay.Scheduler.Rotation.Engine.SelectionProperties

/-!
# Admission progress

When a request that some member is ready for gets a reservation. Only the alias
that stands for its capacity key takes part in selection, so an ordinary member
behind a recovering alias is out of sight while the recovery permits are taken.
-/

set_option autoImplicit false

namespace ZenithRelay.Scheduler.Rotation.RotationEngine

variable {engine : RotationEngine} {request : RotationRequest} {nowMs : Nat}

/-- Ready ordinary work, or nothing but ready trials and a recovery permit for one. -/
def Admissible (engine : RotationEngine) (request : RotationRequest) (nowMs : Nat) : Prop :=
  (∃ id, engine.candidateAvailability request id nowMs = .ready false) ∨
    (∃ id, engine.candidateAvailability request id nowMs = .ready true) ∧
      (∀ id, engine.candidateAvailability request id nowMs ≠ .ready false) ∧
      engine.recoveryInFlight < engine.recoveryPolicy.maxInFlight

/-- A ready ordinary member with no recovering alias of smaller id before it. -/
def Unshadowed (engine : RotationEngine) (request : RotationRequest) (nowMs : Nat) : Prop :=
  ∃ (id : String) (runtime : CandidateRuntime), engine.candidates[id]? = some runtime ∧
    engine.candidateAvailability request id nowMs = .ready false ∧
    ∀ (other : String) (peer : CandidateRuntime), engine.candidates[other]? = some peer →
      peer.candidate.capacityKey = runtime.candidate.capacityKey → compare other id = .lt →
      engine.candidateAvailability request other nowMs ≠ .ready true

theorem readyCandidate_spec {runtime : CandidateRuntime} {candidate : ReadyCandidate}
    (seen : engine.readyCandidate request nowMs runtime = some candidate) :
    candidate.id = runtime.candidate.id ∧
      candidate.capacityKey = runtime.candidate.capacityKey ∧
      engine.candidateAvailability request runtime.candidate.id nowMs =
        .ready candidate.recovery := by
  unfold readyCandidate at seen
  dsimp only at seen
  split at seen
  next recovery ready =>
    cases seen
    exact ⟨rfl, rfl, ready⟩
  next => cases seen

theorem readyCandidate_isSome {runtime : CandidateRuntime} {recovery : Bool}
    (ready : engine.candidateAvailability request runtime.candidate.id nowMs = .ready recovery) :
    ∃ candidate, engine.readyCandidate request nowMs runtime = some candidate := by
  unfold readyCandidate
  simp only [ready]
  exact ⟨_, rfl⟩

/-- The candidate of a capacity key is its ready alias of least id. -/
theorem mem_readyCandidates_iff (registered : Registered engine) {candidate : ReadyCandidate} :
    candidate ∈ engine.readyCandidates request nowMs ↔
      ∃ runtime, engine.candidates[candidate.id]? = some runtime ∧
        engine.readyCandidate request nowMs runtime = some candidate ∧
        ∀ (other : String) (peer : CandidateRuntime) (recovery : Bool),
          engine.candidates[other]? = some peer →
          peer.candidate.capacityKey = candidate.capacityKey →
          engine.candidateAvailability request other nowMs = .ready recovery →
          (compare candidate.id other).isLE := by
  unfold readyCandidates
  rw [BTreeMap.mem_values_iff]
  constructor
  · rintro ⟨capacityKey, found⟩
    obtain ⟨id, runtime, stored, seen, rfl, least⟩ := BTreeMap.lookup_firstByKey_values
      engine.candidates _ _ _ _ |>.mp found
    have own : candidate.id = id := (readyCandidate_spec seen).1.trans (registered.keyed stored)
    subst own
    refine ⟨runtime, stored, seen, fun other peer recovery present same ready => ?_⟩
    rw [← registered.keyed present] at ready
    obtain ⟨view, shown⟩ := readyCandidate_isSome ready
    exact least other peer view present shown ((readyCandidate_spec shown).2.1.trans same)
  · rintro ⟨runtime, stored, seen, least⟩
    refine ⟨candidate.capacityKey, BTreeMap.lookup_firstByKey_values engine.candidates _ _ _ _ |>.mpr
      ⟨candidate.id, runtime, stored, seen, rfl, ?_⟩⟩
    intro other peer view present shown same
    obtain ⟨-, key, ready⟩ := readyCandidate_spec shown
    rw [registered.keyed present] at ready
    exact least other peer view.recovery present (key.symm.trans same) ready

/-- A ready member is represented by the first ready alias of its capacity key. -/
theorem readyCandidates_represents (registered : Registered engine) {id : String}
    {runtime : CandidateRuntime} {recovery : Bool} (stored : engine.candidates[id]? = some runtime)
    (ready : engine.candidateAvailability request id nowMs = .ready recovery) :
    ∃ candidate ∈ engine.readyCandidates request nowMs,
      candidate.capacityKey = runtime.candidate.capacityKey := by
  rw [← registered.keyed stored] at ready
  obtain ⟨view, seen⟩ := readyCandidate_isSome ready
  have present : view ∈ engine.candidates.values.filterMap (engine.readyCandidate request nowMs) :=
    List.mem_filterMap.mpr ⟨runtime, BTreeMap.mem_values_iff.mpr ⟨id, stored⟩, seen⟩
  have key : view.capacityKey = runtime.candidate.capacityKey := (readyCandidate_spec seen).2.1
  have found := BTreeMap.lookup_firstByKey (·.capacityKey)
    (engine.candidates.values.filterMap (engine.readyCandidate request nowMs))
    runtime.candidate.capacityKey
  cases first : (engine.candidates.values.filterMap (engine.readyCandidate request nowMs)).find?
      fun item => item.capacityKey = runtime.candidate.capacityKey with
  | none => exact absurd key (by simpa using List.find?_eq_none.mp first view present)
  | some candidate =>
      rw [first] at found
      exact ⟨candidate, BTreeMap.mem_values_iff.mpr ⟨_, found⟩, by simpa using List.find?_some first⟩

/-- What stands for a capacity key is ready the way its own availability says. -/
theorem readyCandidates_ready (registered : Registered engine) {candidate : ReadyCandidate}
    (member : candidate ∈ engine.readyCandidates request nowMs) :
    engine.candidateAvailability request candidate.id nowMs = .ready candidate.recovery := by
  obtain ⟨runtime, stored, seen, -⟩ := (mem_readyCandidates_iff registered).mp member
  obtain ⟨own, -, ready⟩ := readyCandidate_spec seen
  rwa [← own] at ready

/-- Selection sees ordinary work exactly when some is unshadowed. -/
theorem ordinary_seen_iff (registered : Registered engine) :
    (∃ candidate ∈ engine.readyCandidates request nowMs, candidate.recovery = false) ↔
      engine.Unshadowed request nowMs := by
  constructor
  · rintro ⟨candidate, member, ordinary⟩
    have ready := readyCandidates_ready registered member
    obtain ⟨runtime, stored, seen, least⟩ := (mem_readyCandidates_iff registered).mp member
    rw [ordinary] at ready
    refine ⟨candidate.id, runtime, stored, ready, fun other peer present same before recovering => ?_⟩
    have below := least other peer true present
      (same.trans (readyCandidate_spec seen).2.1.symm) recovering
    have above : compare candidate.id other = .gt := Std.OrientedCmp.gt_of_lt before
    simp [above] at below
  · rintro ⟨id, runtime, stored, ready, clear⟩
    obtain ⟨candidate, member, key⟩ := readyCandidates_represents registered stored ready
    refine ⟨candidate, member, ?_⟩
    have available := readyCandidates_ready registered member
    obtain ⟨peer, present, seen, least⟩ := (mem_readyCandidates_iff registered).mp member
    have below := least id runtime false stored key.symm ready
    cases order : compare candidate.id id with
    | lt =>
        have same := (readyCandidate_spec seen).2.1.symm.trans key
        cases recovery : candidate.recovery with
        | false => rfl
        | true =>
            rw [recovery] at available
            exact absurd available (clear candidate.id peer present same order)
    | eq =>
        rw [Std.LawfulEqOrd.eq_of_compare order, ready] at available
        injection available with same
        exact same.symm
    | gt => simp [order] at below

/-- Selection has something to choose from when it sees ordinary work, or sees any
and has a recovery permit left. -/
theorem eligible_ne_nil_iff :
    (engine.selectionCandidates request nowMs).1 ≠ [] ↔
      (∃ candidate ∈ engine.readyCandidates request nowMs, candidate.recovery = false) ∨
        (engine.recoveryInFlight < engine.recoveryPolicy.maxInFlight ∧
          engine.readyCandidates request nowMs ≠ []) := by
  unfold selectionCandidates
  dsimp only
  constructor
  · intro eligible
    obtain ⟨candidate, member⟩ := List.exists_mem_of_ne_nil _ eligible
    obtain ⟨member, passes⟩ := List.mem_filter.mp member
    cases recovery : candidate.recovery with
    | false => exact .inl ⟨candidate, member, recovery⟩
    | true =>
        simp only [recovery, Bool.not_true, Bool.false_or, Bool.and_eq_true,
          decide_eq_true_eq] at passes
        exact .inr ⟨passes.1, List.ne_nil_of_mem member⟩
  · intro visible
    by_cases ordinary : ∃ candidate ∈ engine.readyCandidates request nowMs,
        candidate.recovery = false
    · obtain ⟨candidate, member, ordinary⟩ := ordinary
      exact List.ne_nil_of_mem (List.mem_filter.mpr ⟨member, by simp [ordinary]⟩)
    · obtain ⟨permit, nonempty⟩ := visible.resolve_left ordinary
      obtain ⟨candidate, member⟩ := List.exists_mem_of_ne_nil _ nonempty
      have alone : ((engine.readyCandidates request nowMs).any fun candidate =>
          !candidate.recovery) = false := by
        simpa using ordinary
      exact List.ne_nil_of_mem (List.mem_filter.mpr ⟨member, by simp [alone, permit]⟩)

theorem selectionCandidates_mem {candidate : ReadyCandidate}
    (member : candidate ∈ (engine.selectionCandidates request nowMs).1) :
    candidate ∈ engine.readyCandidates request nowMs ∧
      (candidate.recovery → engine.recoveryInFlight < engine.recoveryPolicy.maxInFlight) := by
  unfold selectionCandidates at member
  obtain ⟨member, passes⟩ := List.mem_filter.mp member
  refine ⟨member, fun recovery => ?_⟩
  simp only [recovery, Bool.not_true, Bool.false_or, Bool.and_eq_true, decide_eq_true_eq] at passes
  exact passes.1

/-- The chosen candidate passes every later check of `reserve` but the id space. -/
theorem reserve_of_chosen (registered : Registered engine) {selected : ReadyCandidate}
    (chosen : engine.chooseForRequest request (engine.selectionGroup
      (engine.selectionCandidates request nowMs).1 request nowMs) = some selected)
    (leaseRoom : engine.nextLeaseId < u64Max) :
    ∃ reserved, (engine.reserve request nowMs).2 = .ok reserved ∧
      reserved.candidateId = selected.id ∧ reserved.recovery = selected.recovery := by
  have narrows := engine.selectionGroup_narrows (engine.selectionCandidates request nowMs).1
    request nowMs
  obtain ⟨member, permit⟩ :=
    selectionCandidates_mem (narrows.subset (chooseForRequest_mem chosen))
  have ready := readyCandidates_ready registered member
  obtain ⟨runtime, found, isReady⟩ := candidateAvailability_ready ready
  have gateFree : selected.recovery = true →
      (engine.circuitRuntime selected.id request.routeKey).halfOpenLease = none := by
    intro recovery
    rw [← registered.keyed found]
    exact (isReady.retryable recovery).2
  unfold reserve
  simp only [chosen, ready, found]
  rw [if_neg (by have := isReady.concurrencyRoom; omega), if_neg (by omega),
    if_neg (by rintro ⟨recovery, full⟩; have := permit recovery; omega),
    if_neg (by rintro ⟨recovery, held⟩; simp [gateFree recovery] at held)]
  exact ⟨_, rfl, rfl, rfl⟩

/-- A reservation succeeds exactly when something is eligible and an id is left. -/
theorem reserve_ok_iff (registered : Registered engine) :
    (∃ reserved, (engine.reserve request nowMs).2 = .ok reserved) ↔
      engine.nextLeaseId < u64Max ∧ (engine.selectionCandidates request nowMs).1 ≠ [] := by
  have narrows := engine.selectionGroup_narrows (engine.selectionCandidates request nowMs).1
    request nowMs
  constructor
  · rintro ⟨reserved, succeeded⟩
    rcases engine.reserve_cases request nowMs with
      ⟨error, refused⟩ | ⟨group, selected, runtime, admission, -⟩
    · rw [refused] at succeeded
      cases succeeded
    · have member := chooseForRequest_mem admission.chosen
      rw [admission.group_eq] at member
      exact ⟨admission.leaseRoom, List.ne_nil_of_mem (narrows.subset member)⟩
  · rintro ⟨leaseRoom, eligible⟩
    obtain ⟨selected, chosen⟩ := engine.chooseForRequest_isSome request (narrows.nonempty eligible)
    obtain ⟨reserved, succeeded, -⟩ := reserve_of_chosen registered chosen leaseRoom
    exact ⟨reserved, succeeded⟩

/-- Admission makes progress except for a spent id space and for ordinary work that
is shadowed while every recovery permit is taken. -/
theorem reserve_progress (reachable : engine.Reachable) (request : RotationRequest) (nowMs : Nat)
    (admissible : engine.Admissible request nowMs) :
    (∃ reserved, (engine.reserve request nowMs).2 = .ok reserved) ↔
      engine.nextLeaseId < u64Max ∧
        (engine.recoveryInFlight < engine.recoveryPolicy.maxInFlight ∨
          engine.Unshadowed request nowMs) := by
  have registered := reachable.registered
  have nonempty : engine.readyCandidates request nowMs ≠ [] := by
    have ready : ∃ id recovery, engine.candidateAvailability request id nowMs = .ready recovery := by
      rcases admissible with ⟨id, ready⟩ | ⟨⟨id, ready⟩, -⟩
      · exact ⟨id, false, ready⟩
      · exact ⟨id, true, ready⟩
    obtain ⟨id, recovery, ready⟩ := ready
    obtain ⟨runtime, stored, -⟩ := candidateAvailability_ready ready
    obtain ⟨candidate, member, -⟩ := readyCandidates_represents registered stored ready
    exact List.ne_nil_of_mem member
  rw [reserve_ok_iff registered, eligible_ne_nil_iff, ordinary_seen_iff registered]
  have permit_iff : engine.recoveryInFlight < engine.recoveryPolicy.maxInFlight ∧
      engine.readyCandidates request nowMs ≠ [] ↔
        engine.recoveryInFlight < engine.recoveryPolicy.maxInFlight :=
    and_iff_left nonempty
  rw [permit_iff, or_comm]

/-- Members a and b are aliases of one physical member; a and c fail, and c is on trial. -/
def shadowingRun : List EngineOperation := [
  .upsert ((RotationCandidate.create "a" "r" "m").withCapacity "k" 0),
  .upsert ((RotationCandidate.create "b" "r" "m").withCapacity "k" 0),
  .upsert (.create "c" "r" "m"),
  .reserve ((RotationRequest.create 1 "r" "m").withOwner "a") 0,
  .beginDispatch 1 (.defaultFor 1) ⟨0, 0⟩,
  .settle 1 ⟨.notSent, .countableTransient none⟩ (.defaultFor 1) ⟨0, 0⟩ 0,
  .reserve ((RotationRequest.create 2 "r" "m").withOwner "c") 0,
  .beginDispatch 2 (.defaultFor 2) ⟨0, 0⟩,
  .settle 2 ⟨.notSent, .countableTransient none⟩ (.defaultFor 2) ⟨0, 0⟩ 0,
  .reserve ((RotationRequest.create 3 "r" "m").withOwner "c") 1000]

/-- Before the trial of c takes the last permit, the same request is admitted. -/
theorem reserve_progress_permit_left :
    ∃ reserved, ((RotationEngine.default.runOperations (shadowingRun.take 9)).reserve
      (.create 4 "r" "m") 1000).2 = .ok reserved :=
  (reserve_progress ⟨_, rfl⟩ (.create 4 "r" "m") 1000 (.inl ⟨"b", by decide +kernel⟩)).mpr
    ⟨by decide +kernel, .inl (by decide +kernel)⟩

/-- Its ready alias b is not admitted: a stands for both, and the one permit is out. -/
theorem ordinary_alias_shadowed :
    ¬∀ engine : RotationEngine, engine.Reachable → ∀ request nowMs,
      engine.Admissible request nowMs →
        ∃ reserved, (engine.reserve request nowMs).2 = .ok reserved := by
  intro progress
  obtain ⟨reserved, succeeded⟩ := progress (RotationEngine.default.runOperations shadowingRun)
    ⟨shadowingRun, rfl⟩ (.create 4 "r" "m") 1000 (.inl ⟨"b", by decide +kernel⟩)
  have refused : ((RotationEngine.default.runOperations shadowingRun).reserve
      (.create 4 "r" "m") 1000).2 = .error .noEligibleCandidate := rfl
  rw [refused] at succeeded
  cases succeeded

end ZenithRelay.Scheduler.Rotation.RotationEngine
