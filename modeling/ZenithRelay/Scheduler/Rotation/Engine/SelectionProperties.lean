import ZenithRelay.Scheduler.Rotation.Engine.RegistryProperties

/-!
# Selection

Every filter between readiness and choice keeps a part of its input and never
empties it, and the choice is a member of what is left.
-/

set_option autoImplicit false

namespace ZenithRelay.Scheduler.Rotation

/-- A part of the candidates that is empty only if they are. -/
structure Narrows (before after : List ReadyCandidate) : Prop where
  subset : after ⊆ before
  nonempty : before ≠ [] → after ≠ []

namespace Narrows

variable {before middle after : List ReadyCandidate}

theorem refl (candidates : List ReadyCandidate) : Narrows candidates candidates :=
  ⟨fun _ member => member, id⟩

theorem trans (first : Narrows before middle) (second : Narrows middle after) :
    Narrows before after :=
  ⟨fun _ member => first.subset (second.subset member),
    fun nonempty => second.nonempty (first.nonempty nonempty)⟩

/-- A filter that some candidate passes. -/
theorem filter {keep : ReadyCandidate → Bool} {best : ReadyCandidate} (member : best ∈ before)
    (passes : keep best = true) : Narrows before (before.filter keep) :=
  ⟨List.filter_subset_self _, fun _ => List.ne_nil_of_mem (List.mem_filter.mpr ⟨member, passes⟩)⟩

end Narrows

namespace RotationEngine

private theorem leastLoadedGroup_narrows (ready : List ReadyCandidate) :
    Narrows ready (leastLoadedGroup ready) := by
  unfold leastLoadedGroup
  cases best : Selection.minBy compareLoad ready with
  | none =>
      cases ready with
      | nil => exact .refl []
      | cons first rest => cases best
  | some candidate =>
      refine .filter (Selection.minBy_mem best) ?_
      simp [compareLoad, Std.ReflOrd.compare_self]

theorem cacheAwareLoadGroup_narrows (ready : List ReadyCandidate) (request : RotationRequest) :
    Narrows ready (cacheAwareLoadGroup ready request) := by
  have loaded := leastLoadedGroup_narrows ready
  unfold cacheAwareLoadGroup
  dsimp only
  split
  next =>
    split
    next => exact loaded
    next preferred found =>
      split
      · refine ⟨fun candidate member => ?_, fun nonempty => by simp [loaded.nonempty nonempty]⟩
        rcases List.mem_append.mp member with own | added
        · exact loaded.subset own
        · rw [List.mem_singleton.mp added]
          exact List.mem_of_find?_eq_some found
      · exact loaded
  next => exact loaded

private theorem resourceGroup_narrows (engine : RotationEngine) (candidates : List ReadyCandidate)
    (request : RotationRequest) (nowMs : Nat) :
    Narrows candidates (engine.resourceGroup candidates request nowMs) := by
  unfold resourceGroup
  dsimp only
  split
  next _ _ quota =>
    obtain ⟨best, member, remaining⟩ := List.mem_filterMap.mp (List.max?_mem quota)
    refine .filter member ?_
    have margin : 0 < engine.quotaSwitchMargin request best.id := by
      unfold quotaSwitchMargin
      split <;> decide
    simp [withinQuotaBand, remaining, margin]
  next _ _ credits =>
    obtain ⟨best, member, remaining⟩ := List.mem_filterMap.mp (List.max?_mem credits)
    exact .filter member (by simp [remaining])
  next => exact .refl _

private theorem softHealthGroup_narrows (candidates : List ReadyCandidate) :
    Narrows candidates (softHealthGroup candidates) := by
  unfold softHealthGroup
  dsimp only
  split
  next => exact .refl _
  next bestFailureScore score =>
    obtain ⟨best, member, rfl⟩ := List.mem_map.mp (List.min?_mem score)
    have healthy : Narrows candidates (candidates.filter fun candidate =>
        candidate.failureScoreMilli - best.failureScoreMilli < healthFailureSwitchMarginMilli) :=
      .filter member (by simp [healthFailureSwitchMarginMilli])
    split
    next => exact healthy
    next fastest fast =>
      obtain ⟨latency, measured, rfl⟩ := List.mem_map.mp (List.min?_mem fast)
      obtain ⟨quickest, inside, own⟩ := List.mem_filterMap.mp measured
      refine healthy.trans (.filter inside ?_)
      have positive : 0 < max latency 1 := Nat.lt_of_lt_of_le Nat.one_pos (Nat.le_max_right _ _)
      have margin : max latency 1 * 1000 < max latency 1 * (1000 + healthLatencySwitchMarginMilli) :=
        (Nat.mul_lt_mul_left positive).mpr (by simp [healthLatencySwitchMarginMilli])
      simpa only [own, Option.all_some, decide_eq_true_eq] using margin

private theorem modeGroup_narrows (engine : RotationEngine) (ready : List ReadyCandidate)
    (request : RotationRequest) (nowMs : Nat) :
    Narrows ready
      (match engine.mode with
        | .failover => (Selection.minBy compareSavedOrder ready).toList
        | .roundRobin | .weightedRoundRobin => ready
        | .automatic => softHealthGroup
            (engine.resourceGroup (cacheAwareLoadGroup ready request) request nowMs)) := by
  split
  next =>
    cases best : Selection.minBy compareSavedOrder ready with
    | none =>
        cases ready with
        | nil => exact .refl []
        | cons first rest => cases best
    | some candidate =>
        refine ⟨fun other member => ?_, fun _ => (by rintro ⟨⟩)⟩
        rw [List.mem_singleton.mp member]
        exact Selection.minBy_mem best
  next => exact .refl _
  next => exact .refl _
  next =>
    exact (cacheAwareLoadGroup_narrows ready request).trans
      ((engine.resourceGroup_narrows _ request nowMs).trans (softHealthGroup_narrows _))

theorem selectionGroup_narrows (engine : RotationEngine) (ready : List ReadyCandidate)
    (request : RotationRequest) (nowMs : Nat) :
    Narrows ready (engine.selectionGroup ready request nowMs) := by
  have byMode := engine.modeGroup_narrows ready request nowMs
  unfold selectionGroup
  dsimp only
  split
  next recovery due =>
    split
    · refine ⟨fun other member => ?_, fun _ => (by rintro ⟨⟩)⟩
      rw [List.mem_singleton.mp member]
      exact (List.mem_filter.mp (Selection.minBy_mem due)).1
    · exact byMode
  next => exact byMode

private theorem affineCandidate_mem {request : RotationRequest} {group : List ReadyCandidate}
    {candidate : ReadyCandidate} (affine : affineCandidate request group = some candidate) :
    candidate ∈ group := by
  unfold affineCandidate at affine
  rcases Option.or_eq_some_iff.mp affine with own | ⟨-, warm⟩
  · exact List.mem_of_find?_eq_some own
  · obtain ⟨alternative, -, found⟩ := List.exists_of_findSome?_eq_some warm
    exact List.mem_of_find?_eq_some found

private theorem chooseRoundRobin_mem {engine : RotationEngine} {routeKey : String}
    {group : List ReadyCandidate} {candidate : ReadyCandidate}
    (chosen : engine.chooseRoundRobin routeKey group = some candidate) : candidate ∈ group := by
  unfold chooseRoundRobin at chosen
  exact (List.mem_insertionSort _).mp (List.mem_of_getElem? chosen)

private theorem chooseRoundRobin_isSome (engine : RotationEngine) (routeKey : String)
    {group : List ReadyCandidate} (nonempty : group ≠ []) :
    ∃ candidate, engine.chooseRoundRobin routeKey group = some candidate := by
  unfold chooseRoundRobin
  dsimp only
  rw [← Option.isSome_iff_exists, isSome_getElem?]
  set ordered := group.insertionSort fun left right => compareSavedOrder left right ≠ .gt
  have filled : 0 < ordered.length := by
    rw [List.length_insertionSort]
    exact List.length_pos_iff.mpr nonempty
  cases cursor : Option.bind _ _ with
  | none => exact filled
  | some nextIndex =>
      obtain ⟨previous, -, found⟩ := Option.bind_eq_some_iff.mp cursor
      exact (List.findIdx?_eq_some_iff_getElem.mp found).1

theorem chooseForRequest_mem {engine : RotationEngine} {request : RotationRequest}
    {group : List ReadyCandidate} {candidate : ReadyCandidate}
    (chosen : engine.chooseForRequest request group = some candidate) : candidate ∈ group := by
  unfold chooseForRequest chooseWeighted at chosen
  dsimp only at chosen
  split at chosen
  next affine found =>
    cases chosen
    split at found
    · exact affineCandidate_mem found
    · cases found
  next =>
    split at chosen
    · exact chooseRoundRobin_mem chosen
    · split at chosen
      · exact Selection.minBy_mem chosen
      · exact Selection.maxBy_mem chosen

theorem chooseForRequest_isSome (engine : RotationEngine) (request : RotationRequest)
    {group : List ReadyCandidate} (nonempty : group ≠ []) :
    ∃ candidate, engine.chooseForRequest request group = some candidate := by
  unfold chooseForRequest chooseWeighted
  dsimp only
  split
  next affine found => exact ⟨affine, rfl⟩
  next =>
    split
    · exact engine.chooseRoundRobin_isSome request.routeKey nonempty
    · split
      · exact Selection.minBy_isSome nonempty
      · exact Selection.maxBy_isSome nonempty

end RotationEngine

end ZenithRelay.Scheduler.Rotation
