import ZenithRelay.Scheduler.Activity

/-!
# Laws of the activity counters

What one reservation adds to the counts of its owner, lane and model, what one
release takes away, and what a dropped owner leaves.
-/

set_option autoImplicit false

namespace ZenithRelay.Scheduler.SchedulerActivity

/-- Requests of one model, lane and owner. -/
def modelCount (activity : SchedulerActivity) (owner : String) (lane : InFlightLane)
    (modelKey : String) : Nat :=
  (activity.activeModels[(owner, lane)]?.getD ∅)[modelKey]?.getD 0

/-- Requests of an owner over all its models and both lanes, without the counter's bound. -/
def load (activity : SchedulerActivity) (owner : String) : Nat :=
  BTreeMap.sumBy activity.activeModels fun key models =>
    if key.1 = owner then BTreeMap.sumBy models fun _ count => count else 0

private theorem foldl_saturatingAdd (bound : Nat) (counts : List Nat) {start : Nat}
    (fits : start ≤ bound) :
    counts.foldl (saturatingAdd bound) start = min (start + counts.sum) bound := by
  induction counts generalizing start with
  | nil => simpa using fits
  | cons count counts ih =>
      rw [List.foldl_cons, ih (saturatingAdd_le _ _ _), List.sum_cons, saturatingAdd]
      omega

/-- The active request count is the load, up to the counter's bound. -/
theorem activeRequestCount_eq (activity : SchedulerActivity) (owner : String) :
    activity.activeRequestCount owner = min (activity.load owner) u32Max := by
  have total : ((activity.activeModels.toList.filter fun entry => entry.1.1 = owner).flatMap
      fun entry => entry.2.values).sum = activity.load owner := by
    unfold load BTreeMap.sumBy
    induction activity.activeModels.toList with
    | nil => rfl
    | cons entry rest ih =>
        have own : (BTreeMap.values entry.2).sum =
            (entry.2.toList.map fun entry => entry.2).sum := rfl
        by_cases same : entry.1.1 = owner
        · simp only [List.filter_cons, same, decide_true, ↓reduceIte, List.flatMap_cons,
            List.sum_append, List.map_cons, List.sum_cons, ih, own]
        · simp only [List.filter_cons, same, decide_false, Bool.false_eq_true, ↓reduceIte,
            List.map_cons, List.sum_cons, ih, Nat.zero_add]
  rw [activeRequestCount, foldl_saturatingAdd u32Max _ (Nat.zero_le _), total, Nat.zero_add]

theorem increment_lookup (bound : Nat) (counts : BTreeMap String Nat) (key other : String) :
    (increment bound counts key)[other]?.getD 0 =
      if other = key then saturatingAdd bound (counts[key]?.getD 0) 1
      else counts[other]?.getD 0 := by
  unfold increment
  rw [BTreeMap.lookup_insert]
  split <;> rfl

theorem decrement_lookup (counts : BTreeMap String Nat) (key other : String) :
    (decrement counts key)[other]?.getD 0 =
      if other = key then counts[key]?.getD 0 - 1 else counts[other]?.getD 0 := by
  unfold decrement
  cases found : counts[key]? with
  | none =>
      by_cases same : other = key
      · simp [same, found]
      · simp [same]
  | some count =>
      by_cases same : other = key
      · by_cases last : count ≤ 1
        · simp [same, last]
        · simp [same, last]
      · by_cases last : count ≤ 1 <;> simp [same, last]

/-- One request more of a key adds one to the total. -/
private theorem sumBy_increment {counts : BTreeMap String Nat} {key : String}
    (room : counts[key]?.getD 0 < u32Max) :
    BTreeMap.sumBy (increment u32Max counts key) (fun _ count => count) =
      BTreeMap.sumBy counts (fun _ count => count) + 1 := by
  have exactly : saturatingAdd u32Max (counts[key]?.getD 0) 1 = counts[key]?.getD 0 + 1 :=
    saturatingAdd_eq room
  rw [increment, BTreeMap.sumBy_insert, exactly]
  cases found : counts[key]? with
  | none => simp [BTreeMap.erase_eq_self_of_lookup_none found]
  | some count =>
      have split := BTreeMap.sumBy_erase (fun _ count => count) found
      simp only [Option.getD_some]
      omega

/-- One request less of a counted key takes one from the total. -/
private theorem sumBy_decrement {counts : BTreeMap String Nat} {key : String}
    (counted : 0 < counts[key]?.getD 0) :
    BTreeMap.sumBy (decrement counts key) (fun _ count => count) + 1 =
      BTreeMap.sumBy counts fun _ count => count := by
  cases found : counts[key]? with
  | none => simp [found] at counted
  | some count =>
      have split := BTreeMap.sumBy_erase (fun _ count => count) found
      have positive : 0 < count := by simpa [found] using counted
      unfold decrement
      simp only [found]
      by_cases last : count ≤ 1
      · rw [if_pos last]
        omega
      · rw [if_neg last, BTreeMap.sumBy_insert]
        omega

@[simp] theorem withInFlightMap_inFlightMap (activity : SchedulerActivity)
    (inFlight : BTreeMap String Nat) (lane other : InFlightLane) :
    (activity.withInFlightMap inFlight lane).inFlightMap other =
      if other = lane then inFlight else activity.inFlightMap other := by
  cases lane <;> cases other <;> rfl

@[simp] theorem withInFlightMap_activeModels (activity : SchedulerActivity)
    (inFlight : BTreeMap String Nat) (lane : InFlightLane) :
    (activity.withInFlightMap inFlight lane).activeModels = activity.activeModels := by
  cases lane <;> rfl

/-! ## What one reservation adds -/

theorem reserve_inFlight (activity : SchedulerActivity) (owner model : String)
    (lane : InFlightLane) (other : String) (otherLane : InFlightLane) :
    (activity.reserve owner model lane).inFlightCount other otherLane =
      if other = owner ∧ otherLane = lane then
        saturatingAdd u32Max (activity.inFlightCount owner lane) 1
      else activity.inFlightCount other otherLane := by
  have map : ((activity.reserve owner model lane).inFlightMap otherLane) =
      if otherLane = lane then increment u32Max (activity.inFlightMap lane) owner
      else activity.inFlightMap otherLane := by
    rw [← withInFlightMap_inFlightMap]
    cases otherLane <;> rfl
  unfold inFlightCount
  rw [map]
  by_cases sameLane : otherLane = lane
  · rw [if_pos sameLane, increment_lookup]
    by_cases same : other = owner <;> simp [same, sameLane]
  · simp [sameLane]

theorem reserve_activeModels (activity : SchedulerActivity) (owner model : String)
    (lane : InFlightLane) :
    (activity.reserve owner model lane).activeModels =
      activity.activeModels.insert (owner, lane)
        (increment u32Max (activity.activeModels[(owner, lane)]?.getD ∅) (modelIdKey model)) := by
  simp [reserve]

theorem reserve_modelCount (activity : SchedulerActivity) (owner model : String)
    (lane : InFlightLane) (other : String) (otherLane : InFlightLane) (modelKey : String) :
    (activity.reserve owner model lane).modelCount other otherLane modelKey =
      if other = owner ∧ otherLane = lane ∧ modelKey = modelIdKey model then
        saturatingAdd u32Max (activity.modelCount owner lane modelKey) 1
      else activity.modelCount other otherLane modelKey := by
  unfold modelCount
  rw [reserve_activeModels, BTreeMap.lookup_insert]
  by_cases same : other = owner ∧ otherLane = lane
  · obtain ⟨rfl, rfl⟩ := same
    simp only [↓reduceIte, Option.getD_some, true_and, increment_lookup]
    by_cases sameModel : modelKey = modelIdKey model <;> simp [sameModel]
  · have different : ¬((other, otherLane) = (owner, lane)) := by simpa using same
    rw [if_neg different, if_neg fun all => same ⟨all.1, all.2.1⟩]

theorem reserve_load {activity : SchedulerActivity} {owner model : String} {lane : InFlightLane}
    (room : activity.modelCount owner lane (modelIdKey model) < u32Max) (other : String) :
    (activity.reserve owner model lane).load other =
      activity.load other + if other = owner then 1 else 0 := by
  unfold load
  rw [reserve_activeModels, BTreeMap.sumBy_insert, sumBy_increment room]
  cases found : activity.activeModels[(owner, lane)]? with
  | none =>
      rw [BTreeMap.sumBy_erase_absent _ found]
      by_cases same : owner = other <;> simp [same, eq_comm]
  | some models =>
      have split := BTreeMap.sumBy_erase
        (fun (key : String × InFlightLane) models =>
          if key.1 = other then BTreeMap.sumBy models (fun _ count => count) else 0) found
      by_cases same : owner = other
      · simp only [same, ↓reduceIte, Option.getD_some] at split ⊢
        omega
      · simp only [same, Ne.symm same, ↓reduceIte] at split ⊢
        omega

/-! ## What one release takes away -/

private theorem releaseActiveModel_inFlightMap (activity : SchedulerActivity) (owner : String)
    (model : Option String) (lane other : InFlightLane) :
    (activity.releaseActiveModel owner model lane).inFlightMap other =
      activity.inFlightMap other := by
  unfold releaseActiveModel
  split
  · rfl
  · split <;> cases other <;> rfl

theorem release_inFlight (activity : SchedulerActivity) (owner model : String)
    (lane : InFlightLane) (other : String) (otherLane : InFlightLane) :
    (activity.release owner (some model) lane).1.inFlightCount other otherLane =
      if other = owner ∧ otherLane = lane then activity.inFlightCount owner lane - 1
      else activity.inFlightCount other otherLane := by
  unfold release
  split
  next =>
    unfold inFlightCount
    rw [releaseActiveModel_inFlightMap, withInFlightMap_inFlightMap]
    by_cases sameLane : otherLane = lane
    · rw [if_pos sameLane, decrement_lookup]
      by_cases same : other = owner <;> simp [same, sameLane]
    · simp [sameLane]
  next absent =>
    split
    next same =>
      have zero : activity.inFlightCount owner lane = 0 := by
        unfold inFlightCount
        rw [Std.ExtTreeMap.contains_eq_isSome_getElem?] at absent
        cases found : (activity.inFlightMap lane)[owner]? with
        | none => rfl
        | some count => simp [found] at absent
      rw [same.1, same.2, zero]
    next => rfl

/-- The active models after the release of a request whose lane and model are counted. -/
theorem releaseActiveModel_activeModels {activity : SchedulerActivity} {owner model : String}
    {lane : InFlightLane} {models : BTreeMap String Nat}
    (found : activity.activeModels[(owner, lane)]? = some models)
    (counted : 0 < models[modelIdKey model]?.getD 0) :
    (activity.releaseActiveModel owner (some model) lane).activeModels =
      if (decrement models (modelIdKey model)).isEmpty then
        activity.activeModels.erase (owner, lane)
      else activity.activeModels.insert (owner, lane) (decrement models (modelIdKey model)) := by
  have present : models.contains (modelIdKey model) = true := by
    rw [Std.ExtTreeMap.contains_eq_isSome_getElem?]
    cases stored : models[modelIdKey model]? with
    | none => simp [stored] at counted
    | some count => rfl
  simp [releaseActiveModel, found, present]

theorem models_found {activity : SchedulerActivity} {owner modelKey : String}
    {lane : InFlightLane} (counted : 0 < activity.modelCount owner lane modelKey) :
    ∃ models, activity.activeModels[(owner, lane)]? = some models ∧
      0 < models[modelKey]?.getD 0 := by
  unfold modelCount at counted
  cases found : activity.activeModels[(owner, lane)]? with
  | none => simp [found] at counted
  | some models => exact ⟨models, rfl, by simpa [found] using counted⟩

theorem release_activeModels {activity : SchedulerActivity} {owner model : String}
    {lane : InFlightLane} (counted : 0 < activity.inFlightCount owner lane) :
    (activity.release owner (some model) lane).1.activeModels =
      (activity.releaseActiveModel owner (some model) lane).activeModels := by
  have present : (activity.inFlightMap lane).contains owner = true := by
    rw [Std.ExtTreeMap.contains_eq_isSome_getElem?]
    unfold inFlightCount at counted
    cases stored : (activity.inFlightMap lane)[owner]? with
    | none => simp [stored] at counted
    | some count => rfl
  unfold release
  rw [if_pos present]
  unfold releaseActiveModel
  rw [withInFlightMap_activeModels]
  cases activity.activeModels[(owner, lane)]? with
  | none => simp
  | some models => rfl

theorem release_modelCount {activity : SchedulerActivity} {owner model : String}
    {lane : InFlightLane} (counted : 0 < activity.inFlightCount owner lane)
    (modelCounted : 0 < activity.modelCount owner lane (modelIdKey model)) (other : String)
    (otherLane : InFlightLane) (modelKey : String) :
    (activity.release owner (some model) lane).1.modelCount other otherLane modelKey =
      if other = owner ∧ otherLane = lane ∧ modelKey = modelIdKey model then
        activity.modelCount owner lane modelKey - 1
      else activity.modelCount other otherLane modelKey := by
  obtain ⟨models, found, positive⟩ := models_found modelCounted
  unfold modelCount
  rw [release_activeModels counted, releaseActiveModel_activeModels found positive]
  by_cases same : other = owner ∧ otherLane = lane
  · obtain ⟨rfl, rfl⟩ := same
    have counts : ((if (decrement models (modelIdKey model)).isEmpty then
        activity.activeModels.erase (other, otherLane)
        else activity.activeModels.insert (other, otherLane)
          (decrement models (modelIdKey model)))[(other, otherLane)]?.getD ∅)[modelKey]?.getD 0 =
        (decrement models (modelIdKey model))[modelKey]?.getD 0 := by
      split
      next empty =>
        rw [Std.ExtTreeMap.isEmpty_iff.mp empty]
        simp
      next => simp
    rw [counts, decrement_lookup, found]
    by_cases sameModel : modelKey = modelIdKey model <;> simp [sameModel]
  · have different : ¬((other, otherLane) = (owner, lane)) := by simpa using same
    have unrelated : ¬(other = owner ∧ otherLane = lane ∧ modelKey = modelIdKey model) :=
      fun equal => same ⟨equal.1, equal.2.1⟩
    rw [if_neg unrelated]
    by_cases empty : (decrement models (modelIdKey model)).isEmpty = true
    · rw [if_pos empty, BTreeMap.lookup_erase, if_neg different]
    · rw [if_neg empty, BTreeMap.lookup_insert, if_neg different]

theorem release_load {activity : SchedulerActivity} {owner model : String} {lane : InFlightLane}
    (counted : 0 < activity.inFlightCount owner lane)
    (modelCounted : 0 < activity.modelCount owner lane (modelIdKey model)) (other : String) :
    (activity.release owner (some model) lane).1.load other + (if other = owner then 1 else 0) =
      activity.load other := by
  obtain ⟨models, found, positive⟩ := models_found modelCounted
  have total := sumBy_decrement positive
  have split := BTreeMap.sumBy_erase
    (fun (key : String × InFlightLane) models =>
      if key.1 = other then BTreeMap.sumBy models (fun _ count => count) else 0) found
  unfold load
  rw [release_activeModels counted, releaseActiveModel_activeModels found positive]
  by_cases empty : (decrement models (modelIdKey model)).isEmpty = true
  · have nothing : BTreeMap.sumBy (decrement models (modelIdKey model)) (fun _ count => count) = 0 := by
      rw [Std.ExtTreeMap.isEmpty_iff.mp empty]
      rfl
    rw [if_pos empty]
    by_cases same : owner = other
    · simp only [same, ↓reduceIte] at split ⊢
      omega
    · simp only [same, Ne.symm same, ↓reduceIte] at split ⊢
      omega
  · rw [if_neg empty, BTreeMap.sumBy_insert]
    by_cases same : owner = other
    · simp only [same, ↓reduceIte] at split ⊢
      omega
    · simp only [same, Ne.symm same, ↓reduceIte] at split ⊢
      omega

/-! ## What a dropped owner leaves -/

theorem removeCandidate_inFlight (activity : SchedulerActivity) (owner other : String)
    (lane : InFlightLane) :
    (activity.removeCandidate owner).inFlightCount other lane =
      if other = owner then 0 else activity.inFlightCount other lane := by
  have map : (activity.removeCandidate owner).inFlightMap lane =
      (activity.inFlightMap lane).erase owner := by cases lane <;> rfl
  unfold inFlightCount
  rw [map, BTreeMap.lookup_erase]
  split <;> rfl

theorem removeCandidate_modelCount (activity : SchedulerActivity) (owner other : String)
    (lane : InFlightLane) (modelKey : String) :
    (activity.removeCandidate owner).modelCount other lane modelKey =
      if other = owner then 0 else activity.modelCount other lane modelKey := by
  have lookup : (activity.removeCandidate owner).activeModels[(other, lane)]? =
      if other = owner then none else activity.activeModels[(other, lane)]? := by
    simp only [removeCandidate, BTreeMap.lookup_filter]
    cases activity.activeModels[(other, lane)]? <;> by_cases same : other = owner <;>
      simp [Option.filter, same]
  unfold modelCount
  rw [lookup]
  split <;> simp

theorem removeCandidate_load (activity : SchedulerActivity) (owner other : String) :
    (activity.removeCandidate owner).load other =
      if other = owner then 0 else activity.load other := by
  unfold load removeCandidate
  dsimp only
  rw [BTreeMap.sumBy_filter]
  by_cases same : other = owner
  · rw [if_pos same]
    have nothing : BTreeMap.sumBy activity.activeModels
        (fun key models => if (decide (key.1 ≠ owner)) = true then
          if key.1 = other then BTreeMap.sumBy models (fun _ count => count) else 0 else 0) =
        BTreeMap.sumBy activity.activeModels fun _ _ => 0 := by
      apply BTreeMap.sumBy_congr
      intro key models _
      by_cases own : key.1 = owner <;> simp [own, same]
    rw [nothing]
    simp [BTreeMap.sumBy]
  · rw [if_neg same]
    apply BTreeMap.sumBy_congr
    intro key models _
    by_cases own : key.1 = other
    · simp [own, same]
    · simp [own]

end ZenithRelay.Scheduler.SchedulerActivity
