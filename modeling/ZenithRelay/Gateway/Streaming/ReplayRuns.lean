import ZenithRelay.Gateway.Streaming.ReplaySteps

/-!
# Runs of a capture

What an enabled capture knows of the observations before, and the bounds that every
capture keeps.
-/

set_option autoImplicit false

namespace ZenithRelay.Gateway.Streaming

namespace NativeReplayCapture

/-! ### Runs -/

/-- All items that are completed, in order. -/
def completions (observations : List Observation) : List (Option Nat × Json) :=
  observations.filterMap Observation.completed

/-- The completed items with each later one in the place of the earlier one of its index. -/
def latest (observations : List Observation) : List (Option Nat × Json) :=
  (completions observations).foldl recordItem []

/-- The item that is completed last at the index. -/
def lastCompleted (observations : List Observation) (index : Nat) : Option Json :=
  ((completions observations).filterMap fun completed =>
    if completed.1 = some index then some completed.2 else none).getLast?

/-- Something was begun at the index that no later item completes. -/
def Unfinished (observations : List Observation) (index : Nat) : Prop :=
  ∃ before observation after, observations = before ++ observation :: after ∧
    observation.begun = some index ∧ ∀ later ∈ after, later.completedIndex ≠ some index

section

variable {observations : List Observation}

theorem completions_concat (observations : List Observation) (observation : Observation) :
    completions (observations ++ [observation]) =
      completions observations ++ observation.completed.toList := by
  rw [completions, List.filterMap_append]
  cases found : observation.completed <;> simp [completions, found]

theorem latest_concat (observations : List Observation) (observation : Observation) :
    latest (observations ++ [observation]) =
      observation.completed.elim (latest observations) (recordItem (latest observations)) := by
  rw [latest, completions_concat, List.foldl_append]
  cases observation.completed <;> rfl

private theorem lastCompleted_concat (observations : List Observation) (observation : Observation)
    (index : Nat) : lastCompleted (observations ++ [observation]) index =
      match observation.completed with
      | some (some completedIndex, item) =>
        if completedIndex = index then some item else lastCompleted observations index
      | _ => lastCompleted observations index := by
  rw [lastCompleted, completions_concat, List.filterMap_append]
  match observation.completed with
  | none => simp [lastCompleted]
  | some (none, item) => simp [lastCompleted]
  | some (some completedIndex, item) =>
      by_cases own : completedIndex = index <;> simp [own, lastCompleted]

theorem latest_distinct (observations : List Observation) :
    IndexDistinct (latest observations) := by
  induction observations using List.reverseRecOn with
  | nil => exact List.nodup_nil
  | append_singleton observations observation ih =>
      rw [latest_concat]
      cases observation.completed with
      | none => exact ih
      | some completed => exact recordItem_distinct ih completed

theorem mem_latest {index : Nat} {item : Json} :
    (some index, item) ∈ latest observations ↔ lastCompleted observations index = some item := by
  induction observations using List.reverseRecOn with
  | nil => simp [latest, completions, lastCompleted]
  | append_singleton observations observation ih =>
      rw [latest_concat, lastCompleted_concat]
      match observation.completed with
      | none => exact ih
      | some (none, other) =>
          rw [Option.elim_some, mem_recordItem (latest_distinct observations)]
          simpa using ih
      | some (some completedIndex, other) =>
          rw [Option.elim_some, mem_recordItem (latest_distinct observations)]
          by_cases own : completedIndex = index
          · simp [own, eq_comm]
          · simp [own, ih, Ne.symm own]

theorem mem_completions_of_latest {entry : Option Nat × Json}
    (member : entry ∈ latest observations) : entry ∈ completions observations := by
  induction observations using List.reverseRecOn with
  | nil => cases member
  | append_singleton observations observation ih =>
      rw [latest_concat] at member
      rw [completions_concat, List.mem_append]
      cases isCompleted : observation.completed with
      | none =>
          rw [isCompleted] at member
          exact .inl (ih member)
      | some completed =>
          rw [isCompleted, Option.elim_some, mem_recordItem (latest_distinct observations)] at member
          rcases member with rfl | ⟨member, _⟩
          · exact .inr (by simp)
          · exact .inl (ih member)

private theorem unfinished_concat {observation : Observation} {index : Nat} :
    Unfinished (observations ++ [observation]) index ↔ observation.begun = some index ∨
      Unfinished observations index ∧ observation.completedIndex ≠ some index := by
  constructor
  · rintro ⟨before, beginning, after, split, begins, unfinished⟩
    rcases List.eq_nil_or_concat after with rfl | ⟨after, last, rfl⟩
    · obtain ⟨_, same⟩ := List.append_inj' split rfl
      cases same
      exact .inl begins
    · rw [List.concat_eq_append] at split unfinished
      rw [← List.cons_append, ← List.append_assoc] at split
      obtain ⟨same, isLast⟩ := List.append_inj' split rfl
      cases isLast
      exact .inr ⟨⟨before, beginning, after, same, begins, fun later member =>
        unfinished later (List.mem_append_left _ member)⟩, unfinished _ (by simp)⟩
  · rintro (begins | ⟨⟨before, beginning, after, rfl, begins, unfinished⟩, apart⟩)
    · exact ⟨observations, observation, [], rfl, begins, nofun⟩
    · refine ⟨before, beginning, after ++ [observation], by simp, begins, fun later member => ?_⟩
      rcases List.mem_append.mp member with member | member
      · exact unfinished later member
      · rw [List.mem_singleton.mp member]
        exact apart

section

variable {jsonLength : Json → Nat}

/-- The bytes of everything that was completed. -/
def completedBytes (jsonLength : Json → Nat) (observations : List Observation) : Nat :=
  ((completions observations).map (jsonLength ·.2)).sum

/-- What an enabled capture knows of its run. -/
structure Tracks (jsonLength : Json → Nat) (observations : List Observation)
    (capture : NativeReplayCapture) : Prop where
  items : capture.capturedItems = latest observations
  itemsBound : (latest observations).length ≤ maxCaptureItems
  bytes : capture.retainedBytes = completedBytes jsonLength observations
  bytesBound : completedBytes jsonLength observations ≤ maxCaptureBytes
  pending : ∀ index, index ∈ capture.pending ↔ Unfinished observations index
  unindexed : capture.unindexedOutput = observations.any Observation.leavesUnindexed

theorem run_concat (observations : List Observation) (observation : Observation) :
    run jsonLength (observations ++ [observation]) =
      (run jsonLength observations).apply jsonLength observation := List.foldl_concat ..

theorem tracks (enabled : (run jsonLength observations).disabled = false) :
    Tracks jsonLength observations (run jsonLength observations) := by
  induction observations using List.reverseRecOn with
  | nil =>
      refine ⟨rfl, Nat.zero_le _, rfl, Nat.zero_le _, fun index => ?_, rfl⟩
      simp [run, empty, Unfinished]
  | append_singleton observations observation ih =>
      rw [run_concat] at enabled ⊢
      have step := apply_step enabled
      have before := ih step.enabled
      have bytes : ((run jsonLength observations).apply jsonLength observation).retainedBytes =
          completedBytes jsonLength (observations ++ [observation]) := by
        rw [step.bytes, before.bytes, completedBytes, completedBytes, completions_concat,
          List.map_append, List.sum_append]
        cases observation.completed <;> simp
      refine ⟨?_, ?_, bytes, ?_, fun index => ?_, ?_⟩
      · rw [step.items, before.items, latest_concat]
      · rw [latest_concat]
        cases isCompleted : observation.completed with
        | none => exact before.itemsBound
        | some completed =>
            have room := step.itemsBound (by rw [isCompleted]; rfl)
            rw [before.items] at room
            exact (recordItem_length _ _).trans room
      · cases isCompleted : observation.completed with
        | none =>
            rw [completedBytes, completions_concat, isCompleted]
            simpa [completedBytes] using before.bytesBound
        | some completed =>
            rw [← bytes]
            exact step.bytesBound (by rw [isCompleted]; rfl)
      · rw [step.pending, before.pending, unfinished_concat]
      · rw [step.unindexed, before.unindexed, List.any_append]
        simp

/-- Disabling is for good. -/
theorem run_disabled (disabled : (run jsonLength observations).disabled = true)
    (later : List Observation) : (run jsonLength (observations ++ later)).disabled = true := by
  rw [run, List.foldl_append]
  change (later.foldl (apply jsonLength) (run jsonLength observations)).disabled = true
  induction later generalizing observations with
  | nil => exact disabled
  | cons observation later ih =>
      rw [List.foldl_cons, ← run_concat]
      exact ih (by rw [run_concat]; exact apply_disabled disabled observation)

private theorem observeResponseDelta_pending {capture : NativeReplayCapture}
    (bounded : capture.pending.size ≤ maxCaptureItems) (outputIndex : Option Nat) :
    (capture.observeResponseDelta outputIndex).pending.size ≤ maxCaptureItems := by
  unfold observeResponseDelta
  split
  · exact bounded
  · split
    · dsimp only
      split
      · exact Nat.zero_le _
      next fits => exact Nat.le_of_not_gt fits
    · exact bounded

private theorem apply_pending {capture : NativeReplayCapture}
    (bounded : capture.pending.size ≤ maxCaptureItems) (observation : Observation) :
    (capture.apply jsonLength observation).pending.size ≤ maxCaptureItems := by
  cases observation with
  | responseDelta index => exact observeResponseDelta_pending bounded index
  | unmaterialized => exact bounded
  | payload event =>
      rw [apply, observe]
      split
      · exact bounded
      · split
        · split
          · exact bounded
          · unfold observeItem
            split
            · exact Nat.zero_le _
            · dsimp only
              split
              · exact Nat.zero_le _
              · cases outputIndex event with
                | none => exact bounded
                | some index => exact Std.ExtTreeSet.size_erase_le.trans bounded
        · split
          · exact observeResponseDelta_pending bounded _
          · exact bounded

/-- The indices that wait for an item never outnumber the item bound. -/
theorem run_pending (observations : List Observation) :
    (run jsonLength observations).pending.size ≤ maxCaptureItems := by
  induction observations using List.reverseRecOn with
  | nil => exact Nat.zero_le _
  | append_singleton observations observation ih =>
      rw [run_concat]
      exact apply_pending ih observation

/-- Over a bound of the run: too many bytes, items, or indices that wait for an item. -/
def Exceeded (jsonLength : Json → Nat) (observations : List Observation) : Prop :=
  maxCaptureBytes < completedBytes jsonLength observations ∨
    maxCaptureItems < (latest observations).length ∨
    ∃ indices : List Nat, indices.Nodup ∧ maxCaptureItems < indices.length ∧
      ∀ index ∈ indices, Unfinished observations index

/-- Going over a bound disables the capture. -/
theorem run_exceeded (exceeded : Exceeded jsonLength observations) :
    (run jsonLength observations).disabled = true := by
  by_contra enabled
  have known := tracks (Bool.not_eq_true _ ▸ enabled)
  rcases exceeded with bytes | items | ⟨indices, distinct, many, unfinished⟩
  · exact absurd known.bytesBound (Nat.not_le_of_gt bytes)
  · exact absurd known.itemsBound (Nat.not_le_of_gt items)
  · have within : indices ⊆ (run jsonLength observations).pending.toList := fun index member =>
      Std.ExtTreeSet.mem_toList.mpr ((known.pending index).mpr (unfinished index member))
    have fewer := (distinct.subperm within).length_le
    rw [Std.ExtTreeSet.length_toList] at fewer
    have bounded := @run_pending jsonLength observations
    omega

private theorem latest_bytes (observations : List Observation) :
    ((latest observations).map (jsonLength ·.2)).sum ≤ completedBytes jsonLength observations := by
  induction observations using List.reverseRecOn with
  | nil => exact Nat.zero_le _
  | append_singleton observations observation ih =>
      rw [latest_concat, completedBytes, completions_concat, List.map_append, List.sum_append]
      cases observation.completed with
      | none => exact ih.trans (Nat.le_add_right _ _)
      | some completed =>
          refine (recordItem_bytes jsonLength _ _).trans ?_
          simpa [completedBytes] using ih

private theorem disable_or_enabled (capture : NativeReplayCapture) (observation : Observation)
    (cleared : capture.disabled = true → capture.capturedItems = [] ∧ capture.pending = ∅)
    (disabled : (capture.apply jsonLength observation).disabled = true) :
    (capture.apply jsonLength observation).capturedItems = [] ∧
      (capture.apply jsonLength observation).pending = ∅ := by
  have delta : ∀ index, (capture.observeResponseDelta index).disabled = true →
      (capture.observeResponseDelta index).capturedItems = [] ∧
        (capture.observeResponseDelta index).pending = ∅ := by
    intro index disabled
    rw [observeResponseDelta.eq_def] at disabled ⊢
    split at disabled
    next already =>
      rw [if_pos already]
      exact cleared already
    next enabled =>
      rw [if_neg enabled]
      cases index with
      | none => exact absurd disabled enabled
      | some index =>
          dsimp only at disabled ⊢
          split at disabled
          next full =>
            rw [if_pos full]
            exact ⟨rfl, rfl⟩
          · exact absurd disabled enabled
  cases observation with
  | responseDelta index => exact delta index disabled
  | unmaterialized => exact cleared disabled
  | payload event =>
      rw [apply, observe] at disabled ⊢
      split at disabled
      next already =>
        rw [if_pos already]
        exact cleared already
      next enabled =>
        rw [if_neg enabled]
        split at disabled
        next done =>
          rw [if_pos done]
          split at disabled
          · exact absurd disabled enabled
          next item _ =>
            rw [observeItem] at disabled ⊢
            split at disabled
            next large =>
              rw [if_pos large]
              exact ⟨rfl, rfl⟩
            next small =>
              rw [if_neg small]
              dsimp only at disabled ⊢
              split at disabled
              next full =>
                rw [if_pos full]
                exact ⟨rfl, rfl⟩
              · exact absurd disabled enabled
        next other =>
          rw [if_neg other]
          split at disabled
          next begins =>
            rw [if_pos begins]
            exact delta _ disabled
          · exact absurd disabled enabled

private theorem run_cleared (disabled : (run jsonLength observations).disabled = true) :
    (run jsonLength observations).capturedItems = [] ∧ (run jsonLength observations).pending = ∅ := by
  induction observations using List.reverseRecOn with
  | nil => exact ⟨rfl, rfl⟩
  | append_singleton observations observation ih =>
      rw [run_concat] at disabled ⊢
      exact disable_or_enabled _ _ ih disabled

/-- What is retained stays within the bounds. -/
theorem run_bounded (observations : List Observation) :
    (run jsonLength observations).capturedItems.length ≤ maxCaptureItems ∧
      ((run jsonLength observations).capturedItems.map (jsonLength ·.2)).sum ≤ maxCaptureBytes := by
  cases disabled : (run jsonLength observations).disabled with
  | true =>
      rw [(run_cleared disabled).1]
      exact ⟨Nat.zero_le _, Nat.zero_le _⟩
  | false =>
      have known := tracks disabled
      rw [known.items]
      exact ⟨known.itemsBound, (latest_bytes observations).trans known.bytesBound⟩

end

/-! ### Order -/

/-- Items that all have an index, by their indices. -/
theorem orderedItems_indexed {items : List (Option Nat × Json)} (distinct : IndexDistinct items)
    (indexed : ∀ entry ∈ items, entry.1.isSome = true) :
    ∃ ordered : List (Nat × Json), (orderedItems items).map (·.2) = ordered.map (·.2) ∧
      (ordered.map (·.1)).Pairwise (· < ·) ∧
      ∀ index item, (index, item) ∈ ordered ↔ (some index, item) ∈ items := by
  have all : items.all (·.1.isSome) = true := List.all_eq_true.mpr indexed
  rw [orderedItems, if_pos all]
  have perm : (items.mergeSort fun left right => decide (left.1.getD 0 ≤ right.1.getD 0)).Perm items :=
    List.mergeSort_perm _ _
  have sorted : (items.mergeSort fun left right =>
      decide (left.1.getD 0 ≤ right.1.getD 0)).Pairwise fun left right =>
        left.1.getD 0 ≤ right.1.getD 0 :=
    (List.pairwise_mergeSort (fun first second third => by simpa using Nat.le_trans)
      (fun first second => by simpa using Nat.le_total _ _) items).imp (by simp)
  generalize (items.mergeSort fun left right =>
    decide (left.1.getD 0 ≤ right.1.getD 0)) = arranged at perm sorted ⊢
  have arrangedIndexed : ∀ entry ∈ arranged, entry.1.isSome = true := fun entry member =>
    indexed entry (perm.mem_iff.mp member)
  have arrangedDistinct : (arranged.filterMap (·.1)).Nodup := by
    have indices : (arranged.filterMap (·.1)).Perm (items.filterMap (·.1)) := perm.filterMap _
    exact indices.nodup_iff.mpr distinct
  refine ⟨arranged.map fun entry => (entry.1.getD 0, entry.2), by simp [Function.comp_def], ?_, ?_⟩
  · have same : arranged.filterMap (·.1) = arranged.map fun entry => entry.1.getD 0 := by
      clear perm sorted arrangedDistinct
      induction arranged with
      | nil => rfl
      | cons entry arranged ih =>
          obtain ⟨index, isIndex⟩ := Option.isSome_iff_exists.mp
            (arrangedIndexed entry List.mem_cons_self)
          rw [List.filterMap_cons, isIndex, List.map_cons, isIndex,
            ih fun entry member => arrangedIndexed entry (List.mem_cons_of_mem _ member)]
          rfl
    rw [List.map_map]
    rw [same] at arrangedDistinct
    have ascending : (arranged.map fun entry => entry.1.getD 0).Pairwise (· ≤ ·) :=
      List.pairwise_map.mpr sorted
    exact ascending.imp₂ (fun _ _ below apart => Nat.lt_of_le_of_ne below apart) arrangedDistinct
  · intro index item
    rw [← perm.mem_iff, List.mem_map]
    constructor
    · rintro ⟨⟨own, held⟩, member, same⟩
      obtain ⟨present, rfl⟩ := Option.isSome_iff_exists.mp (arrangedIndexed _ member)
      cases same
      exact member
    · intro member
      exact ⟨_, member, rfl⟩

end

end NativeReplayCapture

end ZenithRelay.Gateway.Streaming
