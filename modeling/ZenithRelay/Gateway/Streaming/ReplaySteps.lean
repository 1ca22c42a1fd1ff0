import ZenithRelay.Gateway.Streaming.Replay

/-!
# One observation of a capture

What an observation does to the items, the pending indices and the bounds of a capture.
-/

set_option autoImplicit false

namespace ZenithRelay.Gateway.Streaming

/-! ### Observations -/

/-- What a stream tells the capture: events, deltas of the fast path, and that output was
not materialized. -/
inductive Observation
  | payload (eventPayload : Json)
  | responseDelta (outputIndex : Option Nat)
  | unmaterialized

namespace Observation

/-- The item that is completed, with its index. -/
def completed : Observation → Option (Option Nat × Json)
  | .payload event =>
    if NativeReplayCapture.eventType event = some "response.output_item.done" then
      (NativeReplayCapture.outputItem event).map fun item =>
        (NativeReplayCapture.outputIndex event, item)
    else none
  | _ => none

def completedIndex (observation : Observation) : Option Nat := observation.completed.bind (·.1)

/-- The event begins or continues an item without completing one. -/
def begins : Observation → Bool
  | .payload event =>
    NativeReplayCapture.eventType event != some "response.output_item.done" &&
      NativeReplayCapture.beginsOutput event (NativeReplayCapture.eventType event)
  | .responseDelta _ => true
  | .unmaterialized => false

/-- The index of the output of the event, if it has one. -/
def index : Observation → Option Nat
  | .payload event => NativeReplayCapture.outputIndex event
  | .responseDelta outputIndex => outputIndex
  | .unmaterialized => none

/-- The index at which an item is begun or continued. -/
def begun (observation : Observation) : Option Nat :=
  if observation.begins = true then observation.index else none

/-- Output that no completed item can be matched with. -/
def leavesUnindexed : Observation → Bool
  | .payload event =>
    if NativeReplayCapture.eventType event = some "response.output_item.done" then
      (NativeReplayCapture.outputItem event).isNone
    else NativeReplayCapture.beginsOutput event (NativeReplayCapture.eventType event) &&
      (NativeReplayCapture.outputIndex event).isNone
  | .responseDelta outputIndex => outputIndex.isNone
  | .unmaterialized => true

end Observation

namespace NativeReplayCapture

section

variable (jsonLength : Json → Nat)

def apply (capture : NativeReplayCapture) : Observation → NativeReplayCapture
  | .payload event => capture.observe jsonLength event
  | .responseDelta outputIndex => capture.observeResponseDelta outputIndex
  | .unmaterialized => capture.markUnmaterialized

/-- The capture after a stream. -/
def run (observations : List Observation) : NativeReplayCapture :=
  observations.foldl (apply jsonLength) empty

end

/-! ### One observation -/

section

variable {jsonLength : Json → Nat} {capture : NativeReplayCapture}

theorem apply_disabled (disabled : capture.disabled = true) (observation : Observation) :
    (capture.apply jsonLength observation).disabled = true := by
  cases observation with
  | payload event => rw [apply, observe, if_pos disabled]; exact disabled
  | responseDelta index =>
      rw [apply, observeResponseDelta.eq_def, if_pos disabled]
      exact disabled
  | unmaterialized => exact disabled

/-- What an observation does that leaves the capture enabled. -/
structure Stepped (jsonLength : Json → Nat) (capture : NativeReplayCapture)
    (observation : Observation) (after : NativeReplayCapture) : Prop where
  enabled : capture.disabled = false
  items : after.capturedItems =
    observation.completed.elim capture.capturedItems (recordItem capture.capturedItems)
  bytes : after.retainedBytes =
    capture.retainedBytes + observation.completed.elim 0 (jsonLength ·.2)
  bytesBound : observation.completed.isSome = true → after.retainedBytes ≤ maxCaptureBytes
  itemsBound : observation.completed.isSome = true →
    capture.capturedItems.length < maxCaptureItems
  pending : ∀ index, index ∈ after.pending ↔ observation.begun = some index ∨
    index ∈ capture.pending ∧ observation.completedIndex ≠ some index
  pendingBound : after.pending.size ≤ max capture.pending.size maxCaptureItems
  unindexed : after.unindexedOutput = (capture.unindexedOutput || observation.leavesUnindexed)

theorem observeResponseDelta_step {outputIndex : Option Nat}
    (stays : (capture.observeResponseDelta outputIndex).disabled = false) :
    Stepped jsonLength capture (.responseDelta outputIndex)
      (capture.observeResponseDelta outputIndex) := by
  unfold observeResponseDelta at stays ⊢
  cases disabled : capture.disabled with
  | true =>
      rw [disabled, if_pos rfl, disabled] at stays
      cases stays
  | false =>
      rw [disabled, if_neg (by decide)] at stays
      rw [if_neg (by decide)]
      cases outputIndex with
      | none =>
          refine ⟨disabled, rfl, rfl, nofun, nofun, fun index => ?_, le_max_left _ _, ?_⟩
          · simp [Observation.begun, Observation.begins, Observation.index,
              Observation.completedIndex, Observation.completed, markUnmaterialized]
          · simp [markUnmaterialized, Observation.leavesUnindexed]
      | some outputIndex =>
          by_cases full : maxCaptureItems < (capture.pending.insert outputIndex).size
          · simp only [full, if_true] at stays
            cases stays
          · simp only [full, if_false] at stays ⊢
            refine ⟨disabled, rfl, rfl, nofun, nofun, fun index => ?_,
              le_max_of_le_right (Nat.le_of_not_lt full), ?_⟩
            · simp [Observation.begun, Observation.begins, Observation.index,
                Observation.completedIndex, Observation.completed, Std.ExtTreeSet.mem_insert]
            · simp [Observation.leavesUnindexed]

private theorem observeItem_step (enabled : capture.disabled = false) {outputIndex : Option Nat}
    {outputItem : Json} {observation : Observation}
    (completes : observation.completed = some (outputIndex, outputItem))
    (begun : observation.begun = none) (indexed : observation.leavesUnindexed = false)
    (stays : (capture.observeItem jsonLength outputIndex outputItem).disabled = false) :
    Stepped jsonLength capture observation
      (capture.observeItem jsonLength outputIndex outputItem) := by
  unfold observeItem at stays ⊢
  by_cases large : maxCaptureBytes < jsonLength outputItem
  · rw [if_pos large] at stays
    cases stays
  · rw [if_neg large] at stays ⊢
    dsimp only at stays ⊢
    split at stays
    · cases stays
    next fits =>
      rw [if_neg fits]
      obtain ⟨bytesFit, itemsFit⟩ := not_or.mp fits
      have sum : saturatingAdd usizeMax capture.retainedBytes (jsonLength outputItem) =
          capture.retainedBytes + jsonLength outputItem := by
        unfold saturatingAdd at bytesFit ⊢
        have below : maxCaptureBytes < usizeMax := by decide
        omega
      refine ⟨enabled, ?_, ?_, fun _ => Nat.le_of_not_lt bytesFit,
        fun _ => Nat.lt_of_not_le itemsFit, fun index => ?_, ?_, ?_⟩
      · rw [completes]; rfl
      · rw [completes]; exact sum
      · rw [begun, Observation.completedIndex, completes]
        cases outputIndex with
        | none => simp
        | some outputIndex => simp [Std.ExtTreeSet.mem_erase, and_comm]
      · refine le_max_of_le_left ?_
        cases outputIndex with
        | none => exact le_rfl
        | some outputIndex => exact Std.ExtTreeSet.size_erase_le
      · rw [indexed, Bool.or_false]

theorem apply_step {observation : Observation}
    (stays : (capture.apply jsonLength observation).disabled = false) :
    Stepped jsonLength capture observation (capture.apply jsonLength observation) := by
  have enabled : capture.disabled = false := by
    by_contra disabled
    rw [apply_disabled (Bool.not_eq_false _ ▸ disabled)] at stays
    cases stays
  cases observation with
  | responseDelta index => exact observeResponseDelta_step stays
  | unmaterialized =>
      refine ⟨enabled, rfl, rfl, nofun, nofun, fun index => ?_, le_max_left _ _, ?_⟩
      · simp [Observation.begun, Observation.begins, Observation.completedIndex,
          Observation.completed, apply, markUnmaterialized]
      · simp [apply, markUnmaterialized, Observation.leavesUnindexed]
  | payload event =>
      rw [apply, observe, enabled, if_neg (by decide)] at stays ⊢
      by_cases done : eventType event = some "response.output_item.done"
      · rw [if_pos done] at stays ⊢
        cases item : outputItem event with
        | some item =>
            rw [item] at stays
            refine observeItem_step enabled ?_ ?_ ?_ stays
            · simp [Observation.completed, done, item]
            · simp [Observation.begun, Observation.begins, done]
            · simp [Observation.leavesUnindexed, done, item]
        | none =>
            refine ⟨enabled, ?_, ?_, ?_, ?_, fun index => ?_, le_max_left _ _, ?_⟩ <;>
              simp [Observation.completed, Observation.completedIndex, Observation.begun,
                Observation.begins, Observation.leavesUnindexed, done, item, markUnmaterialized]
      · rw [if_neg done] at stays ⊢
        cases begins : beginsOutput event (eventType event) with
        | true =>
            rw [begins, if_pos rfl] at stays
            rw [if_pos rfl]
            have step : Stepped jsonLength _ _ _ := observeResponseDelta_step stays
            refine ⟨enabled, ?_, ?_, ?_, ?_, fun index => (step.pending index).trans ?_,
              step.pendingBound, step.unindexed.trans ?_⟩
            · simpa [Observation.completed, done] using step.items
            · simpa [Observation.completed, done] using step.bytes
            · simp [Observation.completed, done]
            · simp [Observation.completed, done]
            · simp [Observation.begun, Observation.begins, Observation.index,
                Observation.completedIndex, Observation.completed, done, begins]
            · simp [Observation.leavesUnindexed, done, begins]
        | false =>
            refine ⟨enabled, ?_, ?_, ?_, ?_, fun index => ?_, le_max_left _ _, ?_⟩ <;>
              simp [Observation.completed, Observation.completedIndex, Observation.begun,
                Observation.begins, Observation.leavesUnindexed, done, begins]

end

/-! ### Retained items -/

section

variable {items : List (Option Nat × Json)}

/-- No two items have one index. -/
def IndexDistinct (items : List (Option Nat × Json)) : Prop := (items.filterMap (·.1)).Nodup

theorem replaceItem_spec (items : List (Option Nat × Json)) (outputIndex : Nat) (outputItem : Json) :
    match replaceItem items outputIndex outputItem with
    | none => outputIndex ∉ items.filterMap (·.1)
    | some replaced => replaced.map (·.1) = items.map (·.1) ∧
        outputIndex ∈ items.filterMap (·.1) ∧
        (IndexDistinct items → ∀ entry, entry ∈ replaced ↔
          entry = (some outputIndex, outputItem) ∨ entry ∈ items ∧ entry.1 ≠ some outputIndex) := by
  induction items with
  | nil => simp [replaceItem]
  | cons existing items ih =>
      obtain ⟨index, held⟩ := existing
      unfold replaceItem
      by_cases own : index = some outputIndex
      · subst own
        rw [if_pos rfl]
        refine ⟨rfl, by simp, fun distinct entry => ?_⟩
        have apart : ∀ entry ∈ items, entry.1 ≠ some outputIndex := by
          intro entry member same
          have distinct : (outputIndex :: items.filterMap (·.1)).Nodup := distinct
          exact (List.nodup_cons.mp distinct).1 (List.mem_filterMap.mpr ⟨entry, member, same⟩)
        constructor
        · intro member
          rcases List.mem_cons.mp member with same | member
          · exact .inl same
          · exact .inr ⟨List.mem_cons_of_mem _ member, apart entry member⟩
        · rintro (rfl | ⟨member, other⟩)
          · exact List.mem_cons_self
          · rcases List.mem_cons.mp member with rfl | member
            · exact absurd rfl other
            · exact List.mem_cons_of_mem _ member
      · rw [if_neg own]
        cases isReplaced : replaceItem items outputIndex outputItem with
        | none =>
            rw [isReplaced] at ih
            cases index with
            | none => exact ih
            | some index =>
                intro member
                rcases List.mem_cons.mp member with rfl | member
                · exact own rfl
                · exact ih member
        | some replaced =>
            rw [isReplaced] at ih
            obtain ⟨indices, present, members⟩ := ih
            refine ⟨congrArg (index :: ·) indices, ?_, fun distinct entry => ?_⟩
            · cases index with
              | none => exact present
              | some index => exact List.mem_cons_of_mem _ present
            · have distinct : IndexDistinct items := by
                cases index with
                | none => exact distinct
                | some index => exact (List.nodup_cons.mp distinct).2
              rw [List.mem_cons, members distinct]
              constructor
              · rintro (rfl | same | ⟨member, other⟩)
                · exact .inr ⟨List.mem_cons_self, own⟩
                · exact .inl same
                · exact .inr ⟨List.mem_cons_of_mem _ member, other⟩
              · rintro (same | ⟨member, other⟩)
                · exact .inr (.inl same)
                · rcases List.mem_cons.mp member with rfl | member
                  · exact .inl rfl
                  · exact .inr (.inr ⟨member, other⟩)

theorem recordItem_distinct (distinct : IndexDistinct items) (completed : Option Nat × Json) :
    IndexDistinct (recordItem items completed) := by
  obtain ⟨index, item⟩ := completed
  unfold IndexDistinct at *
  cases index with
  | none => simpa [recordItem] using distinct
  | some index =>
      have spec := replaceItem_spec items index item
      rw [recordItem]
      cases replaced : replaceItem items index item with
      | none =>
          rw [replaced] at spec
          rw [Option.getD_none, List.filterMap_append]
          exact List.nodup_append_comm.mp (List.nodup_cons.mpr ⟨spec, distinct⟩)
      | some after =>
          rw [replaced] at spec
          have same : ∀ entries : List (Option Nat × Json),
              entries.filterMap (·.1) = (entries.map (·.1)).filterMap id := by
            simp [List.filterMap_map]
          rw [Option.getD_some, same, spec.1, ← same]
          exact distinct

theorem mem_recordItem (distinct : IndexDistinct items) (completed entry : Option Nat × Json) :
    entry ∈ recordItem items completed ↔
      entry = completed ∨ entry ∈ items ∧ (completed.1 = none ∨ entry.1 ≠ completed.1) := by
  obtain ⟨index, item⟩ := completed
  cases index with
  | none => simp [recordItem, or_comm]
  | some index =>
      have spec := replaceItem_spec items index item
      rw [recordItem]
      cases replaced : replaceItem items index item with
      | none =>
          rw [replaced] at spec
          rw [Option.getD_none, List.mem_append, List.mem_singleton]
          constructor
          · rintro (member | same)
            · exact .inr ⟨member, .inr fun own => spec (List.mem_filterMap.mpr ⟨entry, member, own⟩)⟩
            · exact .inl same
          · rintro (same | ⟨member, _⟩)
            · exact .inr same
            · exact .inl member
      | some after =>
          rw [replaced] at spec
          simp [spec.2.2 distinct entry]

theorem recordItem_length (items : List (Option Nat × Json)) (completed : Option Nat × Json) :
    (recordItem items completed).length ≤ items.length + 1 := by
  obtain ⟨index, item⟩ := completed
  cases index with
  | none => simp [recordItem]
  | some index =>
      have spec := replaceItem_spec items index item
      rw [recordItem]
      cases replaced : replaceItem items index item with
      | none => simp
      | some after =>
          rw [replaced] at spec
          have length := congrArg List.length spec.1
          simp only [List.length_map] at length
          simp [length]

private theorem replaceItem_bytes (jsonLength : Json → Nat) (items : List (Option Nat × Json))
    (outputIndex : Nat) (outputItem : Json) :
    ∀ replaced ∈ replaceItem items outputIndex outputItem,
      (replaced.map (jsonLength ·.2)).sum ≤
        (items.map (jsonLength ·.2)).sum + jsonLength outputItem := by
  induction items with
  | nil => exact nofun
  | cons existing items ih =>
      intro replaced isReplaced
      unfold replaceItem at isReplaced
      split at isReplaced
      · cases isReplaced
        simp only [List.map_cons, List.sum_cons]
        omega
      · obtain ⟨rest, isRest, rfl⟩ := Option.map_eq_some_iff.mp isReplaced
        have bound := ih rest isRest
        simp only [List.map_cons, List.sum_cons]
        omega

theorem recordItem_bytes (jsonLength : Json → Nat) (items : List (Option Nat × Json))
    (completed : Option Nat × Json) :
    ((recordItem items completed).map (jsonLength ·.2)).sum ≤
      (items.map (jsonLength ·.2)).sum + jsonLength completed.2 := by
  obtain ⟨index, item⟩ := completed
  cases index with
  | none => simp [recordItem]
  | some index =>
      rw [recordItem]
      cases replaced : replaceItem items index item with
      | none => simp
      | some after => exact replaceItem_bytes jsonLength items index item after replaced

end

end NativeReplayCapture

end ZenithRelay.Gateway.Streaming
