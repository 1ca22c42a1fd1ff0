import ZenithRelay.Gateway.Streaming.ReplayRuns
import ZenithRelay.Protocol.ResponseSnapshotsProperties

/-!
# A replay has its complete history

What a finished replay holds, and when there is none.
-/

set_option autoImplicit false

namespace ZenithRelay.Gateway.Streaming

namespace NativeReplayCapture

/-! ### Finishing -/

/-- The output that the terminal response itself lists. -/
def terminalOutput (completedResponse : Option Json) : Option (List Json) :=
  ((completedResponse.getD (.object [])).get "output").bind (·.asArray)

section

variable {jsonLength : Json → Nat} {capture : NativeReplayCapture} {completedResponse : Option Json}
  {responseId : Option String} {response : Json}

private theorem withResponseId_spec {fields named : List (String × Json)}
    (hasId : withResponseId fields responseId = some named) :
    (∃ id, Json.field named "id" = some (.string id) ∧ Text.trim id ≠ "") ∧
      ∀ key, key ≠ "id" → Json.field named key = Json.field fields key := by
  unfold withResponseId at hasId
  split at hasId
  next own =>
    cases hasId
    obtain ⟨id, isId, filled⟩ := (Option.any_eq_true ..).mp own
    obtain ⟨value, isValue, isText⟩ := Option.bind_eq_some_iff.mp isId
    cases value with
    | string text =>
        cases isText
        exact ⟨⟨_, isValue, bne_iff_ne.mp filled⟩, fun _ _ => rfl⟩
    | _ => cases isText
  · obtain ⟨id, isId, rfl⟩ := Option.map_eq_some_iff.mp hasId
    have filled := (Option.filter_eq_some_iff.mp isId).2
    refine ⟨⟨id, ?_, bne_iff_ne.mp filled⟩, fun key other => ?_⟩
    · exact (Json.field_insert ..).trans (if_pos rfl)
    · exact (Json.field_insert ..).trans (if_neg other)

private theorem finish_spec (finished : capture.finish jsonLength completedResponse responseId = some response) :
    capture.disabled = false ∧ jsonLength response ≤ maxCaptureBytes ∧
      (∃ items, replayedOutput capture (terminalOutput completedResponse) = some items ∧
        response.get "output" = some (.array items)) ∧
      (∃ id, response.get "id" = some (.string id) ∧ Text.trim id ≠ "") ∧
      ∀ key, key ≠ "id" → key ≠ "output" →
        response.get key = (completedResponse.getD (.object [])).get key := by
  unfold finish at finished
  split at finished
  · cases finished
  next enabled =>
    obtain ⟨finished, fits⟩ := Option.filter_eq_some_iff.mp finished
    obtain ⟨fields, isObject, finished⟩ := Option.bind_eq_some_iff.mp finished
    obtain ⟨named, hasId, finished⟩ := Option.bind_eq_some_iff.mp finished
    obtain ⟨items, replayed, rfl⟩ := Option.map_eq_some_iff.mp finished
    obtain ⟨⟨id, isId, filled⟩, others⟩ := withResponseId_spec hasId
    have same : completedResponse.getD (.object []) = .object fields := by
      generalize completedResponse.getD (.object []) = terminal at isObject
      cases terminal with
      | object own =>
          cases isObject
          rfl
      | _ => cases isObject
    refine ⟨Bool.eq_false_iff.mpr enabled, of_decide_eq_true fits, ⟨items, ?_, ?_⟩,
      ⟨id, ?_, filled⟩, fun key notId notOutput => ?_⟩
    · have output : terminalOutput completedResponse =
          (Json.field named "output").bind (·.asArray) := by
        rw [terminalOutput, same, others "output" (by decide)]
        rfl
      rw [output]
      exact replayed
    · exact (Json.field_insert ..).trans (if_pos rfl)
    · exact ((Json.field_insert ..).trans (if_neg (by decide))).trans isId
    · rw [same]
      exact ((Json.field_insert ..).trans (if_neg notOutput)).trans (others key notId)

/-- Output that the terminal response does not list is taken from the captured items. -/
private theorem replayedOutput_sparse {output : Option (List Json)} (sparse : output.getD [] = [])
    {items : List Json} (replayed : replayedOutput capture output = some items) :
    capture.unindexedOutput = false ∧ capture.pending.isEmpty = true ∧
      items = (orderedItems capture.capturedItems).map (·.2) := by
  have rest : (if capture.unindexedOutput = true ∨ capture.pending.isEmpty = false then none
      else if capture.capturedItems.isEmpty = true ∧ output = none then none
      else some ((orderedItems capture.capturedItems).map (·.2))) = some items := by
    match output, sparse with
    | none, _ => exact replayed
    | some [], _ => exact replayed
  split at rest
  · cases rest
  next complete =>
    obtain ⟨indexed, done⟩ := not_or.mp complete
    split at rest
    · cases rest
    · exact ⟨Bool.eq_false_iff.mpr indexed, Bool.not_eq_false _ ▸ done,
        (Option.some.inj rest).symm⟩

private theorem replayedOutput_listed {item : Json} {items replayedItems : List Json}
    (replayed : replayedOutput capture (some (item :: items)) = some replayedItems) :
    Protocol.ResponseSnapshots.retainCompletedReasoningItems capture.capturedItems
      (item :: items) = .ok replayedItems := by
  cases retained : Protocol.ResponseSnapshots.retainCompletedReasoningItems capture.capturedItems
      (item :: items) with
  | error parameter =>
      rw [replayedOutput, retained] at replayed
      cases replayed
  | ok restored =>
      rw [replayedOutput, retained] at replayed
      exact congrArg Except.ok (Option.some.inj replayed)

private theorem orderedItems_perm (items : List (Option Nat × Json)) : (orderedItems items).Perm items := by
  unfold orderedItems
  split
  · exact List.mergeSort_perm _ _
  · exact List.Perm.refl _

end

open Protocol.ResponseSnapshots in
/-- A replay has its complete history: finished runs, bounds, and the latch. -/
theorem replay_complete (jsonLength : Json → Nat) (observations : List Observation) :
    (∀ completedResponse responseId response,
      (run jsonLength observations).finish jsonLength completedResponse responseId = some response →
      ((terminalOutput completedResponse).getD [] = [] →
        (∀ before observation after index, observations = before ++ observation :: after →
          observation.begun = some index → ∃ later ∈ after, later.completedIndex = some index) ∧
        (∀ observation ∈ observations, observation.leavesUnindexed = false) ∧
        (∃ items, response.get "output" = some (.array items) ∧
          ∀ item ∈ items, ∃ index, (index, item) ∈ completions observations) ∧
        ((∀ entry ∈ completions observations, entry.1.isSome = true) →
          ∃ ordered : List (Nat × Json),
            response.get "output" = some (.array (ordered.map (·.2))) ∧
            (ordered.map (·.1)).Pairwise (· < ·) ∧
            ∀ index item, (index, item) ∈ ordered ↔
              lastCompleted observations index = some item)) ∧
      (∀ item items, terminalOutput completedResponse = some (item :: items) →
        ∃ restored, response.get "output" = some (.array restored) ∧
          restored.length = (item :: items).length ∧
          ∀ place original, (item :: items)[place]? = some original →
            ∃ after, restored[place]? = some after ∧ Reciphered original after ∧
              match restoring (latest observations) (item :: items) place with
              | none => after = original
              | some entry => isReasoning original = true ∧
                  ciphertext after = ciphertext entry.2) ∧
      (∃ id, response.get "id" = some (.string id) ∧ Text.trim id ≠ "") ∧
      ∀ key, key ≠ "id" → key ≠ "output" →
        response.get key = (completedResponse.getD (.object [])).get key) ∧
    (Exceeded jsonLength observations →
      ∀ later completedResponse responseId, (run jsonLength (observations ++ later)).finish jsonLength
        completedResponse responseId = none) ∧
    (run jsonLength observations).pending.size ≤ maxCaptureItems ∧
    (run jsonLength observations).capturedItems.length ≤ maxCaptureItems ∧
    ((run jsonLength observations).capturedItems.map (jsonLength ·.2)).sum ≤ maxCaptureBytes := by
  refine ⟨fun completedResponse responseId response finished => ?_, fun exceeded later _ _ => ?_,
    run_pending observations, run_bounded observations⟩
  · obtain ⟨enabled, _, ⟨items, replayed, output⟩, hasId, others⟩ := finish_spec finished
    have known := tracks enabled
    refine ⟨fun sparse => ?_, fun item rest listed => ?_, hasId, others⟩
    · obtain ⟨indexed, done, rfl⟩ := replayedOutput_sparse sparse replayed
      rw [known.items] at output
      refine ⟨fun before observation after index split begins => ?_, ?_, ⟨_, output, ?_⟩, ?_⟩
      · by_contra unmatched
        have unfinished : Unfinished observations index := by
          refine ⟨before, observation, after, split, begins, fun later member completes => ?_⟩
          exact unmatched ⟨later, member, completes⟩
        have isPending := (known.pending index).mpr unfinished
        rw [Std.ExtTreeSet.isEmpty_iff.mp done] at isPending
        exact Std.ExtTreeSet.not_mem_empty isPending
      · rw [known.unindexed] at indexed
        exact fun observation member =>
          Bool.eq_false_iff.mpr (List.any_eq_false.mp indexed observation member)
      · intro item member
        obtain ⟨entry, isEntry, rfl⟩ := List.mem_map.mp member
        exact ⟨entry.1, mem_completions_of_latest ((orderedItems_perm _).mem_iff.mp isEntry)⟩
      · intro allIndexed
        obtain ⟨ordered, same, ascending, members⟩ := orderedItems_indexed
          (latest_distinct observations) fun entry member =>
            allIndexed entry (mem_completions_of_latest member)
        exact ⟨ordered, same ▸ output, ascending, fun index item =>
          (members index item).trans mem_latest⟩
    · rw [listed] at replayed
      have retained := replayedOutput_listed replayed
      rw [known.items] at retained
      obtain ⟨length, kept⟩ := retainCompletedReasoningItems_spec retained
      exact ⟨items, output, length, kept⟩
  · rw [finish, if_pos (run_disabled (run_exceeded exceeded) later)]

end NativeReplayCapture

end ZenithRelay.Gateway.Streaming
