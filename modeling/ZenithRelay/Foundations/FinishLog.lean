import ZenithRelay.Foundations.BTreeMap

/-!
# Finish logs

A log mentions keys, and a mention may finish its key with a reason. In a settled
log no key is mentioned after its finish, so the last mention of a key tells
whether it finished.
-/

set_option autoImplicit false

namespace ZenithRelay

variable {Key Reason : Type}

/-- No mention of a key follows its finish. -/
def Settled (log : List (Key × Option Reason)) : Prop :=
  ∀ before key mention after, log = before ++ (key, mention) :: after →
    ∀ reason, (key, some reason) ∉ before

private theorem settled_nil : Settled ([] : List (Key × Option Reason)) := by
  intro before key mention after whole
  simp at whole

theorem settled_snoc {log : List (Key × Option Reason)} {key : Key} {mention : Option Reason} :
    Settled (log ++ [(key, mention)]) ↔ Settled log ∧ ∀ reason, (key, some reason) ∉ log := by
  constructor
  · intro settled
    refine ⟨fun before other given after whole => ?_, settled log key mention [] rfl⟩
    exact settled before other given (after ++ [(key, mention)]) (by simp [whole])
  · rintro ⟨earlier, fresh⟩ before other given after whole
    rcases List.eq_nil_or_concat after with rfl | ⟨front, last, rfl⟩
    · obtain ⟨rfl, rfl, rfl⟩ : log = before ∧ key = other ∧ mention = given := by
        simpa using whole
      exact fresh
    · rw [List.concat_eq_append, ← List.cons_append, ← List.append_assoc] at whole
      exact earlier before other given front (List.append_inj_left' whole rfl)

/-- A key of a settled log finishes once at most. -/
theorem Settled.finishes_once [DecidableEq Key] {log : List (Key × Option Reason)}
    (settled : Settled log) (key : Key) :
    log.countP (fun mention => mention.1 = key ∧ mention.2.isSome) ≤ 1 := by
  induction log using List.reverseRecOn with
  | nil => simp
  | append_singleton log last ih =>
    obtain ⟨other, mention⟩ := last
    obtain ⟨earlier, fresh⟩ := settled_snoc.mp settled
    have before := ih earlier
    rw [List.countP_append]
    by_cases finishes : other = key ∧ mention.isSome
    · obtain ⟨rfl, given⟩ := finishes
      have none_ : log.countP (fun mention => mention.1 = other ∧ mention.2.isSome) = 0 := by
        rw [List.countP_eq_zero]
        rintro ⟨name, reason⟩ member finished
        obtain ⟨rfl, some_⟩ : name = other ∧ reason.isSome := by simpa using finished
        obtain ⟨reason, rfl⟩ := Option.isSome_iff_exists.mp some_
        exact fresh reason member
      rw [none_]
      simp [given]
    · have last : [(other, mention)].countP
          (fun mention => mention.1 = key ∧ mention.2.isSome) = 0 := by
        simpa using finishes
      omega

/-- `Tracks log map`: the map holds of every key the reason of its last mention. -/
structure Tracks [Ord Key] [Std.TransOrd Key] (log : List (Key × Option Reason))
    (map : BTreeMap Key (Option Reason)) : Prop where
  settled : Settled log
  mentioned : ∀ key, map[key]? = none ↔ ∀ mention, (key, mention) ∉ log
  finished : ∀ key reason, map[key]? = some (some reason) ↔ (key, some reason) ∈ log

namespace Tracks

variable [Ord Key] [Std.TransOrd Key] {log : List (Key × Option Reason)}
  {map : BTreeMap Key (Option Reason)}

theorem nil : Tracks ([] : List (Key × Option Reason)) (∅ : BTreeMap Key (Option Reason)) where
  settled := settled_nil
  mentioned := by simp
  finished := by simp

theorem unfinished_iff (tracks : Tracks log map) (key : Key) :
    map[key]?.getD none = none ↔ ∀ reason, (key, some reason) ∉ log := by
  have finished := tracks.finished key
  cases found : map[key]? with
  | none =>
    refine iff_of_true rfl fun reason member => ?_
    simpa [found] using (finished reason).mpr member
  | some mention =>
    cases mention with
    | none =>
      refine iff_of_true rfl fun reason member => ?_
      simpa [found] using (finished reason).mpr member
    | some reason =>
      refine iff_of_false (by simp) fun fresh => ?_
      exact fresh reason ((finished reason).mp found)

/-- A mention of an unfinished key is recorded. -/
theorem snoc [Std.LawfulEqOrd Key] (tracks : Tracks log map) {key : Key}
    (unfinished : map[key]?.getD none = none) (mention : Option Reason) :
    Tracks (log ++ [(key, mention)]) (map.insert key mention) where
  settled := settled_snoc.mpr ⟨tracks.settled, (tracks.unfinished_iff key).mp unfinished⟩
  mentioned other := by
    by_cases same : other = key
    · subst same
      simpa using ⟨mention, fun _ => rfl⟩
    · simpa [same, Std.ExtTreeMap.getElem?_insert, Ne.symm same] using tracks.mentioned other
  finished other reason := by
    by_cases same : other = key
    · subst same
      have fresh := (tracks.unfinished_iff other).mp unfinished reason
      simp [fresh, eq_comm]
    · simpa [same, Std.ExtTreeMap.getElem?_insert, Ne.symm same] using tracks.finished other reason

/-- Every mentioned key finished exactly when the map holds a reason for each. -/
theorem all_finished_iff [Std.LawfulEqOrd Key] (tracks : Tracks log map) :
    (∀ mention ∈ map.values, mention.isSome) ↔
      ∀ key mention, (key, mention) ∈ log → ∃ reason, (key, some reason) ∈ log := by
  constructor
  · intro all key mention member
    cases found : map[key]? with
    | none => exact absurd member ((tracks.mentioned key).mp found mention)
    | some held =>
      have some_ := all held (BTreeMap.mem_values_iff.mpr ⟨key, found⟩)
      obtain ⟨reason, rfl⟩ := Option.isSome_iff_exists.mp some_
      exact ⟨reason, (tracks.finished key reason).mp found⟩
  · intro all held member
    obtain ⟨key, found⟩ := BTreeMap.mem_values_iff.mp member
    by_contra notFinished
    have open_ : held = none := by simpa using notFinished
    subst open_
    have seen : ¬∀ mention, (key, mention) ∉ log := by
      rw [← tracks.mentioned key, found]
      simp
    obtain ⟨mention, member⟩ : ∃ mention, (key, mention) ∈ log := by simpa using seen
    obtain ⟨reason, finish⟩ := all key mention member
    simpa [found] using (tracks.finished key reason).mpr finish

theorem isEmpty_iff [Std.LawfulEqOrd Key] (tracks : Tracks log map) :
    map.isEmpty = true ↔ log = [] := by
  rw [Std.ExtTreeMap.isEmpty_iff]
  constructor
  · rintro rfl
    rw [List.eq_nil_iff_forall_not_mem]
    rintro ⟨key, mention⟩
    exact (tracks.mentioned key).mp (by simp) mention
  · rintro rfl
    apply Std.ExtTreeMap.ext_getElem?
    intro key
    simpa using (tracks.mentioned key).mpr (by simp)

end Tracks

end ZenithRelay
