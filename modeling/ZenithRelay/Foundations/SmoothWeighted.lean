import Mathlib

/-!
# Smooth weighted selection

Every round adds each member's weight to its credit, picks a member of largest
credit and charges it the total weight. The credit after a list of picks is a
closed form of the picks, so the fairness laws are statements about lists.
-/

set_option autoImplicit false

namespace ZenithRelay.SmoothWeighted

variable {ι : Type} [DecidableEq ι] (members : Finset ι) (weight : ι → ℤ)

def total : ℤ := ∑ member ∈ members, weight member

/-- Credit of a member after `picks`, starting from zero credit. -/
def creditAfter (picks : List ι) (member : ι) : ℤ :=
  picks.length * weight member - total members weight * picks.count member

@[simp] theorem creditAfter_nil (member : ι) : creditAfter members weight [] member = 0 := by
  simp [creditAfter]

/-- One round: everyone earns its weight, the picked member pays the total. -/
theorem creditAfter_snoc (picks : List ι) (picked member : ι) :
    creditAfter members weight (picks ++ [picked]) member =
      creditAfter members weight picks member + weight member -
        if member = picked then total members weight else 0 := by
  by_cases same : member = picked
  · subst same
    simp [creditAfter]
    ring
  · have different : picked ≠ member := Ne.symm same
    simp [creditAfter, same, different]
    ring

/-- A member whose credit, with this round's weight added, is the largest. -/
structure IsPick (credit : ι → ℤ) (picked : ι) : Prop where
  mem : picked ∈ members
  largest : ∀ member ∈ members, credit member + weight member ≤ credit picked + weight picked

/-- Lists of picks that choose a largest credit in every round. -/
inductive Schedule : List ι → Prop where
  | nil : Schedule []
  | snoc {picks : List ι} {picked : ι} :
      Schedule picks → IsPick members weight (creditAfter members weight picks) picked →
      Schedule (picks ++ [picked])

variable {members weight}

theorem Schedule.mem {picks : List ι} (schedule : Schedule members weight picks) :
    ∀ picked ∈ picks, picked ∈ members := by
  induction schedule with
  | nil => simp
  | snoc _ pick ih =>
    intro picked member
    rcases List.mem_append.mp member with earlier | last
    · exact ih picked earlier
    · obtain rfl : picked = _ := by simpa using last
      exact pick.mem

/-- Credit moves between members and is never created. -/
theorem Schedule.credit_sum {picks : List ι} (schedule : Schedule members weight picks) :
    ∑ member ∈ members, creditAfter members weight picks member = 0 := by
  induction schedule with
  | nil => simp
  | @snoc picks picked _ pick ih =>
    simp only [creditAfter_snoc, Finset.sum_sub_distrib, Finset.sum_add_distrib, ih]
    rw [Finset.sum_ite_eq' members picked fun _ => total members weight, if_pos pick.mem]
    simp [total]

omit [DecidableEq ι] in
/-- The pick has at least the average, hence a positive, credit before it pays. -/
theorem IsPick.positive {credit : ι → ℤ} {picked : ι} (pick : IsPick members weight credit picked)
    (sum : ∑ member ∈ members, credit member = 0) (positive : ∀ member ∈ members, 0 < weight member) :
    0 < credit picked + weight picked := by
  by_contra negative
  have bounded : ∀ member ∈ members, credit member + weight member ≤ 0 := fun member inside =>
    (pick.largest member inside).trans (not_lt.mp negative)
  have nonpositive := Finset.sum_nonpos bounded
  rw [Finset.sum_add_distrib, sum, zero_add] at nonpositive
  exact absurd (Finset.sum_pos positive ⟨picked, pick.mem⟩) (not_lt.mpr nonpositive)

theorem Schedule.neg_total_lt {picks : List ι} (schedule : Schedule members weight picks)
    (positive : ∀ member ∈ members, 0 < weight member) :
    ∀ member ∈ members, -total members weight < creditAfter members weight picks member := by
  induction schedule with
  | nil =>
    intro member inside
    have sum : 0 < total members weight := Finset.sum_pos positive ⟨member, inside⟩
    simpa using sum
  | @snoc picks picked previous pick ih =>
    intro member inside
    rw [creditAfter_snoc]
    by_cases same : member = picked
    · subst same
      have earned := pick.positive previous.credit_sum positive
      rw [if_pos rfl]
      linarith
    · have earned := positive member inside
      rw [if_neg same]
      linarith [ih member inside]

/-- After any whole number of rounds every credit is back at zero, since a
multiple of the total above its negative is not negative and all sum to zero. -/
theorem Schedule.credit_block {picks : List ι} (schedule : Schedule members weight picks)
    (positive : ∀ member ∈ members, 0 < weight member) {blocks : ℕ}
    (length : (picks.length : ℤ) = blocks * total members weight) :
    ∀ member ∈ members, creditAfter members weight picks member = 0 := by
  have nonnegative : ∀ member ∈ members, 0 ≤ creditAfter members weight picks member := by
    intro member inside
    have sum : 0 < total members weight := Finset.sum_pos positive ⟨member, inside⟩
    have shape : creditAfter members weight picks member =
        total members weight * (blocks * weight member - picks.count member) := by
      rw [creditAfter, length]
      ring
    have above := schedule.neg_total_lt positive member inside
    rw [shape] at above ⊢
    have share : -1 < (blocks * weight member - picks.count member : ℤ) := by
      by_contra low
      have scaled := mul_le_mul_of_nonneg_left (not_lt.mp low) sum.le
      linarith
    exact mul_nonneg sum.le (by omega)
  exact (Finset.sum_eq_zero_iff_of_nonneg nonnegative).mp schedule.credit_sum

section Harmonic

/-- Largest possible credit of a group of `size` members among `count`. -/
private def groupBound (count size : ℕ) : ℚ := size * (harmonic count - harmonic size)

private theorem groupBound_step (count size : ℕ) :
    groupBound count size * (size + 1) = size * (groupBound count (size + 1) + 1) := by
  have nonzero : (size + 1 : ℚ) ≠ 0 := by positivity
  simp only [groupBound, harmonic_succ]
  push_cast
  field_simp
  ring

/-- The members of any group together never hold more than the harmonic share
of the total weight. The pick leads the group it is added to, so a group that
the pick is not in holds at most the average of the larger one. -/
private theorem Schedule.group_credit_le {picks : List ι}
    (schedule : Schedule members weight picks)
    (positive : ∀ member ∈ members, 0 < weight member) :
    ∀ group ⊆ members, ((∑ member ∈ group, creditAfter members weight picks member : ℤ) : ℚ) ≤
      total members weight * groupBound members.card group.card := by
  have sumOfGroup : ∀ group ⊆ members, (∑ member ∈ group, weight member) ≤ total members weight :=
    fun group inside => Finset.sum_le_sum_of_subset_of_nonneg inside
      fun member outside _ => (positive member outside).le
  induction schedule with
  | nil =>
    intro group inside
    have grows : harmonic group.card ≤ harmonic members.card := by
      have sizes := Finset.card_le_card inside
      exact Finset.sum_le_sum_of_subset_of_nonneg (Finset.range_subset_range.mpr sizes)
        fun index _ _ => inv_nonneg.mpr (Nat.cast_nonneg _)
    have bound : 0 ≤ groupBound members.card group.card :=
      mul_nonneg (Nat.cast_nonneg _) (sub_nonneg.mpr grows)
    have sum : (0 : ℚ) ≤ total members weight := by
      exact_mod_cast Finset.sum_nonneg fun member inside => (positive member inside).le
    simpa using mul_nonneg sum bound
  | @snoc picks picked previous pick ih =>
    intro group inside
    have unpaid : (∑ member ∈ group, creditAfter members weight (picks ++ [picked]) member) =
        (∑ member ∈ group, creditAfter members weight picks member) +
          (∑ member ∈ group, weight member) -
            if picked ∈ group then total members weight else 0 := by
      simp only [creditAfter_snoc, Finset.sum_sub_distrib, Finset.sum_add_distrib]
      rw [Finset.sum_ite_eq' group picked fun _ => total members weight]
    rw [unpaid]
    by_cases chosen : picked ∈ group
    · have before := ih group inside
      have weights : ((∑ member ∈ group, weight member : ℤ) : ℚ) ≤ total members weight := by
        exact_mod_cast sumOfGroup group inside
      rw [if_pos chosen]
      push_cast at before weights ⊢
      linarith
    · have larger : insert picked group ⊆ members := Finset.insert_subset pick.mem inside
      have before := ih (insert picked group) larger
      have weights : ((∑ member ∈ insert picked group, weight member : ℤ) : ℚ) ≤
          total members weight := by
        exact_mod_cast sumOfGroup _ larger
      have leads : (∑ member ∈ group, (creditAfter members weight picks member + weight member)) ≤
          group.card * (creditAfter members weight picks picked + weight picked) := by
        have each := Finset.sum_le_card_nsmul group
          (fun member => creditAfter members weight picks member + weight member)
          (creditAfter members weight picks picked + weight picked)
          fun member within => pick.largest member (inside within)
        simpa using each
      rw [Finset.card_insert_of_notMem chosen, Finset.sum_insert chosen] at before
      rw [Finset.sum_insert chosen] at weights
      rw [Finset.sum_add_distrib] at leads
      rw [if_neg chosen, sub_zero]
      have leadsRat : ((∑ member ∈ group, creditAfter members weight picks member : ℤ) : ℚ) +
          ((∑ member ∈ group, weight member : ℤ) : ℚ) ≤
          group.card * ((creditAfter members weight picks picked : ℚ) + (weight picked : ℚ)) := by
        exact_mod_cast leads
      have step := groupBound_step members.card group.card
      have size : (0 : ℚ) < group.card + 1 := by positivity
      push_cast at before weights leadsRat ⊢
      have scaled : (total members weight : ℚ) * (groupBound members.card group.card *
          (group.card + 1)) = total members weight * (group.card *
            (groupBound members.card (group.card + 1) + 1)) := by rw [step]
      have grouped : (group.card : ℚ) * ((creditAfter members weight picks picked : ℚ) +
          ∑ member ∈ group, (creditAfter members weight picks member : ℚ) +
          ((weight picked : ℚ) + ∑ member ∈ group, (weight member : ℚ))) ≤
          group.card * (total members weight * groupBound members.card (group.card + 1) +
            total members weight) :=
        mul_le_mul_of_nonneg_left (by linarith) (Nat.cast_nonneg _)
      have final : ((∑ member ∈ group, (creditAfter members weight picks member : ℚ)) +
          ∑ member ∈ group, (weight member : ℚ)) * (group.card + 1) ≤
          total members weight * groupBound members.card group.card * (group.card + 1) := by
        nlinarith [leadsRat, grouped, scaled]
      exact le_of_mul_le_mul_right final size

/-- No member ever holds more than the harmonic excess of the total weight. -/
theorem Schedule.credit_le_harmonic {picks : List ι} (schedule : Schedule members weight picks)
    (positive : ∀ member ∈ members, 0 < weight member) {member : ι} (inside : member ∈ members) :
    (creditAfter members weight picks member : ℚ) ≤
      total members weight * (harmonic members.card - 1) := by
  have bound := schedule.group_credit_le positive {member} (Finset.singleton_subset_iff.mpr inside)
  simpa [groupBound] using bound

end Harmonic

section Deterministic

variable (members weight) (choose : (ι → ℤ) → Option ι)

/-- Lists of picks that a fixed choice makes from the credit alone. -/
inductive Follows : List ι → Prop where
  | nil : Follows []
  | snoc {picks : List ι} {picked : ι} :
      Follows picks → choose (creditAfter members weight picks) = some picked →
      Follows (picks ++ [picked])

variable {members weight choose}

theorem Follows.snoc_inv {picks : List ι} {picked : ι}
    (follows : Follows members weight choose (picks ++ [picked])) :
    Follows members weight choose picks ∧
      choose (creditAfter members weight picks) = some picked := by
  generalize shape : picks ++ [picked] = all at follows
  cases follows with
  | nil => simp at shape
  | snoc earlier chosen =>
    obtain ⟨rfl, rfl⟩ : picks = _ ∧ picked = _ := by
      simpa using List.append_inj' shape rfl
    exact ⟨earlier, chosen⟩

theorem Follows.of_append {picks later : List ι}
    (follows : Follows members weight choose (picks ++ later)) :
    Follows members weight choose picks := by
  induction later using List.reverseRecOn with
  | nil => simpa using follows
  | append_singleton later last ih =>
    rw [← List.append_assoc] at follows
    exact ih follows.snoc_inv.1

theorem Follows.schedule {picks : List ι} (follows : Follows members weight choose picks)
    (pick : ∀ credit picked, choose credit = some picked → IsPick members weight credit picked) :
    Schedule members weight picks := by
  induction follows with
  | nil => exact .nil
  | snoc _ chosen ih => exact .snoc ih (pick _ _ chosen)

/-- Equally long lists made by the same choice are equal. -/
theorem Follows.unique {left right : List ι} (leftFollows : Follows members weight choose left)
    (rightFollows : Follows members weight choose right) (length : left.length = right.length) :
    left = right := by
  induction leftFollows generalizing right with
  | nil => exact (List.length_eq_zero_iff.mp length.symm).symm
  | snoc _ chosen ih =>
    cases rightFollows with
    | nil => simp at length
    | snoc earlier chosenRight =>
      obtain rfl := ih earlier (by simpa using length)
      rw [chosen] at chosenRight
      cases chosenRight
      rfl

variable (positive : ∀ member ∈ members, 0 < weight member)
  (pick : ∀ credit picked, choose credit = some picked → IsPick members weight credit picked)
  (reads : ∀ left right, (∀ member ∈ members, left member = right member) →
    choose left = choose right)

include positive pick reads

/-- The choice repeats itself after every total weight of rounds: sliding the
window by one pick drops and adds the same member. -/
private theorem Follows.credit_window {before window : List ι}
    (follows : Follows members weight choose (before ++ window))
    (length : (window.length : ℤ) = total members weight) :
    ∀ member ∈ members, creditAfter members weight (before ++ window) member =
      creditAfter members weight before member := by
  induction before using List.reverseRecOn generalizing window with
  | nil =>
    intro member inside
    rw [creditAfter_nil]
    have block : (([] ++ window).length : ℤ) = (1 : ℕ) * total members weight := by
      simpa using length
    exact (follows.schedule pick).credit_block positive block member inside
  | append_singleton before dropped ih =>
    rcases List.eq_nil_or_concat' window with rfl | ⟨kept, added, rfl⟩
    · simp
    · rw [← List.append_assoc] at follows ⊢
      obtain ⟨earlier, chosen⟩ := follows.snoc_inv
      rw [List.append_assoc] at earlier
      have same := ih (show Follows members weight choose (before ++ (dropped :: kept)) by
        simpa using earlier) (by simpa [add_comm] using length)
      have start : Follows members weight choose (before ++ [dropped]) := by
        have split : Follows members weight choose ((before ++ [dropped]) ++ kept) := by
          simpa using earlier
        exact split.of_append
      have equal : added = dropped := by
        rw [List.append_assoc, List.singleton_append, reads _ _ same, start.snoc_inv.2] at chosen
        exact (Option.some.inj chosen).symm
      intro member inside
      rw [creditAfter_snoc, creditAfter_snoc, equal, List.append_assoc, List.singleton_append,
        same member inside]

/-- Every window of total weight many picks contains each member exactly as
often as its weight says, wherever the window starts. -/
theorem Follows.count_window {before window : List ι}
    (follows : Follows members weight choose (before ++ window))
    (length : (window.length : ℤ) = total members weight) {member : ι} (inside : member ∈ members) :
    (window.count member : ℤ) = weight member := by
  have sum : total members weight ≠ 0 := (Finset.sum_pos positive ⟨member, inside⟩).ne'
  have same := follows.credit_window positive pick reads length member inside
  simp only [creditAfter, List.length_append, List.count_append] at same
  push_cast at same
  rw [length] at same
  apply mul_left_cancel₀ sum
  linarith

end Deterministic

end ZenithRelay.SmoothWeighted
