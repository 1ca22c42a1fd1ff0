import Mathlib

/-!
# The first entries of a stable sort by bounded insertion

Items are inserted one by one into a sorted list that is cut to a limit. What is kept is
the start of the stably sorted list of all items.
-/

set_option autoImplicit false

namespace ZenithRelay.BoundedInsertion

variable {Item : Type} {before : Item → Item → Bool}

/-- `slice::partition_point` where all items that pass the test come first. -/
def partitionPoint (test : Item → Bool) (items : List Item) : Nat :=
  (items.takeWhile test).length

/-- Inserts after the items that are not greater; drops the last of a full list. -/
def insertBounded (before : Item → Item → Bool) (limit : Nat) (kept : List Item) (item : Item) :
    List Item :=
  let position := partitionPoint (before · item) kept
  if position < limit then
    (if kept.length = limit then kept.dropLast else kept).insertIdx position item
  else kept

/-- Inserts after the items that are not greater. -/
def insertAfter (before : Item → Item → Bool) (sorted : List Item) (item : Item) : List Item :=
  sorted.takeWhile (before · item) ++ item :: sorted.dropWhile (before · item)

private theorem insertAfter_perm (sorted : List Item) (item : Item) :
    (insertAfter before sorted item).Perm (sorted ++ [item]) := by
  refine List.perm_middle.trans ?_
  rw [List.takeWhile_append_dropWhile]
  exact (List.perm_append_singleton item sorted).symm

/-- The test that is searched for divides a sorted list. -/
theorem dropWhile_greater (trans : ∀ first second third, before first second = true →
      before second third = true → before first third = true) {sorted : List Item}
    (ordered : sorted.Pairwise fun left right => before left right = true) (item : Item) :
    ∀ other ∈ sorted.dropWhile (before · item), before other item = false := by
  induction sorted with
  | nil => simp
  | cons first rest ih =>
    obtain ⟨least, rest_ordered⟩ := List.pairwise_cons.mp ordered
    by_cases smaller : before first item = true
    · rw [List.dropWhile_cons_of_pos (p := fun other => before other item) smaller]
      exact ih rest_ordered
    · rw [List.dropWhile_cons_of_neg (p := fun other => before other item) smaller]
      intro other member
      rcases List.mem_cons.mp member with rfl | later
      · exact Bool.eq_false_of_not_eq_true smaller
      · exact Bool.eq_false_of_not_eq_true fun holds =>
          smaller (trans _ _ _ (least other later) holds)

/-- Two sorted lists of the same items with equal items in the same order. -/
private theorem eq_of_sorted {first second : List Item}
    (firstOrdered : first.Pairwise fun left right => before left right = true)
    (secondOrdered : second.Pairwise fun left right => before left right = true)
    (perm : first.Perm second) (refl : ∀ item, before item item = true)
    (stable : ∀ item, first.filter (fun other => before other item && before item other) =
      second.filter fun other => before other item && before item other) :
    first = second := by
  induction first generalizing second with
  | nil => exact perm.nil_eq
  | cons item rest ih =>
    cases second with
    | nil => exact absurd perm.length_eq (by simp)
    | cons other others =>
      obtain ⟨least, restOrdered⟩ := List.pairwise_cons.mp firstOrdered
      obtain ⟨otherLeast, othersOrdered⟩ := List.pairwise_cons.mp secondOrdered
      have equal : before item other = true ∧ before other item = true := by
        constructor
        · rcases List.mem_cons.mp (perm.mem_iff.mpr (List.mem_cons_self ..)) with rfl | member
          · exact refl _
          · exact least _ member
        · rcases List.mem_cons.mp (perm.mem_iff.mp (List.mem_cons_self ..)) with rfl | member
          · exact refl _
          · exact otherLeast _ member
      have heads := stable item
      rw [List.filter_cons_of_pos (by simp [refl]), List.filter_cons_of_pos (by simp [equal])]
        at heads
      obtain ⟨rfl, _⟩ := List.cons.inj heads
      congr 1
      refine ih restOrdered othersOrdered (List.perm_cons item |>.mp perm) fun middle => ?_
      have whole := stable middle
      rw [List.filter_cons, List.filter_cons] at whole
      split at whole
      · exact (List.cons.inj whole).2
      · exact whole

section

variable (trans : ∀ first second third, before first second = true →
    before second third = true → before first third = true)
  (total : ∀ first second, (before first second || before second first) = true)

include trans total

theorem filter_mergeSort (items : List Item) (item : Item) :
    (items.mergeSort before).filter (fun other => before other item && before item other) =
      items.filter fun other => before other item && before item other := by
  have alike : (items.filter fun other => before other item && before item other).Pairwise
      fun left right => before left right = true := by
    refine List.Pairwise.imp_of_mem (fun left right _ => ?_)
      (List.pairwise_of_forall (R := fun _ _ => True) fun _ _ => trivial)
    have leftEqual := (Bool.and_eq_true_iff.mp (List.mem_filter.mp left).2).1
    have rightEqual := (Bool.and_eq_true_iff.mp (List.mem_filter.mp right).2).2
    exact trans _ _ _ leftEqual rightEqual
  have inside := (List.sublist_mergeSort trans total alike List.filter_sublist).filter
    fun other => before other item && before item other
  rw [List.filter_filter] at inside
  simp only [Bool.and_self] at inside
  exact (inside.eq_of_length
    ((List.mergeSort_perm items before).filter _).length_eq.symm).symm

private theorem pairwise_insertAfter {sorted : List Item}
    (ordered : sorted.Pairwise fun left right => before left right = true) (item : Item) :
    (insertAfter before sorted item).Pairwise fun left right => before left right = true := by
  have greater := dropWhile_greater trans ordered item
  have smaller : ∀ other ∈ sorted.takeWhile (before · item), before other item = true :=
    fun other member => List.mem_takeWhile_imp (p := fun other => before other item) member
  have later : ∀ other ∈ sorted.dropWhile (before · item), before item other = true := by
    intro other member
    have either := total item other
    rwa [greater other member, Bool.or_false] at either
  rw [insertAfter, List.pairwise_append]
  refine ⟨ordered.sublist (List.takeWhile_sublist _), ?_, fun first member other inserted => ?_⟩
  · exact List.pairwise_cons.mpr ⟨later, ordered.sublist (List.dropWhile_sublist _)⟩
  · rcases List.mem_cons.mp inserted with rfl | behind
    · exact smaller first member
    · exact trans _ _ _ (smaller first member) (later other behind)

private theorem mergeSort_concat (items : List Item) (item : Item) :
    (items ++ [item]).mergeSort before = insertAfter before (items.mergeSort before) item := by
  have refl (other : Item) : before other other = true := by
    simpa using total other other
  have ordered := List.pairwise_mergeSort trans total items
  refine eq_of_sorted (List.pairwise_mergeSort trans total _)
    (pairwise_insertAfter trans total ordered item)
    ((List.mergeSort_perm _ _).trans (((List.mergeSort_perm items before).symm.append_right _).trans
      (insertAfter_perm _ _).symm)) refl fun middle => ?_
  rw [filter_mergeSort trans total, List.filter_append, ← filter_mergeSort trans total items,
    insertAfter, List.filter_append, List.filter_cons, List.filter_cons, List.filter_nil]
  generalize items.mergeSort before = sorted at ordered
  have whole := congrArg
    (List.filter fun other => before other middle && before middle other)
    (List.takeWhile_append_dropWhile (p := fun other => before other item) (l := sorted))
  rw [List.filter_append] at whole
  split
  next equal =>
    -- What is greater than the item is not equal to what the item is equal to.
    have none : (sorted.dropWhile fun other => before other item).filter
        (fun other => before other middle && before middle other) = [] := by
      refine List.filter_eq_nil_iff.mpr fun other member alike => ?_
      have greater := dropWhile_greater trans ordered item other member
      rw [trans _ _ _ (Bool.and_eq_true_iff.mp alike).1 (Bool.and_eq_true_iff.mp equal).2] at greater
      cases greater
    rw [none, List.append_nil] at whole
    rw [none, whole]
  next => rw [← whole, List.append_nil]

end

private theorem partitionPoint_take (test : Item → Bool) (items : List Item) (limit : Nat) :
    partitionPoint test (items.take limit) = min limit (partitionPoint test items) := by
  rw [partitionPoint, partitionPoint, ← List.take_takeWhile, List.length_take]

private theorem insertAfter_eq (sorted : List Item) (item : Item) :
    insertAfter before sorted item =
      sorted.insertIdx (partitionPoint (before · item) sorted) item := by
  induction sorted with
  | nil => rfl
  | cons first rest ih =>
    by_cases smaller : before first item = true
    · rw [insertAfter, partitionPoint,
        List.takeWhile_cons_of_pos (p := fun other => before other item) smaller,
        List.dropWhile_cons_of_pos (p := fun other => before other item) smaller]
      exact congrArg (first :: ·) ih
    · rw [insertAfter, partitionPoint,
        List.takeWhile_cons_of_neg (p := fun other => before other item) smaller,
        List.dropWhile_cons_of_neg (p := fun other => before other item) smaller]
      rfl

private theorem take_insertIdx {items : List Item} {limit position : Nat} (inside : position < limit)
    (item : Item) : (items.insertIdx position item).take limit =
      (items.take (limit - 1)).insertIdx position item := by
  induction position generalizing items limit with
  | zero =>
    obtain ⟨limit, rfl⟩ : ∃ less, limit = less + 1 := ⟨limit - 1, by omega⟩
    rfl
  | succ position ih =>
    obtain ⟨limit, rfl⟩ : ∃ less, limit = less + 2 := ⟨limit - 2, by omega⟩
    cases items with
    | nil => rfl
    | cons first rest => exact congrArg (first :: ·) (ih (by omega))

private theorem take_insertIdx_after {items : List Item} {limit position : Nat} (after : limit ≤ position)
    (item : Item) : (items.insertIdx position item).take limit = items.take limit := by
  induction position generalizing items limit with
  | zero =>
    obtain rfl := Nat.le_zero.mp after
    rfl
  | succ position ih =>
    cases limit with
    | zero => rfl
    | succ limit =>
      cases items with
      | nil => rfl
      | cons first rest => exact congrArg (first :: ·) (ih (Nat.le_of_succ_le_succ after))

/-- Inserting into the start of a list is the start of inserting. -/
private theorem insertBounded_take (sorted : List Item) (limit : Nat) (item : Item) :
    insertBounded before limit (sorted.take limit) item =
      (insertAfter before sorted item).take limit := by
  rw [insertAfter_eq, insertBounded, partitionPoint_take]
  split
  next inside =>
    have position : min limit (partitionPoint (before · item) sorted) =
        partitionPoint (before · item) sorted := by omega
    rw [position] at inside ⊢
    rw [take_insertIdx inside]
    split
    next full =>
      rw [List.dropLast_eq_take, full, List.take_take, Nat.min_eq_left (Nat.sub_le ..)]
    next room =>
      rw [List.length_take] at room
      rw [List.take_of_length_le (by omega), List.take_of_length_le (by omega)]
  next => rw [take_insertIdx_after (by omega)]

/-- What is kept of all items. -/
theorem foldl_insertBounded (trans : ∀ first second third, before first second = true →
      before second third = true → before first third = true)
    (total : ∀ first second, (before first second || before second first) = true)
    (limit : Nat) (items : List Item) :
    items.foldl (insertBounded before limit) [] = (items.mergeSort before).take limit := by
  induction items using List.reverseRecOn with
  | nil => rw [List.mergeSort_nil, List.take_nil, List.foldl_nil]
  | append_singleton items item ih =>
    rw [List.foldl_append, ih, List.foldl_cons, List.foldl_nil, insertBounded_take,
      mergeSort_concat trans total]

end ZenithRelay.BoundedInsertion
