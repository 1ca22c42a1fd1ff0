import Mathlib

/-!
# Choosing an extreme element

`Iterator::max_by` and `Iterator::min_by`: the first returns the last of several
maximal elements, the second the first of several minimal ones.
-/

set_option autoImplicit false

namespace ZenithRelay.Selection

variable {α β : Type}

def maxBy (compare : α → α → Ordering) : List α → Option α
  | [] => none
  | first :: rest =>
    some (rest.foldl (fun best next => if compare best next = .gt then best else next) first)

def minBy (compare : α → α → Ordering) : List α → Option α
  | [] => none
  | first :: rest =>
    some (rest.foldl (fun best next => if compare best next = .gt then next else best) first)

private theorem foldl_choice_mem (choose : α → α → α)
    (either : ∀ best next, choose best next = best ∨ choose best next = next)
    (first : α) (rest : List α) : rest.foldl choose first ∈ first :: rest := by
  induction rest generalizing first with
  | nil => simp
  | cons next rest ih =>
    have member := ih (choose first next)
    rcases either first next with same | same <;> rw [same] at member <;>
      simp only [List.foldl_cons, same, List.mem_cons] at member ⊢ <;> tauto

theorem maxBy_mem {compare : α → α → Ordering} {items : List α} {best : α}
    (chosen : maxBy compare items = some best) : best ∈ items := by
  cases items with
  | nil => simp [maxBy] at chosen
  | cons first rest =>
    cases chosen
    apply foldl_choice_mem
    intro best next
    by_cases greater : compare best next = .gt <;> simp [greater]

theorem minBy_mem {compare : α → α → Ordering} {items : List α} {best : α}
    (chosen : minBy compare items = some best) : best ∈ items := by
  cases items with
  | nil => simp [minBy] at chosen
  | cons first rest =>
    cases chosen
    apply foldl_choice_mem
    intro best next
    by_cases greater : compare best next = .gt <;> simp [greater]

theorem maxBy_isSome {compare : α → α → Ordering} {items : List α} (nonempty : items ≠ []) :
    ∃ best, maxBy compare items = some best := by
  cases items with
  | nil => exact absurd rfl nonempty
  | cons first rest => exact ⟨_, rfl⟩

theorem minBy_isSome {compare : α → α → Ordering} {items : List α} (nonempty : items ≠ []) :
    ∃ best, minBy compare items = some best := by
  cases items with
  | nil => exact absurd rfl nonempty
  | cons first rest => exact ⟨_, rfl⟩

/-- The choice depends on the elements only through what the comparison reads. -/
theorem maxBy_map (compare : β → β → Ordering) (view : α → β) (items : List α) :
    (maxBy (fun left right => compare (view left) (view right)) items).map view =
      maxBy compare (items.map view) := by
  cases items with
  | nil => rfl
  | cons first rest =>
    simp only [maxBy, List.map_cons, Option.map_some, Option.some.injEq]
    induction rest generalizing first with
    | nil => rfl
    | cons next rest ih =>
      simp only [List.foldl_cons, List.map_cons]
      rw [ih]
      by_cases greater : compare (view first) (view next) = .gt <;> simp [greater]

/-- Comparisons that agree on the elements choose alike. -/
theorem maxBy_congr {left right : α → α → Ordering} {items : List α}
    (same : ∀ first ∈ items, ∀ second ∈ items, left first second = right first second) :
    maxBy left items = maxBy right items := by
  cases items with
  | nil => rfl
  | cons first rest =>
    rw [maxBy, maxBy, Option.some.injEq]
    induction rest generalizing first with
    | nil => rfl
    | cons next rest ih =>
      have equal := same first (by simp) next (by simp)
      rw [List.foldl_cons, List.foldl_cons, equal]
      by_cases greater : right first next = .gt
      · rw [if_pos greater]
        exact ih first fun one oneMember two twoMember =>
          same one (by simp at oneMember ⊢; tauto) two (by simp at twoMember ⊢; tauto)
      · rw [if_neg greater]
        exact ih next fun one oneMember two twoMember =>
          same one (by simp at oneMember ⊢; tauto) two (by simp at twoMember ⊢; tauto)

private theorem foldl_max_dominates (compare : α → α → Ordering) [Std.TransCmp compare]
    (first : α) (rest : List α) :
    ∀ item ∈ first :: rest,
      (compare item (rest.foldl
        (fun best next => if compare best next = .gt then best else next) first)).isLE := by
  induction rest generalizing first with
  | nil =>
    intro item member
    obtain rfl : item = first := by simpa using member
    simp [Std.ReflCmp.compare_self]
  | cons next rest ih =>
    intro item member
    simp only [List.foldl_cons]
    by_cases greater : compare first next = .gt
    · simp only [greater, ↓reduceIte]
      have dominated := ih first
      rcases List.mem_cons.mp member with rfl | member
      · exact dominated item (by simp)
      rcases List.mem_cons.mp member with rfl | member
      · have below : (compare item first).isLE := by
          have swapped : compare item first = (compare first item).swap := Std.OrientedCmp.eq_swap
          rw [swapped, greater]
          rfl
        exact Std.TransCmp.isLE_trans below (dominated first (by simp))
      · exact dominated item (by simp [member])
    · simp only [greater, ↓reduceIte]
      have dominated := ih next
      rcases List.mem_cons.mp member with rfl | member
      · have below : (compare item next).isLE := by
          cases order : compare item next with
          | lt => rfl
          | eq => rfl
          | gt => exact absurd order greater
        exact Std.TransCmp.isLE_trans below (dominated next (by simp))
      · exact dominated item member

/-- Under a total order no element exceeds the chosen one. -/
theorem maxBy_dominates {compare : α → α → Ordering} [Std.TransCmp compare] {items : List α}
    {best : α} (chosen : maxBy compare items = some best) :
    ∀ item ∈ items, (compare item best).isLE := by
  cases items with
  | nil => simp
  | cons first rest =>
    cases chosen
    exact foldl_max_dominates compare first rest

private theorem foldl_min_dominates (compare : α → α → Ordering) [Std.TransCmp compare]
    (first : α) (rest : List α) :
    ∀ item ∈ first :: rest,
      (compare (rest.foldl
        (fun best next => if compare best next = .gt then next else best) first) item).isLE := by
  induction rest generalizing first with
  | nil =>
    intro item member
    obtain rfl : item = first := by simpa using member
    simp [Std.ReflCmp.compare_self]
  | cons next rest ih =>
    intro item member
    simp only [List.foldl_cons]
    by_cases greater : compare first next = .gt
    · simp only [greater, ↓reduceIte]
      have dominated := ih next
      rcases List.mem_cons.mp member with rfl | member
      · have below : (compare next item).isLE := by
          rw [Std.OrientedCmp.gt_iff_lt.mp greater]
          rfl
        exact Std.TransCmp.isLE_trans (dominated next (by simp)) below
      · exact dominated item member
    · simp only [greater, ↓reduceIte]
      have dominated := ih first
      rcases List.mem_cons.mp member with rfl | member
      · exact dominated item (by simp)
      · rcases List.mem_cons.mp member with rfl | member
        · have below : (compare first item).isLE := by
            cases order : compare first item with
            | lt => rfl
            | eq => rfl
            | gt => exact absurd order greater
          exact Std.TransCmp.isLE_trans (dominated first (by simp)) below
        · exact dominated item (List.mem_cons_of_mem _ member)

/-- Under a total order the chosen element exceeds none. -/
theorem minBy_dominates {compare : α → α → Ordering} [Std.TransCmp compare] {items : List α}
    {best : α} (chosen : minBy compare items = some best) :
    ∀ item ∈ items, (compare best item).isLE := by
  cases items with
  | nil => simp
  | cons first rest =>
    cases chosen
    exact foldl_min_dominates compare first rest

end ZenithRelay.Selection
