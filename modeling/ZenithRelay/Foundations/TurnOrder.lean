import Mathlib

/-!
# Turn orders

A list of members that take turns. Who stands before a member changes only by
those who leave or are sent to the back.
-/

set_option autoImplicit false

namespace ZenithRelay.TurnOrder

variable {Member : Type} [DecidableEq Member]

/-- The members in front of `member`. -/
def ahead (order : List Member) (member : Member) : List Member :=
  order.takeWhile (· != member)

def sendBack (order : List Member) (member : Member) : List Member :=
  order.erase member ++ [member]

@[simp] theorem mem_sendBack {order : List Member} {member other : Member}
    (present : member ∈ order) : other ∈ sendBack order member ↔ other ∈ order := by
  by_cases same : other = member
  · subst same
    simp [sendBack, present]
  · simp [sendBack, same, List.mem_erase_of_ne]

theorem nodup_sendBack {order : List Member} (distinct : order.Nodup) (member : Member) :
    (sendBack order member).Nodup := by
  rw [sendBack, List.nodup_append]
  refine ⟨distinct.erase member, by simp, ?_⟩
  intro left kept right last
  obtain rfl : right = member := by simpa using last
  exact (distinct.mem_erase_iff.mp kept).1

theorem mem_of_mem_ahead {order : List Member} {member other : Member}
    (before : other ∈ ahead order member) : other ∈ order :=
  (List.takeWhile_sublist _).subset before

@[simp] theorem ahead_cons_self (order : List Member) (member : Member) :
    ahead (member :: order) member = [] := by simp [ahead]

theorem ahead_cons_of_ne {first member : Member} (different : first ≠ member)
    (order : List Member) : ahead (first :: order) member = first :: ahead order member := by
  simp [ahead, different]

/-- Joining at the back puts nobody in front of a member that is there. -/
theorem ahead_append {order : List Member} {member : Member} (present : member ∈ order)
    (joined : List Member) : ahead (order ++ joined) member = ahead order member := by
  induction order with
  | nil => cases present
  | cons first order ih =>
    by_cases same : first = member
    · subst same
      simp
    · have later : member ∈ order := by simpa [Ne.symm same] using present
      rw [List.cons_append, ahead_cons_of_ne same, ahead_cons_of_ne same, ih later]

private theorem ahead_erase {order : List Member} {member other : Member} (different : other ≠ member) :
    ahead (order.erase other) member = (ahead order member).erase other := by
  induction order with
  | nil => rfl
  | cons first order ih =>
    by_cases same : first = member
    · subst same
      rw [List.erase_cons_tail (by simpa using Ne.symm different)]
      simp
    · by_cases found : first = other
      · subst found
        rw [List.erase_cons_head, ahead_cons_of_ne same, List.erase_cons_head]
      · have unequal : ¬(first == other) = true := by simpa using found
        rw [List.erase_cons_tail unequal, ahead_cons_of_ne same, ahead_cons_of_ne same,
          List.erase_cons_tail unequal, ih]

/-- Leaving puts nobody in front. -/
theorem ahead_filter {order : List Member} {member : Member} {keep : Member → Bool}
    (kept : keep member) : ahead (order.filter keep) member = (ahead order member).filter keep := by
  induction order with
  | nil => rfl
  | cons first order ih =>
    by_cases same : first = member
    · subst same
      simp [kept]
    · by_cases keeps : keep first
      · rw [List.filter_cons_of_pos keeps, ahead_cons_of_ne same, ahead_cons_of_ne same,
          List.filter_cons_of_pos keeps, ih]
      · rw [List.filter_cons_of_neg keeps, ahead_cons_of_ne same, List.filter_cons_of_neg keeps, ih]

/-- Sending another member back moves it behind and nobody else in front. -/
theorem ahead_sendBack {order : List Member} {member other : Member} (present : member ∈ order)
    (different : other ≠ member) :
    ahead (sendBack order other) member = (ahead order member).erase other := by
  have stays : member ∈ order.erase other := (List.mem_erase_of_ne (Ne.symm different)).mpr present
  rw [sendBack, ahead_append stays, ahead_erase different]

end ZenithRelay.TurnOrder
