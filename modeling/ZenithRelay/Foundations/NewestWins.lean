import Mathlib

/-!
# Newest observation wins

A register that keeps the newest of the observations it hears, each with its own
clock. Of two with one clock it keeps the first, so observations that agree
whenever their clocks do converge in any order and under any repetition.
-/

set_option autoImplicit false

namespace ZenithRelay

structure Stamped (Value : Type) where
  value : Value
  clock : Nat
  deriving DecidableEq, Repr

namespace NewestWins

variable {Value : Type}

/-- Only a strictly newer observation replaces the current one. -/
def hear : Option (Stamped Value) → Stamped Value → Stamped Value
  | none, incoming => incoming
  | some current, incoming => if current.clock < incoming.clock then incoming else current

def newest (heard : List (Stamped Value)) : Option (Stamped Value) :=
  heard.foldl (fun current incoming => some (hear current incoming)) none

theorem newest_snoc (heard : List (Stamped Value)) (incoming : Stamped Value) :
    newest (heard ++ [incoming]) = some (hear (newest heard) incoming) := by
  simp [newest, List.foldl_append]

/-- Hearing more never moves the clock back. -/
theorem clock_le_hear (current incoming : Stamped Value) :
    current.clock ≤ (hear (some current) incoming).clock := by
  rw [hear]
  split <;> omega

private theorem incoming_le_hear (current : Option (Stamped Value)) (incoming : Stamped Value) :
    incoming.clock ≤ (hear current incoming).clock := by
  cases current with
  | none => exact Nat.le_refl incoming.clock
  | some current =>
    rw [hear]
    split <;> omega

private theorem hear_mem (current : Option (Stamped Value)) (incoming : Stamped Value) :
    hear current incoming = incoming ∨ current = some (hear current incoming) := by
  cases current with
  | none => exact Or.inl rfl
  | some current =>
    rw [hear]
    split
    next => exact Or.inl rfl
    next => exact Or.inr rfl

/-- The register holds an observation it heard, and none heard is newer. -/
theorem newest_spec {heard : List (Stamped Value)} {kept : Stamped Value}
    (holds : newest heard = some kept) :
    kept ∈ heard ∧ ∀ other ∈ heard, other.clock ≤ kept.clock := by
  induction heard using List.reverseRecOn generalizing kept with
  | nil => cases holds
  | append_singleton heard incoming ih =>
    rw [newest_snoc, Option.some.injEq] at holds
    subst holds
    constructor
    · rcases hear_mem (newest heard) incoming with new | old
      · rw [new]
        simp
      · exact List.mem_append_left _ (ih old).1
    · intro other member
      rcases List.mem_append.mp member with earlier | last
      · cases before : newest heard with
        | none =>
          obtain rfl : heard = [] := by
            cases heard using List.reverseRecOn with
            | nil => rfl
            | append_singleton heard last => simp [newest_snoc] at before
          cases earlier
        | some current =>
          exact Nat.le_trans ((ih before).2 other earlier) (clock_le_hear current incoming)
      · rw [List.mem_singleton.mp last]
        exact incoming_le_hear (newest heard) incoming

theorem newest_isSome {heard : List (Stamped Value)} (nonempty : heard ≠ []) :
    ∃ kept, newest heard = some kept := by
  cases heard using List.reverseRecOn with
  | nil => exact absurd rfl nonempty
  | append_singleton heard last => exact ⟨_, newest_snoc heard last⟩

/-- Observations with one clock agree. -/
def Coherent (heard : List (Stamped Value)) : Prop :=
  ∀ first ∈ heard, ∀ second ∈ heard, first.clock = second.clock → first = second

instance [DecidableEq Value] (heard : List (Stamped Value)) : Decidable (Coherent heard) :=
  inferInstanceAs (Decidable
    (∀ first ∈ heard, ∀ second ∈ heard, first.clock = second.clock → first = second))

/-- Whoever heard the same observations, in any order and any number of times,
holds the same one. -/
theorem newest_eq_of_mem_iff {first second : List (Stamped Value)} (coherent : Coherent first)
    (same : ∀ observation, observation ∈ first ↔ observation ∈ second) :
    newest first = newest second := by
  cases held : newest first with
  | none =>
    have silent : second = [] := by
      by_contra heard
      obtain ⟨observation, member⟩ := List.exists_mem_of_ne_nil second heard
      obtain ⟨kept, holds⟩ := newest_isSome (List.ne_nil_of_mem ((same observation).mpr member))
      rw [held] at holds
      cases holds
    rw [silent]
    rfl
  | some kept =>
    obtain ⟨member, latest⟩ := newest_spec held
    obtain ⟨other, holds⟩ := newest_isSome (List.ne_nil_of_mem ((same kept).mp member))
    obtain ⟨otherMember, otherLatest⟩ := newest_spec holds
    rw [holds]
    have heard := (same other).mpr otherMember
    have clocks : kept.clock = other.clock :=
      Nat.le_antisymm (otherLatest kept ((same kept).mp member)) (latest other heard)
    rw [coherent kept member other heard clocks]

/-- The latest of some clocks, zero without any. -/
def latest (clocks : List Nat) : Nat :=
  (newest (clocks.map fun clock => (⟨(), clock⟩ : Stamped Unit))).elim 0 Stamped.clock

theorem latest_snoc (clocks : List Nat) (clock : Nat) :
    latest (clocks ++ [clock]) = max (latest clocks) clock := by
  rw [latest, latest, List.map_append, List.map_singleton, newest_snoc]
  cases newest (clocks.map fun clock => (⟨(), clock⟩ : Stamped Unit)) with
  | none => simp [hear]
  | some current =>
    by_cases newer : current.clock < clock
    · simp [hear, newer, Nat.le_of_lt newer]
    · simp [hear, newer, Nat.not_lt.mp newer]

theorem latest_eq_of_mem_iff {first second : List Nat}
    (same : ∀ clock, clock ∈ first ↔ clock ∈ second) : latest first = latest second := by
  have coherent : Coherent (first.map fun clock => (⟨(), clock⟩ : Stamped Unit)) := by
    rintro ⟨_, _⟩ _ ⟨_, _⟩ _ rfl
    rfl
  have heard (observation : Stamped Unit) :
      observation ∈ first.map (fun clock => (⟨(), clock⟩ : Stamped Unit)) ↔
        observation ∈ second.map (fun clock => (⟨(), clock⟩ : Stamped Unit)) := by
    simp only [List.mem_map, same]
  rw [latest, latest, newest_eq_of_mem_iff coherent heard]

end NewestWins

end ZenithRelay
