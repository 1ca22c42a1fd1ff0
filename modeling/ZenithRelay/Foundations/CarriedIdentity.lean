import Mathlib

/-!
# Identities carried along a run

A run in which a step that is active either carries the identity of the step
before it or mints a fresh one. Two active steps share an identity just when
every step after the first up to the second carries it.
-/

set_option autoImplicit false

namespace ZenithRelay

variable {Identity : Type}

structure CarriedIdentity (active carries : ℕ → Prop) (identity fresh : ℕ → Identity) : Prop where
  first : ¬carries 0
  active_of_carries : ∀ step, carries (step + 1) → active (step + 1) ∧ active step
  kept : ∀ step, carries (step + 1) → identity (step + 1) = identity step
  minted : ∀ step, active step → ¬carries step → identity step = fresh step
  distinct : ∀ first second, active first → active second → fresh first = fresh second →
    first = second

namespace CarriedIdentity

variable {active carries : ℕ → Prop} {identity fresh : ℕ → Identity}

/-- Steps that carry on one identity from `first` to `last`. -/
def Unbroken (carries : ℕ → Prop) (first last : ℕ) : Prop :=
  ∀ step, first < step → step ≤ last → carries step

/-- The step at which the identity of an active step was minted. -/
structure Origin (active carries : ℕ → Prop) (identity fresh : ℕ → Identity)
    (origin step : ℕ) : Prop where
  before : origin ≤ step
  active : active origin
  minted : ¬carries origin
  unbroken : Unbroken carries origin step
  identity : identity step = fresh origin

theorem origin_exists (carried : CarriedIdentity active carries identity fresh) {step : ℕ}
    (isActive : active step) : ∃ origin, Origin active carries identity fresh origin step := by
  induction step with
  | zero =>
    exact ⟨0, Nat.le_refl 0, isActive, carried.first, fun step after upTo => by omega,
      carried.minted 0 isActive carried.first⟩
  | succ step ih =>
    by_cases carry : carries (step + 1)
    · obtain ⟨origin, before, own, minted, unbroken, same⟩ :=
        ih (carried.active_of_carries step carry).2
      refine ⟨origin, by omega, own, minted, fun later after upTo => ?_,
        (carried.kept step carry).trans same⟩
      by_cases last : later = step + 1
      · exact last ▸ carry
      · exact unbroken later after (by omega)
    · exact ⟨step + 1, Nat.le_refl _, isActive, carry, fun later after upTo => by omega,
        carried.minted (step + 1) isActive carry⟩

/-- Along an unbroken stretch the identity stays. -/
theorem eq_of_unbroken (carried : CarriedIdentity active carries identity fresh)
    {first last : ℕ} (order : first ≤ last) (unbroken : Unbroken carries first last) :
    identity last = identity first := by
  induction last with
  | zero => rw [Nat.le_zero.mp order]
  | succ last ih =>
    by_cases same : first = last + 1
    · rw [same]
    · have carry := unbroken (last + 1) (by omega) (Nat.le_refl _)
      rw [carried.kept last carry]
      exact ih (by omega) fun step after upTo => unbroken step after (by omega)

/-- A step that does not carry parts the identities before it from those after. -/
theorem ne_of_break (carried : CarriedIdentity active carries identity fresh)
    {first last : ℕ} (firstActive : active first) (lastActive : active last) {step : ℕ}
    (after : first < step) (upTo : step ≤ last) (breaks : ¬carries step) :
    identity first ≠ identity last := by
  obtain ⟨origin, before⟩ := carried.origin_exists firstActive
  obtain ⟨later, behind⟩ := carried.origin_exists lastActive
  intro same
  have one : origin = later :=
    carried.distinct origin later before.active behind.active
      (before.identity.symm.trans (same.trans behind.identity))
  have started : step ≤ later := by
    by_contra earlier
    exact breaks (behind.unbroken step (by omega) upTo)
  have order := before.before
  omega

end CarriedIdentity

end ZenithRelay
