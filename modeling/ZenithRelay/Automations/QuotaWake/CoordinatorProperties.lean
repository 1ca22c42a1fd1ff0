import ZenithRelay.Automations.QuotaWake.Coordinator

/-!
# Properties of the wake coordinator

Over every run: what one call does to a cycle, and from it the bounds, the attempts and
the permits of all cycles that the coordinator still keeps.
-/

set_option autoImplicit false

namespace ZenithRelay.Automations

open Quota

/-- Account, window kind and fingerprint. -/
abbrev Identity : Type := String × QuotaWindowKind × String

def WakeCycle.identity (cycle : WakeCycle) : Identity :=
  (cycle.accountId, cycle.windowKind, cycle.transitionFingerprint)

def WakePermit.identity (permit : WakePermit) : Identity :=
  (permit.accountId, permit.windowKind, permit.transitionFingerprint)

/-! ### Keys -/

/-- What comes before the first separator of a text is determined. -/
private theorem first_segment {separator : Char} {left right first second : List Char}
    (leftFree : separator ∉ left) (rightFree : separator ∉ right)
    (same : left ++ separator :: first = right ++ separator :: second) :
    left = right ∧ first = second := by
  induction left generalizing right with
  | nil =>
      cases right with
      | nil => injection same with _ same; exact ⟨rfl, same⟩
      | cons head right =>
          injection same with equal _
          exact absurd (equal ▸ List.mem_cons_self) rightFree
  | cons head left ih =>
      cases right with
      | nil =>
          injection same with equal _
          exact absurd (equal ▸ List.mem_cons_self) leftFree
      | cons other right =>
          injection same with equal same
          obtain ⟨rest, tails⟩ := ih (fun member => leftFree (List.mem_cons_of_mem _ member))
            (fun member => rightFree (List.mem_cons_of_mem _ member)) same
          exact ⟨equal ▸ rest ▸ rfl, tails⟩

private theorem debug_plain (kind : QuotaWindowKind) : '\x00' ∉ kind.debug.toList := by
  cases kind <;> decide

theorem cycleKeyText_injective {account other : String} {kind otherKind : QuotaWindowKind}
    {fingerprint otherFingerprint : String} (plain : '\x00' ∉ account.toList)
    (otherPlain : '\x00' ∉ other.toList)
    (same : cycleKeyText account kind fingerprint = cycleKeyText other otherKind otherFingerprint) :
    (account, kind, fingerprint) = (other, otherKind, otherFingerprint) := by
  have texts := congrArg String.toList same
  have nul : "\x00".toList = ['\x00'] := rfl
  simp only [cycleKeyText, String.toList_append, nul, List.append_assoc, List.cons_append,
    List.nil_append] at texts
  obtain ⟨sameAccount, rest⟩ := first_segment plain otherPlain texts
  obtain ⟨sameKind, sameFingerprint⟩ := first_segment (debug_plain kind) (debug_plain otherKind) rest
  have kinds : kind = otherKind := by
    cases kind <;> cases otherKind <;> first | rfl | (exact absurd sameKind (by decide))
  rw [String.toList_inj.mp sameAccount, kinds, String.toList_inj.mp sameFingerprint]

namespace WakeCoordinator

variable {digest : WakeDigest}

/-! ### What happens to one cycle -/

/-- One call may finish a cycle, make an attempt pending again or claim it. -/
inductive Moves (digest : WakeDigest) : WakeCycle → Option WakePermit → WakeCycle → Prop
  | stay (cycle) : Moves digest cycle none cycle
  | finish (cycle : WakeCycle) (nowMs : Nat) : Moves digest cycle none (cycle.finish nowMs)
  | retry (cycle : WakeCycle) (endedAtMs : Nat) : cycle.status = .inFlight →
      Moves digest cycle none (retry digest cycle endedAtMs)
  | lose (cycle : WakeCycle) (endedAtMs nowMs : Nat) : cycle.status = .inFlight →
      Moves digest cycle none ((retry digest cycle endedAtMs).finish nowMs)
  | claim {cycle claimed : WakeCycle} {permit : WakePermit} (nowMs : Nat) (mode : WakeClaimMode) :
      claim cycle nowMs mode = some (claimed, permit) → Moves digest cycle (some permit) claimed

/-- What a claim needs and does. -/
structure Claimed (cycle claimed : WakeCycle) (permit : WakePermit) : Prop where
  pending : cycle.status = .pending
  room : cycle.attemptsStarted < cycle.maxAttempts
  status : claimed.status = .inFlight
  attempts : claimed.attemptsStarted = saturatingAdd u8Max cycle.attemptsStarted 1
  identity : claimed.identity = cycle.identity
  key : claimed.key = cycle.key
  maxAttempts : claimed.maxAttempts = cycle.maxAttempts
  permitAttempt : permit.attempt = claimed.attemptsStarted
  permitIdentity : permit.identity = cycle.identity
  permitKey : permit.cycleKey = cycle.key

private theorem claim_some {cycle claimed : WakeCycle} {permit : WakePermit} {nowMs : Nat}
    {mode : WakeClaimMode} (claims : claim cycle nowMs mode = some (claimed, permit)) :
    Claimed cycle claimed permit := by
  unfold claim at claims
  split at claims
  next => cases claims
  next allowed =>
    simp only [Bool.or_eq_true, decide_eq_true_eq, not_or, not_not, Nat.not_le] at allowed
    split at claims
    next => cases claims; exact ⟨allowed.1.1.1, allowed.1.2, rfl, rfl, rfl, rfl, rfl, rfl, rfl, rfl⟩
    next => cases claims

/-- What every move keeps, and what it does to the attempts. -/
structure Moved (cycle moved : WakeCycle) (permit : Option WakePermit) : Prop where
  identity : moved.identity = cycle.identity
  key : moved.key = cycle.key
  maxAttempts : moved.maxAttempts = cycle.maxAttempts
  attempts : moved.attemptsStarted = cycle.attemptsStarted + permit.toList.length
  within : cycle.attemptsStarted ≤ cycle.maxAttempts →
    moved.attemptsStarted ≤ moved.maxAttempts
  completed : cycle.status = .completed → moved.status = .completed ∧ permit = none
  issued : ∀ claimed ∈ permit, claimed.attempt = moved.attemptsStarted ∧
    claimed.identity = cycle.identity ∧ claimed.cycleKey = cycle.key
  /-- Only a claim puts a cycle in flight. -/
  flight : moved.status = .inFlight → moved = cycle ∨ permit.isSome

theorem Moves.moved {cycle moved : WakeCycle} {permit : Option WakePermit}
    (moves : Moves digest cycle permit moved) (small : cycle.maxAttempts ≤ maxWakeAttempts) :
    Moved cycle moved permit := by
  cases moves with
  | stay => exact ⟨rfl, rfl, rfl, rfl, id, fun done => ⟨done, rfl⟩, by simp, fun _ => .inl rfl⟩
  | finish nowMs =>
      exact ⟨rfl, rfl, rfl, rfl, id, fun _ => ⟨rfl, rfl⟩, by simp, fun flying => by cases flying⟩
  | retry endedAtMs flying =>
      exact ⟨rfl, rfl, rfl, rfl, id, fun done => absurd (flying.symm.trans done) (by decide),
        by simp, fun flying => by cases flying⟩
  | lose endedAtMs nowMs flying =>
      exact ⟨rfl, rfl, rfl, rfl, id, fun done => absurd (flying.symm.trans done) (by decide),
        by simp, fun flying => by cases flying⟩
  | @claim _ issued nowMs mode claims =>
      have claimed := claim_some claims
      have next : moved.attemptsStarted = cycle.attemptsStarted + 1 := by
        rw [claimed.attempts]
        refine saturatingAdd_eq ?_
        have := claimed.room
        have bound : maxWakeAttempts ≤ u8Max := by decide
        omega
      refine ⟨claimed.identity, claimed.key, claimed.maxAttempts, next, fun _ => ?_, fun done => ?_,
        ?_, fun _ => .inr rfl⟩
      · rw [next, claimed.maxAttempts]
        exact claimed.room
      · exact absurd (claimed.pending.symm.trans done) (by decide)
      · intro other same
        cases same
        exact ⟨claimed.permitAttempt, claimed.permitIdentity, claimed.permitKey⟩

/-! ### What happens to all cycles -/

/-- The cycles keep their order; each moves, or is dropped: evicted when completed, or
`released`. -/
inductive Aligned (digest : WakeDigest) (released : WakeCycle → Prop) :
    List WakeCycle → List WakeCycle → List WakePermit → Prop
  | nil : Aligned digest released [] [] []
  | move {cycle permit moved cycles rest issued} : Moves digest cycle permit moved →
      Aligned digest released cycles rest issued →
      Aligned digest released (cycle :: cycles) (moved :: rest) (permit.toList ++ issued)
  | drop {cycle cycles rest issued} : (cycle.status = .completed ∨ released cycle) →
      Aligned digest released cycles rest issued →
      Aligned digest released (cycle :: cycles) rest issued

variable {released : WakeCycle → Prop} {before after : List WakeCycle} {issued : List WakePermit}

theorem Aligned.refl (cycles : List WakeCycle) : Aligned digest released cycles cycles [] := by
  induction cycles with
  | nil => exact .nil
  | cons cycle cycles ih => exact .move (.stay cycle) ih

theorem Aligned.map {change : WakeCycle → WakeCycle} (cycles : List WakeCycle)
    (moves : ∀ cycle ∈ cycles, Moves digest cycle none (change cycle)) :
    Aligned digest released cycles (cycles.map change) [] := by
  induction cycles with
  | nil => exact .nil
  | cons cycle cycles ih =>
      exact .move (moves cycle List.mem_cons_self)
        (ih fun cycle member => moves cycle (List.mem_cons_of_mem _ member))

theorem Aligned.replace {change : WakeCycle → Option WakeCycle} (cycles : List WakeCycle)
    (moves : ∀ cycle moved, change cycle = some moved → Moves digest cycle none moved) :
    Aligned digest released cycles (cycles.replaceF change) [] := by
  induction cycles with
  | nil => exact .nil
  | cons cycle cycles ih =>
      rw [List.replaceF_cons]
      cases changed : change cycle with
      | none => exact .move (.stay cycle) ih
      | some moved => exact .move (moves cycle moved changed) (.refl cycles)

theorem Aligned.filterMap {change : WakeCycle → Option WakeCycle} (cycles : List WakeCycle)
    (moves : ∀ cycle moved, change cycle = some moved → Moves digest cycle none moved)
    (drops : ∀ cycle, change cycle = none → cycle.status = .completed ∨ released cycle) :
    Aligned digest released cycles (cycles.filterMap change) [] := by
  induction cycles with
  | nil => exact .nil
  | cons cycle cycles ih =>
      cases changed : change cycle with
      | none => rw [List.filterMap_cons_none changed]; exact .drop (drops cycle changed) ih
      | some moved =>
          rw [List.filterMap_cons_some changed]
          exact .move (moves cycle moved changed) ih

theorem Aligned.evict (cycles : List WakeCycle) {index : Nat}
    (found : cycles.findIdx? (·.status = .completed) = some index) :
    Aligned digest released cycles (cycles.eraseIdx index) [] := by
  induction cycles generalizing index with
  | nil => cases found
  | cons cycle cycles ih =>
      rw [List.findIdx?_cons] at found
      split at found
      next done =>
        cases found
        exact .drop (.inl (of_decide_eq_true done)) (.refl cycles)
      next =>
        obtain ⟨position, later, same⟩ := Option.map_eq_some_iff.mp found
        subst same
        exact .move (.stay cycle) (ih later)

theorem Aligned.claims (nowMs : Nat) (mode : WakeClaimMode) (remaining : Nat)
    (cycles : List WakeCycle) :
    Aligned digest released cycles (claimCycles nowMs mode remaining cycles).1
      (claimCycles nowMs mode remaining cycles).2 := by
  induction cycles generalizing remaining with
  | nil => cases remaining <;> exact .nil
  | cons cycle cycles ih =>
      cases remaining with
      | zero => exact .refl _
      | succ remaining =>
          rw [claimCycles]
          cases claims : claim cycle nowMs mode with
          | none => exact .move (.stay cycle) (ih (remaining + 1))
          | some claimed =>
              obtain ⟨claimed, permit⟩ := claimed
              exact .move (.claim nowMs mode claims) (ih remaining)

/-- What no move changes, the cycles that stay have in their order. -/
theorem Aligned.sublist {α : Type} {project : WakeCycle → α}
    (keeps : ∀ {cycle permit moved}, Moved cycle moved permit → project moved = project cycle)
    (aligned : Aligned digest released before after issued)
    (small : ∀ cycle ∈ before, cycle.maxAttempts ≤ maxWakeAttempts) :
    List.Sublist (after.map project) (before.map project) := by
  induction aligned with
  | nil => exact List.Sublist.refl _
  | @move cycle _ moved _ _ _ moves _ ih =>
      rw [List.map_cons, List.map_cons, keeps (moves.moved (small cycle List.mem_cons_self))]
      exact (ih fun cycle member => small cycle (List.mem_cons_of_mem _ member)).cons_cons _
  | drop _ _ ih =>
      exact (ih fun cycle member => small cycle (List.mem_cons_of_mem _ member)).cons _

theorem Aligned.length_le (aligned : Aligned digest released before after issued) :
    after.length ≤ before.length := by
  induction aligned with
  | nil => exact Nat.le_refl _
  | move _ _ ih => exact Nat.succ_le_succ ih
  | drop _ _ ih => exact Nat.le_succ_of_le ih

/-- Every permit issued is labelled as a cycle that stays. -/
theorem Aligned.labelled (aligned : Aligned digest released before after issued)
    (small : ∀ cycle ∈ before, cycle.maxAttempts ≤ maxWakeAttempts) :
    ∀ permit ∈ issued, ∃ moved ∈ after,
      permit.identity = moved.identity ∧ permit.cycleKey = moved.key := by
  induction aligned with
  | nil => simp
  | @move cycle claimed moved _ rest _ moves _ ih =>
      have moved := moves.moved (small cycle List.mem_cons_self)
      intro permit member
      cases List.mem_append.mp member with
      | inl here =>
          have labelled := moved.issued permit (Option.mem_toList.mp here)
          exact ⟨_, List.mem_cons_self, labelled.2.1.trans moved.identity.symm,
            labelled.2.2.trans moved.key.symm⟩
      | inr later =>
          obtain ⟨other, found, same⟩ := ih
            (fun cycle member => small cycle (List.mem_cons_of_mem _ member)) permit later
          exact ⟨other, List.mem_cons_of_mem _ found, same⟩
  | drop _ _ ih => exact ih fun cycle member => small cycle (List.mem_cons_of_mem _ member)

/-- A cycle that stays comes from one that was there, with the permits of that move only. -/
theorem Aligned.origin (aligned : Aligned digest released before after issued)
    (distinct : (before.map WakeCycle.key).Nodup)
    (small : ∀ cycle ∈ before, cycle.maxAttempts ≤ maxWakeAttempts) :
    ∀ moved ∈ after, ∃ cycle ∈ before, ∃ permit, Moves digest cycle permit moved ∧
      issued.filter (·.cycleKey = moved.key) = permit.toList := by
  induction aligned with
  | nil => simp
  | @move cycle claimed moved cycles rest issued moves aligned ih =>
      have small' := fun cycle member => small cycle (List.mem_cons_of_mem _ member)
      have head := moves.moved (small cycle List.mem_cons_self)
      obtain ⟨fresh, distinct⟩ := List.nodup_cons.mp distinct
      have sublist := aligned.sublist (fun moved => moved.key) small'
      intro other member
      cases List.mem_cons.mp member with
      | inl here =>
          subst here
          refine ⟨cycle, List.mem_cons_self, claimed, moves, ?_⟩
          have own : claimed.toList.filter (·.cycleKey = other.key) = claimed.toList := by
            rw [List.filter_eq_self]
            intro permit inside
            have labelled := head.issued permit (Option.mem_toList.mp inside)
            exact decide_eq_true (labelled.2.2.trans head.key.symm)
          have none : issued.filter (·.cycleKey = other.key) = [] := by
            rw [List.filter_eq_nil_iff]
            intro permit inside same
            obtain ⟨stays, found, labelled⟩ := aligned.labelled small' permit inside
            refine fresh (sublist.subset ?_)
            rw [← head.key, ← of_decide_eq_true same, labelled.2]
            exact List.mem_map_of_mem found
          rw [List.filter_append, own, none, List.append_nil]
      | inr later =>
          obtain ⟨origin, found, permit, moves, filtered⟩ := ih distinct small' other later
          refine ⟨origin, List.mem_cons_of_mem _ found, permit, moves, ?_⟩
          have none : claimed.toList.filter (·.cycleKey = other.key) = [] := by
            rw [List.filter_eq_nil_iff]
            intro permit inside same
            have labelled := head.issued permit (Option.mem_toList.mp inside)
            refine fresh (sublist.subset ?_)
            rw [← labelled.2.2, of_decide_eq_true same]
            exact List.mem_map_of_mem later
          rw [List.filter_append, none, filtered, List.nil_append]
  | drop _ aligned ih =>
      intro other member
      obtain ⟨origin, found, rest⟩ := ih (List.nodup_cons.mp distinct).2
        (fun cycle member => small cycle (List.mem_cons_of_mem _ member)) other member
      exact ⟨origin, List.mem_cons_of_mem _ found, rest⟩

/-- A cycle stays, unless it was completed or is released. -/
theorem Aligned.stays (aligned : Aligned digest released before after issued) :
    ∀ cycle ∈ before, (∃ moved ∈ after, ∃ permit, Moves digest cycle permit moved) ∨
      cycle.status = .completed ∨ released cycle := by
  induction aligned with
  | nil => simp
  | @move cycle permit moved _ _ _ moves _ ih =>
      intro other member
      cases List.mem_cons.mp member with
      | inl here => exact .inl ⟨moved, List.mem_cons_self, permit, here ▸ moves⟩
      | inr later =>
          cases ih other later with
          | inl stays =>
              obtain ⟨moved, found, moves⟩ := stays
              exact .inl ⟨moved, List.mem_cons_of_mem _ found, moves⟩
          | inr gone => exact .inr gone
  | drop gone _ ih =>
      intro other member
      cases List.mem_cons.mp member with
      | inl here => exact .inr (here ▸ gone)
      | inr later => exact ih other later

end WakeCoordinator

end ZenithRelay.Automations
