import ZenithRelay.Accounts.TokenAuthority.DurabilityInvariant

/-!
# The token sets of a slot

A slot goes through later and later token sets, and a set that was exchanged waits in it
until it is saved.
-/

set_option autoImplicit false

namespace ZenithRelay.Accounts

namespace TokenAuthority

variable {authority after : TokenAuthority} {task : TaskId} {id : EntryId} {registered : TokenSet}
  {phases : TaskId → Option DurabilityPhase} {phase next : DurabilityPhase}

/-! ## The order of token sets -/

variable {held : HeldTokens} {slot : TokenSlot}

/-- A write keeps the tokens, or moves on to the next generation. -/
private theorem writes_generation (writes : held.Writes slot) : slot.tokens = held.content.tokens ∨
    slot.tokens.generation = saturatingAdd u64Max held.content.tokens.generation 1 := by
  unfold HeldTokens.Writes at writes
  split at writes
  · rcases writes with keeps | ⟨⟨nowMs, invalidated⟩, -⟩
    · exact .inl keeps.1
    · exact .inr (congrArg TokenSet.generation invalidated)
  · exact .inr (congrArg TokenSet.generation writes.2)
  · exact .inl writes.1

/-- The slot has these tokens, or those of a later generation. -/
def Since (id : EntryId) (tokens : TokenSet) (authority : TokenAuthority) : Prop :=
  ∃ owner slot, authority.slotAt id = some (owner, slot) ∧
    (slot.tokens = tokens ∨ tokens.generation < slot.tokens.generation)

theorem Since.of_slotAt {tokens : TokenSet} (since : Since id tokens authority)
    (same : after.slotAt id = authority.slotAt id) : Since id tokens after := by
  obtain ⟨owner, slot, present, later⟩ := since
  exact ⟨owner, slot, same.trans present, later⟩

theorem Since.step {tokens : TokenSet} (below : tokens.generation < u64Max)
    (invariant : DurabilityInvariant id registered authority phases)
    (since : Since id tokens authority) (reached : phases task = some phase)
    {action : AuthorityAction} {oracle : AdapterOracle}
    (effect : SlotEffect id task action oracle authority after phase next) :
    Since id tokens after := by
  cases effect with
  | frame slot persisted view => exact since.of_slotAt slot
  | locks content free slot persisted holds =>
      obtain ⟨owner, before, present, later⟩ := since
      rw [free] at present
      cases present
      exact ⟨_, content, slot, later⟩
  | writes held content held_ own allowed slot persisted holds =>
      subst held_
      obtain ⟨owner, before, present, later⟩ := since
      have taken := (invariant.holds reached own).1
      rw [present] at taken
      cases taken
      refine ⟨_, content, slot, ?_⟩
      rcases writes_generation allowed with same | counted
      · exact same ▸ later
      · -- the generation has been counted up from one below the maximum
        rw [counted, saturatingAdd]
        rcases later with same | later
        · rw [same]
          exact .inr (Nat.lt_min.mpr ⟨Nat.lt_succ_self _, below⟩)
        · exact .inr (Nat.lt_min.mpr ⟨Nat.lt_succ_of_lt later, below⟩)
  | saves held accountId revision held_ own persists entry taken slot persisted holds =>
      exact since.of_slotAt slot

/-! ## Tokens that wait to be saved -/

/-- The part of a token set that an exchange brings and that cannot be made again. -/
def SameCredentials (tokens other : TokenSet) : Prop :=
  tokens.accessToken = other.accessToken ∧ tokens.refreshToken = other.refreshToken ∧
    tokens.idToken = other.idToken

/-- The slot is pending with these credentials, and nobody knows them to be saved. -/
def Unsettled (id : EntryId) (tokens : TokenSet) (authority : TokenAuthority)
    (phases : TaskId → Option DurabilityPhase) : Prop :=
  (∃ owner slot, authority.slotAt id = some (owner, slot) ∧ slot.persistencePending = true ∧
    SameCredentials slot.tokens tokens) ∧
  ∀ task phase content saved, phases task = some phase → phase.view id = some (content, saved) →
    saved = false

/-- While a slot is unsettled a write leaves it so. -/
private theorem writes_unsettled (writes : held.Writes slot)
    (pending : held.content.persistencePending = true) (unsaved : held.saved = false) :
    slot.persistencePending = true ∧ SameCredentials slot.tokens held.content.tokens ∧
      (held.write slot).saved = false := by
  unfold HeldTokens.Writes at writes
  unfold HeldTokens.write
  cases stage : held.stage with
  | untried =>
      simp only [stage] at writes
      rcases writes with ⟨same, stays | saved⟩ | ⟨⟨nowMs, invalidated⟩, stays⟩
      · exact ⟨stays, same ▸ ⟨rfl, rfl, rfl⟩, by simp [unsaved]⟩
      · exact absurd (unsaved.symm.trans saved) Bool.noConfusion
      · exact ⟨stays, invalidated ▸ ⟨rfl, rfl, rfl⟩, by simp [unsaved]⟩
  | answered =>
      simp only [stage] at writes
      exact absurd (pending.symm.trans writes.1.1) Bool.noConfusion
  | installed =>
      simp only [stage] at writes
      obtain ⟨same, stays | saved⟩ := writes
      · exact ⟨stays, same ▸ ⟨rfl, rfl, rfl⟩, by simp [unsaved]⟩
      · exact absurd (unsaved.symm.trans saved) Bool.noConfusion

theorem SameCredentials.trans {first second third : TokenSet} (left : SameCredentials first second)
    (right : SameCredentials second third) : SameCredentials first third :=
  ⟨left.1.trans right.1, left.2.1.trans right.2.1, left.2.2.trans right.2.2⟩

namespace Unsettled

variable {tokens : TokenSet}

theorem spawned (unsettled : Unsettled id tokens authority phases) (task : TaskId) :
    Unsettled id tokens authority (Function.update phases task (some none)) := by
  refine ⟨unsettled.1, fun other phase content saved runs view => ?_⟩
  by_cases self : other = task
  · rw [self, Function.update_self] at runs
    cases runs
    cases view
  · rw [Function.update_of_ne self] at runs
    exact unsettled.2 other phase content saved runs view

theorem left (unsettled : Unsettled id tokens authority phases) (task : TaskId) :
    Unsettled id tokens (authority.leave task) (Function.update phases task none) := by
  obtain ⟨⟨owner, slot, present, pending⟩, unsaved⟩ := unsettled
  have given : (authority.leave task).slotAt id =
      some (if owner = some task then none else owner, slot) := by
    rw [DurabilityInvariant.slotAt_leave, present]
    rfl
  refine ⟨⟨_, slot, given, pending⟩, fun other phase content saved runs view => ?_⟩
  by_cases self : other = task
  · rw [self, Function.update_self] at runs
    cases runs
  · rw [Function.update_of_ne self] at runs
    exact unsaved other phase content saved runs view

/-- The other tasks are where they were, and what the task itself holds is unsaved. -/
theorem unsaved_update (unsettled : Unsettled id tokens authority phases)
    (own : ∀ content saved, next.view id = some (content, saved) → saved = false) :
    ∀ other phase content saved, Function.update phases task (some next) other = some phase →
      phase.view id = some (content, saved) → saved = false := by
  intro other phase content saved runs view
  by_cases self : other = task
  · rw [self, Function.update_self] at runs
    cases runs
    exact own content saved view
  · rw [Function.update_of_ne self] at runs
    exact unsettled.2 other phase content saved runs view

theorem performed (unsettled : Unsettled id tokens authority phases)
    (invariant : DurabilityInvariant id registered authority phases)
    (reached : phases task = some phase) {action : AuthorityAction} {oracle : AdapterOracle}
    (unsaved : ∀ accountId saved revision, action = .persistFenced accountId saved revision →
      revision.entry = id → oracle.persist ≠ .ok ())
    (effect : SlotEffect id task action oracle authority after phase next) :
    Unsettled id tokens after (Function.update phases task (some next)) := by
  obtain ⟨owner, before, present, pending, same⟩ := unsettled.1
  cases effect with
  | frame slot persisted view =>
      refine ⟨⟨owner, before, slot.trans present, pending, same⟩, unsettled.unsaved_update ?_⟩
      exact fun content saved viewed => unsettled.2 task phase content saved reached (view ▸ viewed)
  | locks content free slot persisted holds =>
      rw [free] at present
      cases present
      refine ⟨⟨_, before, slot, pending, same⟩, unsettled.unsaved_update ?_⟩
      intro _ saved viewed
      subst holds
      rw [DurabilityInvariant.view_of_id ⟨id, before, !before.persistencePending, .untried⟩] at viewed
      cases viewed
      rw [pending]
      rfl
  | writes held content held_ own allowed slot persisted holds =>
      subst held_ holds own
      have taken := (invariant.holds reached rfl).1
      rw [present] at taken
      cases taken
      have notSaved := unsettled.2 task _ _ _ reached (DurabilityInvariant.view_of_id held)
      obtain ⟨stays, kept, still⟩ := writes_unsettled allowed pending notSaved
      refine ⟨⟨_, content, slot, stays, kept.trans same⟩, unsettled.unsaved_update ?_⟩
      intro _ saved viewed
      have view := DurabilityInvariant.view_of_id (held.write content)
      rw [held.write_id, viewed, still] at view
      exact congrArg Prod.snd (Option.some.inj view)
  | saves held accountId revision held_ own persists entry taken slot persisted holds =>
      exact absurd taken (unsaved accountId _ revision persists entry)

end Unsettled

/-- The task carries the tokens of its exchange: it is about to write them, or has. -/
def Carries (held : HeldTokens) (tokens : TokenSet) : Prop :=
  match held.stage with
  | .untried => False
  | .answered exchange refreshToken nowMs =>
    held.content.persistencePending = false ∧
      held.content.tokens.refreshed exchange refreshToken nowMs = tokens
  | .installed => held.content.tokens = tokens

private theorem carries_write {tokens : TokenSet} (carries : Carries held tokens)
    (writes : held.Writes slot) : Carries (held.write slot) tokens := by
  obtain ⟨heldId, content, saved, stage⟩ := held
  cases stage with
  | untried => exact carries.elim
  | answered exchange refreshToken nowMs => exact writes.2.trans carries.2
  | installed => exact writes.1.trans carries

/-- Whatever the task does next, it still carries them. -/
theorem carries_after {tokens : TokenSet} (carries : Carries held tokens)
    {action : AuthorityAction} (allowed : DurabilityPhase.Allowed (some held) action)
    (response : action.Response) :
    ∃ next, DurabilityPhase.after (some held) action response = some next ∧
      next.id = held.id ∧ Carries next tokens := by
  cases action with
  | lockSlot other => cases allowed
  | writeSlot other slot =>
      obtain ⟨_, ⟨⟩, -, writes⟩ := allowed
      exact ⟨held.write slot, rfl, held.write_id slot, carries_write carries writes⟩
  | refreshFenced accountId refreshToken nowMs revision =>
      obtain ⟨_, ⟨⟩, -, -, untried⟩ := allowed
      unfold Carries at carries
      rw [untried] at carries
      exact carries.elim
  | persistFenced accountId persisted revision =>
      cases response with
      | ok _ => exact ⟨_, rfl, rfl, carries⟩
      | error code => exact ⟨held, rfl, rfl, carries⟩
  | _ => exact ⟨held, rfl, rfl, carries⟩

/-- When the task asks an adapter to take tokens, they are the ones it carries. -/
theorem carries_persisted {tokens persisted : TokenSet} (carries : Carries held tokens)
    {accountId : String} {revision : TokenDispatchRevision}
    (allowed : DurabilityPhase.Allowed (some held) (.persistFenced accountId persisted revision)) :
    persisted = tokens ∧ held.id = revision.entry ∧ held.content.tokens = tokens ∧
      held.content.persistencePending = true ∧ held.saved = false := by
  obtain ⟨_, ⟨⟩, own, pending, unsaved, rfl⟩ := allowed
  obtain ⟨heldId, content, saved, stage⟩ := held
  cases stage with
  | untried => exact carries.elim
  | answered exchange refreshToken nowMs =>
      exact absurd (pending.symm.trans carries.1) Bool.noConfusion
  | installed => exact ⟨carries, own, carries, pending, unsaved⟩

end TokenAuthority

end ZenithRelay.Accounts
