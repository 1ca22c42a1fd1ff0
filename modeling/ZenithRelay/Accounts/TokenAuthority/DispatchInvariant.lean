import ZenithRelay.Accounts.TokenAuthority.DispatchDiscipline

/-!
# What keeps dispatched tokens current

The invariant follows the discipline: what each task knows of the state, and that at an
unchanged revision a slot still has the tokens that were handed out under it. A step of
one task leaves what the others know.
-/

set_option autoImplicit false

namespace ZenithRelay.Accounts

namespace TokenAuthority

/-- What a task has read is still so: nobody else writes what it holds. -/
structure Knows (authority : TokenAuthority) (task : TaskId) (phase : DispatchPhase) : Prop where
  locked : phase.slotsLocked = true → authority.slotsHeldBy = some task
  lookup : phase.slotsLocked = true → ∀ accountId found,
    phase.lookup = some (accountId, found) → authority.slots[accountId]? = found
  seen : ∀ accountId id, (accountId, id) ∈ phase.seen →
    ∃ entry, authority.entries[id]? = some entry ∧ entry.accountId = accountId
  retired : ∀ id, phase.retired = some id →
    ∃ entry, authority.entries[id]? = some entry ∧ entry.active = false
  held : ∀ held, phase.held = some held →
    ∃ entry, authority.entries[held.id]? = some entry ∧ entry.heldBy = some task ∧
      entry.slot = held.content ∧ ∀ number, phase.revision = some number →
        entry.revisionNumber = number

/-- The map and the slots belong together: an active slot is the registered one. -/
structure MapInvariant (authority : TokenAuthority) : Prop where
  registered : ∀ (accountId : String) (id : EntryId), authority.slots[accountId]? = some id →
    ∃ entry, authority.entries[id]? = some entry ∧ entry.accountId = accountId
  active : ∀ (id : EntryId) (entry : TokenSlotEntry), authority.entries[id]? = some entry →
    entry.active = true → authority.slots[entry.accountId]? = some id
  fresh : ∀ id, authority.nextEntry ≤ id → authority.entries[id]? = none

/-- A token handed out for `accountId`: while its revision lasts the slot has its tokens,
and whoever holds the slot has not counted the revision up. -/
def Issued (authority : TokenAuthority) (phases : TaskId → Option DispatchPhase)
    (accountId : String) (prepared : PreparedToken) : Prop :=
  ∃ entry, authority.entries[prepared.dispatchRevision.entry]? = some entry ∧
    entry.accountId = accountId ∧
    prepared.dispatchRevision.expectedRevision ≤ entry.revisionNumber ∧
    (prepared.dispatchRevision.expectedRevision = entry.revisionNumber →
      entry.slot.tokens = prepared.tokens ∧
        ∀ task phase held, phases task = some phase → phase.held = some held →
          held.id = prepared.dispatchRevision.entry → held.bumped = false)

structure DispatchInvariant (authority : TokenAuthority) (phases : TaskId → Option DispatchPhase)
    (results : List AuthorityResult) : Prop where
  map : authority.MapInvariant
  knows : ∀ task phase, phases task = some phase → authority.Knows task phase
  issued : ∀ accountId prepared, .prepared accountId (.ok prepared) ∈ results →
    authority.Issued phases accountId prepared

/-- What a step of `task` may do to a slot. -/
structure EntryMoves (task : TaskId) (entry moved : TokenSlotEntry) : Prop where
  accountId : moved.accountId = entry.accountId
  retired : entry.active = false → moved.active = false
  revision : entry.revisionNumber ≤ moved.revisionNumber
  untouched : ∀ other, other ≠ task → entry.heldBy = some other →
    moved.heldBy = some other ∧ moved.slot = entry.slot ∧
      moved.revisionNumber = entry.revisionNumber

/-- What a step of `task` may do to the authority. -/
structure Moves (task : TaskId) (authority after : TokenAuthority) : Prop where
  slots : ∀ other, other ≠ task → authority.slotsHeldBy = some other →
    after.slotsHeldBy = some other ∧ after.slots = authority.slots
  entries : ∀ (id : EntryId) (entry : TokenSlotEntry), authority.entries[id]? = some entry →
    ∃ moved, after.entries[id]? = some moved ∧ EntryMoves task entry moved

variable {authority after : TokenAuthority} {task : TaskId}

theorem EntryMoves.refl (task : TaskId) (entry : TokenSlotEntry) : EntryMoves task entry entry :=
  ⟨rfl, id, Nat.le_refl _, fun _ _ held => ⟨held, rfl, rfl⟩⟩

theorem Moves.seen (moves : Moves task authority after) {other : TaskId} {phase : DispatchPhase}
    (knows : authority.Knows other phase) (accountId : String) (id : EntryId)
    (member : (accountId, id) ∈ phase.seen) :
    ∃ entry, after.entries[id]? = some entry ∧ entry.accountId = accountId := by
  obtain ⟨entry, found, account⟩ := knows.seen accountId id member
  obtain ⟨moved, stored, same⟩ := moves.entries id entry found
  exact ⟨moved, stored, same.accountId.trans account⟩

theorem Moves.retired (moves : Moves task authority after) {other : TaskId}
    {phase : DispatchPhase} (knows : authority.Knows other phase) (id : EntryId)
    (retired : phase.retired = some id) :
    ∃ entry, after.entries[id]? = some entry ∧ entry.active = false := by
  obtain ⟨entry, found, inactive⟩ := knows.retired id retired
  obtain ⟨moved, stored, same⟩ := moves.entries id entry found
  exact ⟨moved, stored, same.retired inactive⟩

/-- The step of one task changes nothing that another knows. -/
theorem Knows.other (moves : Moves task authority after) {other : TaskId} {phase : DispatchPhase}
    (different : other ≠ task) (knows : authority.Knows other phase) :
    after.Knows other phase where
  locked isLocked := (moves.slots other different (knows.locked isLocked)).1
  lookup isLocked accountId found looked := by
    rw [(moves.slots other different (knows.locked isLocked)).2]
    exact knows.lookup isLocked accountId found looked
  seen := moves.seen knows
  retired := moves.retired knows
  held held holds := by
    obtain ⟨entry, found, owner, content, revision⟩ := knows.held held holds
    obtain ⟨moved, stored, same⟩ := moves.entries held.id entry found
    obtain ⟨ownerAfter, contentAfter, revisionAfter⟩ := same.untouched other different owner
    exact ⟨moved, stored, ownerAfter, contentAfter.trans content,
      fun number read => revisionAfter.trans (revision number read)⟩

/-- What a step of a task in `phase` may do to tokens, and when its next phase counts as
one that has counted a revision up. -/
structure KeepsRevisions (authority after : TokenAuthority) (phase next : DispatchPhase) :
    Prop where
  tokens : ∀ (id : EntryId) (entry moved : TokenSlotEntry),
    authority.entries[id]? = some entry → after.entries[id]? = some moved →
    moved.revisionNumber = entry.revisionNumber →
    moved.slot.tokens = entry.slot.tokens ∨ ∃ content, phase.held = some ⟨id, content, true⟩
  bumps : ∀ (id : EntryId) (content : TokenSlot), next.held = some ⟨id, content, true⟩ →
    (∃ content, phase.held = some ⟨id, content, true⟩) ∨
      ∀ entry moved, authority.entries[id]? = some entry → after.entries[id]? = some moved →
        entry.revisionNumber < moved.revisionNumber

theorem Issued.advance {phases : TaskId → Option DispatchPhase} {phase next : DispatchPhase}
    {accountId : String} {prepared : PreparedToken}
    (issued : authority.Issued phases accountId prepared) (reached : phases task = some phase)
    (moves : Moves task authority after) (keeps : KeepsRevisions authority after phase next) :
    after.Issued (Function.update phases task (some next)) accountId prepared := by
  obtain ⟨entry, found, account, bounded, current⟩ := issued
  obtain ⟨moved, stored, same⟩ := moves.entries _ entry found
  refine ⟨moved, stored, same.accountId.trans account, Nat.le_trans bounded same.revision, ?_⟩
  intro atMoved
  -- the revision has not moved, so the slot was current before the step
  have atEntry : prepared.dispatchRevision.expectedRevision = entry.revisionNumber :=
    Nat.le_antisymm bounded (atMoved ▸ same.revision)
  obtain ⟨tokens, unbumped⟩ := current atEntry
  have unmoved : moved.revisionNumber = entry.revisionNumber := atMoved.symm.trans atEntry
  refine ⟨?_, ?_⟩
  · rcases keeps.tokens _ entry moved found stored unmoved with kept | ⟨content, bumped⟩
    · exact kept.trans tokens
    · exact absurd (unbumped task phase _ reached bumped rfl) Bool.noConfusion
  · intro other otherPhase held runs holds own
    by_cases self : other = task
    · subst self
      rw [Function.update_self] at runs
      cases runs
      obtain ⟨heldId, content, bumped⟩ := held
      obtain rfl : heldId = prepared.dispatchRevision.entry := own
      cases bumped with
      | false => rfl
      | true =>
          rcases keeps.bumps _ content holds with ⟨before, bumped⟩ | counted
          · exact absurd (unbumped other phase _ reached bumped rfl) Bool.noConfusion
          · exact absurd unmoved (Nat.ne_of_gt (counted entry moved found stored))
    · rw [Function.update_of_ne self] at runs
      exact unbumped other otherPhase held runs holds own

/-- A step of `task` that keeps the invariant. -/
structure Advance (task : TaskId) (authority after : TokenAuthority)
    (phases : TaskId → Option DispatchPhase) (results : List AuthorityResult) : Prop where
  moves : Moves task authority after
  invariant : after.DispatchInvariant phases results

/-- One step of a task, from what it does to the map, to the slots and to revisions. -/
theorem DispatchInvariant.advance {phases : TaskId → Option DispatchPhase}
    {results : List AuthorityResult} {phase next : DispatchPhase}
    (invariant : authority.DispatchInvariant phases results) (reached : phases task = some phase)
    (map : after.MapInvariant) (moves : Moves task authority after)
    (keeps : KeepsRevisions authority after phase next) (own : after.Knows task next) :
    Advance task authority after (Function.update phases task (some next)) results := by
  refine ⟨moves, map, ?_, ?_⟩
  · intro other otherPhase runs
    by_cases self : other = task
    · subst self
      rw [Function.update_self] at runs
      cases runs
      exact own
    · rw [Function.update_of_ne self] at runs
      exact (invariant.knows other otherPhase runs).other moves self
  · exact fun accountId prepared member =>
      (invariant.issued accountId prepared member).advance reached moves keeps

/-! ## Steps that leave the slots alone -/

theorem Moves.of_entries (entries : after.entries = authority.entries)
    (slots : ∀ other, other ≠ task → authority.slotsHeldBy = some other →
      after.slotsHeldBy = some other ∧ after.slots = authority.slots) :
    Moves task authority after where
  slots := slots
  entries _ entry found := ⟨entry, entries ▸ found, .refl task entry⟩

theorem KeepsRevisions.of_entries {phase next : DispatchPhase}
    (entries : after.entries = authority.entries)
    (held : next.held = phase.held) : KeepsRevisions authority after phase next where
  tokens id entry moved found stored _ := by
    rw [entries, found] at stored
    cases stored
    exact .inl rfl
  bumps _ content holds := .inl ⟨content, held ▸ holds⟩

theorem MapInvariant.of_entries (map : authority.MapInvariant)
    (entries : after.entries = authority.entries) (slots : after.slots = authority.slots)
    (nextEntry : after.nextEntry = authority.nextEntry) : after.MapInvariant := by
  constructor
  · rw [entries, slots]
    exact map.registered
  · rw [entries, slots]
    exact map.active
  · rw [entries, nextEntry]
    exact map.fresh

/-! ## Steps that edit one slot -/

variable {id : EntryId} {entry edited : TokenSlotEntry}

theorem lookup_putEntry (authority : TokenAuthority) (id other : EntryId)
    (edited : TokenSlotEntry) :
    (authority.putEntry id edited).entries[other]? =
      if other = id then some edited else authority.entries[other]? :=
  BTreeMap.lookup_insert ..

theorem lookup_putEntry_self (authority : TokenAuthority) (id : EntryId)
    (edited : TokenSlotEntry) : (authority.putEntry id edited).entries[id]? = some edited := by
  rw [lookup_putEntry, if_pos rfl]

theorem Moves.putEntry (found : authority.entries[id]? = some entry)
    (moves : EntryMoves task entry edited) :
    Moves task authority (authority.putEntry id edited) where
  slots _ _ held := ⟨held, rfl⟩
  entries other stored present := by
    rw [lookup_putEntry]
    by_cases same : other = id
    · subst same
      rw [found] at present
      cases present
      exact ⟨edited, if_pos rfl, moves⟩
    · exact ⟨stored, by rw [if_neg same, present], .refl task stored⟩

theorem MapInvariant.putEntry (map : authority.MapInvariant)
    (found : authority.entries[id]? = some entry) (account : edited.accountId = entry.accountId)
    (active : edited.active = true → entry.active = true) :
    (authority.putEntry id edited).MapInvariant where
  registered accountId other registered := by
    obtain ⟨stored, present, same⟩ := map.registered accountId other registered
    rw [lookup_putEntry]
    by_cases own : other = id
    · subst own
      rw [found] at present
      cases present
      exact ⟨edited, if_pos rfl, account.trans same⟩
    · exact ⟨stored, by rw [if_neg own, present], same⟩
  active other stored present isActive := by
    rw [lookup_putEntry] at present
    split at present
    next own =>
      cases present
      rw [own, account]
      exact map.active id entry found (active isActive)
    next => exact map.active other stored present isActive
  fresh other beyond := by
    rw [lookup_putEntry, if_neg]
    · exact map.fresh other beyond
    · rintro rfl
      rw [map.fresh other beyond] at found
      cases found

/-- The tokens of the edited slot are as before, its revision has moved, or the task
had counted it up before. -/
theorem KeepsRevisions.putEntry {phase next : DispatchPhase}
    (found : authority.entries[id]? = some entry)
    (tokens : edited.revisionNumber = entry.revisionNumber →
      edited.slot.tokens = entry.slot.tokens ∨ ∃ content, phase.held = some ⟨id, content, true⟩)
    (bumps : ∀ other content, next.held = some ⟨other, content, true⟩ →
      (∃ content, phase.held = some ⟨other, content, true⟩) ∨
        other = id ∧ entry.revisionNumber < edited.revisionNumber) :
    KeepsRevisions authority (authority.putEntry id edited) phase next where
  tokens other stored moved present after same := by
    rw [lookup_putEntry] at after
    split at after
    next own =>
      cases after
      rw [own, found] at present
      cases present
      rw [own]
      exact tokens same
    next =>
      rw [present] at after
      cases after
      exact .inl rfl
  bumps other content holds := by
    rcases bumps other content holds with before | ⟨rfl, counted⟩
    · exact .inl before
    · refine .inr fun stored moved present after => ?_
      rw [found] at present
      rw [lookup_putEntry, if_pos rfl] at after
      cases present
      cases after
      exact counted

end TokenAuthority

end ZenithRelay.Accounts
