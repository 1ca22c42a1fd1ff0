import ZenithRelay.Accounts.TokenAuthority.DispatchInvariant

/-!
# Every action keeps dispatched tokens current

One lemma for each action of a task; a task that follows the discipline moves on
together with the state.
-/

set_option autoImplicit false

namespace ZenithRelay.Accounts

namespace TokenAuthority

variable {authority after : TokenAuthority} {task : TaskId} {id : EntryId}
  {entry edited : TokenSlotEntry}

/-! ## The actions -/

/-- A step that changes neither the map nor a slot, and leaves the task what it held. -/
theorem DispatchInvariant.readOnly {phases : TaskId → Option DispatchPhase}
    {results : List AuthorityResult} {phase next : DispatchPhase}
    (invariant : authority.DispatchInvariant phases results) (reached : phases task = some phase)
    (entries : after.entries = authority.entries) (slots : after.slots = authority.slots)
    (nextEntry : after.nextEntry = authority.nextEntry)
    (owner : ∀ other, other ≠ task → authority.slotsHeldBy = some other →
      after.slotsHeldBy = some other)
    (held : next.held = phase.held) (own : after.Knows task next) :
    Advance task authority after (Function.update phases task (some next)) results :=
  invariant.advance reached (invariant.map.of_entries entries slots nextEntry)
    (.of_entries entries fun other different holds => ⟨owner other different holds, slots⟩)
    (.of_entries entries held) own

/-- Knowledge that the step of the task itself neither used nor changed. -/
theorem Knows.same {phase next : DispatchPhase} (knows : authority.Knows task phase)
    (entries : after.entries = authority.entries) (slots : after.slots = authority.slots)
    (owner : next.slotsLocked = true → after.slotsHeldBy = some task)
    (lookup : next.slotsLocked = true → ∀ accountId found,
      next.lookup = some (accountId, found) → authority.slots[accountId]? = found)
    (seen : next.seen = phase.seen) (retired : next.retired = phase.retired)
    (held : next.held = phase.held) (revision : next.revision = phase.revision) :
    after.Knows task next where
  locked := owner
  lookup := slots ▸ lookup
  seen := by
    rw [entries, seen]
    exact knows.seen
  retired := by
    rw [entries, retired]
    exact knows.retired
  held := by
    rw [entries, held, revision]
    exact knows.held

variable {phases : TaskId → Option DispatchPhase} {results : List AuthorityResult}
  {phase : DispatchPhase}

theorem DispatchInvariant.lockSlots (invariant : authority.DispatchInvariant phases results)
    (reached : phases task = some phase) (free : authority.slotsHeldBy = none) :
    Advance task authority { authority with slotsHeldBy := some task }
      (Function.update phases task (some { phase with slotsLocked := true, lookup := none }))
      results := by
  refine invariant.readOnly reached rfl rfl rfl ?_ rfl ?_
  · intro other _ holds
    rw [free] at holds
    cases holds
  · exact (invariant.knows task phase reached).same rfl rfl (fun _ => rfl) (fun _ _ _ => (by rintro ⟨⟩))
      rfl rfl rfl rfl

theorem DispatchInvariant.unlockSlots (invariant : authority.DispatchInvariant phases results)
    (reached : phases task = some phase) (locked : phase.slotsLocked = true) :
    Advance task authority { authority with slotsHeldBy := none }
      (Function.update phases task (some { phase with slotsLocked := false, lookup := none }))
      results := by
  have knows := invariant.knows task phase reached
  refine invariant.readOnly reached rfl rfl rfl ?_ rfl ?_
  · intro other different holds
    rw [knows.locked locked] at holds
    exact absurd (Option.some.inj holds).symm different
  · exact knows.same rfl rfl (by rintro ⟨⟩) (by rintro ⟨⟩) rfl rfl rfl rfl

theorem DispatchInvariant.getSlot (invariant : authority.DispatchInvariant phases results)
    (reached : phases task = some phase) (accountId : String) :
    Advance task authority authority
      (Function.update phases task
        (some (phase.after (.getSlot accountId) authority.slots[accountId]?))) results := by
  have knows := invariant.knows task phase reached
  refine invariant.readOnly reached rfl rfl rfl (fun _ _ holds => holds) rfl ?_
  refine ⟨knows.locked, ?_, ?_, knows.retired, knows.held⟩
  · rintro _ _ _ ⟨⟩
    rfl
  · intro account id member
    rcases List.mem_append.mp member with looked | seen
    · obtain ⟨found, present, ⟨⟩⟩ := Option.map_eq_some_iff.mp (Option.mem_toList.mp looked)
      exact invariant.map.registered accountId _ present
    · exact knows.seen account id seen

theorem DispatchInvariant.insertSlot (invariant : authority.DispatchInvariant phases results)
    (reached : phases task = some phase) {accountId : String} {candidate : TokenSlot}
    (allowed : phase.Allowed (.insertSlot accountId candidate)) :
    Advance task authority
      { authority with
        slots := authority.slots.insert accountId authority.nextEntry
        entries := authority.entries.insert authority.nextEntry (.new accountId candidate)
        nextEntry := authority.nextEntry + 1 }
      (Function.update phases task (some { phase with lookup := none })) results := by
  have knows := invariant.knows task phase reached
  obtain ⟨locked, looked⟩ := allowed
  have absent : authority.slots[accountId]? = none := knows.lookup locked accountId none looked
  have unused : authority.entries[authority.nextEntry]? = none :=
    invariant.map.fresh _ (Nat.le_refl _)
  -- the new slot is at an unused address, every other one is where it was
  have kept : ∀ (id : EntryId) (entry : TokenSlotEntry), authority.entries[id]? = some entry →
      (authority.entries.insert authority.nextEntry (.new accountId candidate))[id]? =
        some entry := by
    intro id entry found
    rw [BTreeMap.lookup_insert, if_neg, found]
    rintro rfl
    rw [unused] at found
    cases found
  refine invariant.advance reached ⟨?_, ?_, ?_⟩ ⟨?_, ?_⟩ ⟨?_, ?_⟩ ⟨?_, ?_, ?_, ?_, ?_⟩
  · intro account id registered
    rw [BTreeMap.lookup_insert] at registered
    split at registered
    next own =>
      cases registered
      exact ⟨_, by rw [BTreeMap.lookup_insert, if_pos rfl], own.symm⟩
    next =>
      obtain ⟨entry, found, same⟩ := invariant.map.registered account id registered
      exact ⟨entry, kept id entry found, same⟩
  · intro id entry found isActive
    rw [BTreeMap.lookup_insert] at found ⊢
    split at found
    next own =>
      cases found
      exact own ▸ if_pos rfl
    next =>
      have registered := invariant.map.active id entry found isActive
      rw [if_neg, registered]
      intro same
      rw [same, absent] at registered
      cases registered
  · intro id beyond
    rw [BTreeMap.lookup_insert, if_neg (Nat.ne_of_gt beyond)]
    exact invariant.map.fresh id (Nat.le_of_succ_le beyond)
  · intro other different holds
    rw [knows.locked locked] at holds
    exact absurd (Option.some.inj holds).symm different
  · exact fun id entry found => ⟨entry, kept id entry found, .refl task entry⟩
  · intro id entry moved found stored _
    rw [kept id entry found] at stored
    cases stored
    exact .inl rfl
  · exact fun _ content holds => .inl ⟨content, holds⟩
  · exact knows.locked
  · exact fun _ _ _ => (by rintro ⟨⟩)
  · intro account id member
    obtain ⟨entry, found, same⟩ := knows.seen account id member
    exact ⟨entry, kept id entry found, same⟩
  · intro id retired
    obtain ⟨entry, found, inactive⟩ := knows.retired id retired
    exact ⟨entry, kept id entry found, inactive⟩
  · intro held holds
    obtain ⟨entry, found, rest⟩ := knows.held held holds
    exact ⟨entry, kept held.id entry found, rest⟩

theorem DispatchInvariant.removeSlot (invariant : authority.DispatchInvariant phases results)
    (reached : phases task = some phase) {accountId : String}
    (allowed : phase.Allowed (.removeSlot accountId)) :
    Advance task authority { authority with slots := authority.slots.erase accountId }
      (Function.update phases task (some { phase with lookup := none })) results := by
  have knows := invariant.knows task phase reached
  obtain ⟨locked, looked⟩ := allowed
  have registered := knows.lookup locked accountId phase.retired looked
  refine invariant.advance reached ⟨?_, ?_, invariant.map.fresh⟩ (.of_entries rfl ?_)
    (.of_entries rfl rfl) ⟨knows.locked, fun _ _ _ => (by rintro ⟨⟩), knows.seen, knows.retired, knows.held⟩
  · intro account id present
    rw [BTreeMap.lookup_erase] at present
    split at present
    · cases present
    · exact invariant.map.registered account id present
  · intro id entry found isActive
    have current := invariant.map.active id entry found isActive
    rw [BTreeMap.lookup_erase, if_neg, current]
    -- the account's slot is the one that was retired, so it is not active
    intro same
    rw [same, registered] at current
    obtain ⟨stored, present, inactive⟩ := knows.retired id current
    rw [found] at present
    cases present
    rw [isActive] at inactive
    cases inactive
  · intro other different holds
    rw [knows.locked locked] at holds
    exact absurd (Option.some.inj holds).symm different

/-- What a task knows once it has edited a slot: all that it knew, and the slot. -/
theorem Knows.afterEdit {next : DispatchPhase} (knows : authority.Knows task phase)
    (found : authority.entries[id]? = some entry) (moves : EntryMoves task entry edited)
    (locked : next.slotsLocked = phase.slotsLocked) (lookup : next.lookup = phase.lookup)
    (seen : next.seen = phase.seen)
    (retired : ∀ other, next.retired = some other →
      phase.retired = some other ∨ other = id ∧ edited.active = false)
    (held : ∀ held, next.held = some held →
      ∃ entry, (authority.putEntry id edited).entries[held.id]? = some entry ∧
        entry.heldBy = some task ∧ entry.slot = held.content ∧
        ∀ number, next.revision = some number → entry.revisionNumber = number) :
    (authority.putEntry id edited).Knows task next where
  locked := locked ▸ knows.locked
  lookup := locked ▸ lookup ▸ knows.lookup
  seen := seen ▸ (Moves.putEntry found moves).seen knows
  retired other isRetired := by
    rcases retired other isRetired with before | ⟨rfl, inactive⟩
    · exact (Moves.putEntry found moves).retired knows other before
    · exact ⟨edited, lookup_putEntry_self .., inactive⟩
  held := held

/-- The slot that a task holds, as the authority has it. -/
theorem Knows.holds (knows : authority.Knows task phase) {content : TokenSlot} {bumped : Bool}
    (held : phase.held = some ⟨id, content, bumped⟩)
    (found : authority.entries[id]? = some entry) :
    entry.heldBy = some task ∧ entry.slot = content ∧
      ∀ number, phase.revision = some number → entry.revisionNumber = number := by
  obtain ⟨stored, present, rest⟩ := knows.held _ held
  rw [found] at present
  cases present
  exact rest

/-- Only the holder of a slot moves it, so everybody else finds it as it was. -/
theorem EntryMoves.of_owner (owner : entry.heldBy = some task)
    (account : edited.accountId = entry.accountId)
    (retired : entry.active = false → edited.active = false)
    (revision : entry.revisionNumber ≤ edited.revisionNumber) : EntryMoves task entry edited where
  accountId := account
  retired := retired
  revision := revision
  untouched other different holds := by
    rw [owner] at holds
    exact absurd (Option.some.inj holds).symm different

theorem DispatchInvariant.lockSlot (invariant : authority.DispatchInvariant phases results)
    (reached : phases task = some phase) (found : authority.entries[id]? = some entry)
    (free : entry.heldBy = none) :
    Advance task authority (authority.putEntry id { entry with heldBy := some task })
      (Function.update phases task (some (phase.after (.lockSlot id) entry.slot))) results := by
  have moves : EntryMoves task entry { entry with heldBy := some task } := by
    refine ⟨rfl, fun inactive => inactive, Nat.le_refl _, ?_⟩
    intro other _ holds
    rw [free] at holds
    cases holds
  refine invariant.advance reached (invariant.map.putEntry found rfl fun isActive => isActive)
    (.putEntry found moves) (.putEntry found (fun _ => .inl rfl) fun _ _ holds => by cases holds) ?_
  refine (invariant.knows task phase reached).afterEdit found moves rfl rfl rfl (fun _ => .inl) ?_
  rintro _ ⟨⟩
  exact ⟨_, lookup_putEntry_self .., rfl, rfl, (by rintro _ ⟨⟩)⟩

theorem DispatchInvariant.writeSlot (invariant : authority.DispatchInvariant phases results)
    (reached : phases task = some phase) (found : authority.entries[id]? = some entry)
    {slot : TokenSlot} (allowed : phase.Allowed (.writeSlot id slot)) :
    Advance task authority (authority.putEntry id { entry with slot := slot })
      (Function.update phases task (some (phase.after (.writeSlot id slot) ()))) results := by
  have knows := invariant.knows task phase reached
  obtain ⟨content, bumped, held, writes⟩ := allowed
  obtain ⟨owner, rfl, read⟩ := knows.holds held found
  have moves : EntryMoves task entry { entry with slot := slot } :=
    .of_owner owner rfl (fun inactive => inactive) (Nat.le_refl _)
  have next : (phase.after (.writeSlot id slot) ()).held = some ⟨id, slot, bumped⟩ := by
    simp [DispatchPhase.after, held]
  refine invariant.advance reached (invariant.map.putEntry found rfl fun isActive => isActive)
    (.putEntry found moves) (.putEntry found ?_ ?_) ?_
  · intro _
    rcases writes with rfl | same
    · exact .inr ⟨entry.slot, held⟩
    · exact .inl same
  · intro other written holds
    rw [next] at holds
    cases holds
    exact .inl ⟨entry.slot, held⟩
  · refine knows.afterEdit found moves rfl rfl rfl (fun _ => .inl) ?_
    intro _ holds
    rw [next] at holds
    cases holds
    exact ⟨_, lookup_putEntry_self .., owner, rfl, read⟩

theorem DispatchInvariant.bump (invariant : authority.DispatchInvariant phases results)
    (reached : phases task = some phase) (found : authority.entries[id]? = some entry)
    (allowed : phase.Allowed (.bump id)) :
    Advance task authority
      (authority.putEntry id { entry with revisionNumber := entry.revisionNumber + 1 })
      (Function.update phases task (some (phase.after (.bump id) true))) results := by
  have knows := invariant.knows task phase reached
  obtain ⟨content, bumped, held⟩ := allowed
  obtain ⟨owner, rfl, read⟩ := knows.holds held found
  have moves : EntryMoves task entry { entry with revisionNumber := entry.revisionNumber + 1 } :=
    .of_owner owner rfl (fun inactive => inactive) (Nat.le_succ _)
  have next : (phase.after (.bump id) true).held = some ⟨id, entry.slot, true⟩ := by
    simp [DispatchPhase.after, held]
  refine invariant.advance reached (invariant.map.putEntry found rfl fun isActive => isActive)
    (.putEntry found moves) (.putEntry found ?_ ?_) ?_
  · exact fun counted => absurd counted (Nat.succ_ne_self _)
  · intro other written holds
    rw [next] at holds
    cases holds
    exact .inr ⟨rfl, Nat.lt_succ_self _⟩
  · refine knows.afterEdit found moves rfl rfl rfl (fun _ => .inl) ?_
    intro _ holds
    rw [next] at holds
    cases holds
    exact ⟨_, lookup_putEntry_self .., owner, rfl, (by rintro _ ⟨⟩)⟩

/-- An edit that touches neither the content, nor the owner, nor the revision of a slot. -/
theorem Knows.held_edited (knows : authority.Knows task phase)
    (found : authority.entries[id]? = some entry) (owner : edited.heldBy = entry.heldBy)
    (content : edited.slot = entry.slot)
    (revision : edited.revisionNumber = entry.revisionNumber) (held : HeldSlot)
    (holds : phase.held = some held) :
    ∃ entry, (authority.putEntry id edited).entries[held.id]? = some entry ∧
      entry.heldBy = some task ∧ entry.slot = held.content ∧
      ∀ number, phase.revision = some number → entry.revisionNumber = number := by
  obtain ⟨stored, present, rest⟩ := knows.held held holds
  rw [lookup_putEntry]
  by_cases own : held.id = id
  · rw [own, found] at present
    cases present
    refine ⟨edited, if_pos own, ?_⟩
    rw [owner, content, revision]
    exact rest
  · exact ⟨stored, by rw [if_neg own, present], rest⟩

theorem DispatchInvariant.retire (invariant : authority.DispatchInvariant phases results)
    (reached : phases task = some phase) (found : authority.entries[id]? = some entry) :
    Advance task authority (authority.putEntry id { entry with active := false })
      (Function.update phases task (some { phase with retired := some id })) results := by
  have knows := invariant.knows task phase reached
  have moves : EntryMoves task entry { entry with active := false } :=
    ⟨rfl, fun _ => rfl, Nat.le_refl _, fun _ _ holds => ⟨holds, rfl, rfl⟩⟩
  refine invariant.advance reached (invariant.map.putEntry found rfl (by rintro ⟨⟩))
    (.putEntry found moves) (.putEntry found (fun _ => .inl rfl) ?_) ?_
  · exact fun _ content holds => .inl ⟨content, holds⟩
  · refine knows.afterEdit found moves rfl rfl rfl ?_ (knows.held_edited found rfl rfl rfl)
    rintro _ ⟨⟩
    exact .inr ⟨rfl, rfl⟩

theorem DispatchInvariant.guard (invariant : authority.DispatchInvariant phases results)
    (reached : phases task = some phase) (found : authority.entries[id]? = some entry)
    (guards : List TaskId) :
    Advance task authority (authority.putEntry id { entry with guards := guards })
      (Function.update phases task (some phase)) results := by
  have knows := invariant.knows task phase reached
  have moves : EntryMoves task entry { entry with guards := guards } :=
    ⟨rfl, fun inactive => inactive, Nat.le_refl _, fun _ _ holds => ⟨holds, rfl, rfl⟩⟩
  refine invariant.advance reached (invariant.map.putEntry found rfl fun isActive => isActive)
    (.putEntry found moves) (.putEntry found (fun _ => .inl rfl) ?_) ?_
  · exact fun _ content holds => .inl ⟨content, holds⟩
  · exact knows.afterEdit found moves rfl rfl rfl (fun _ => .inl)
      (knows.held_edited found rfl rfl rfl)

theorem DispatchInvariant.snapshot (invariant : authority.DispatchInvariant phases results)
    (reached : phases task = some phase) (found : authority.entries[id]? = some entry)
    (allowed : phase.Allowed (.snapshot id)) :
    Advance task authority authority
      (Function.update phases task (some { phase with revision := some entry.revisionNumber }))
      results := by
  have knows := invariant.knows task phase reached
  obtain ⟨content, bumped, held⟩ := allowed
  obtain ⟨owner, same, -⟩ := knows.holds held found
  refine invariant.readOnly reached rfl rfl rfl (fun _ _ holds => holds) rfl ?_
  refine ⟨knows.locked, knows.lookup, knows.seen, knows.retired, ?_⟩
  intro _ holds
  change phase.held = some _ at holds
  rw [held] at holds
  cases holds
  exact ⟨entry, found, owner, same, fun _ read => Option.some.inj read⟩

/-- A step whose only effect is outside the map and the slots. -/
theorem DispatchInvariant.unchanged (invariant : authority.DispatchInvariant phases results)
    (reached : phases task = some phase) (entries : after.entries = authority.entries)
    (slots : after.slots = authority.slots) (nextEntry : after.nextEntry = authority.nextEntry)
    (owner : after.slotsHeldBy = authority.slotsHeldBy) :
    Advance task authority after (Function.update phases task (some phase)) results := by
  have knows := invariant.knows task phase reached
  refine invariant.readOnly reached entries slots nextEntry ?_ rfl ?_
  · exact fun _ _ holds => owner ▸ holds
  · exact knows.same entries slots (owner ▸ knows.locked) knows.lookup rfl rfl rfl rfl

theorem DispatchInvariant.executes (invariant : authority.DispatchInvariant phases results)
    (reached : phases task = some phase) {action : AuthorityAction} {oracle : AdapterOracle}
    {response : action.Response} (allowed : phase.Allowed action)
    (executed : authority.execute task action oracle = some (after, response)) :
    Advance task authority after (Function.update phases task (some (phase.after action response)))
      results := by
  cases action with
  | lockSlots =>
      cases free : authority.slotsHeldBy with
      | some _ => simp [execute, free] at executed
      | none =>
          simp only [execute, free, Option.some.injEq, Prod.mk.injEq] at executed
          obtain ⟨rfl, -⟩ := executed
          exact invariant.lockSlots reached free
  | unlockSlots =>
      cases executed
      exact invariant.unlockSlots reached allowed
  | getSlot accountId =>
      cases executed
      exact invariant.getSlot reached accountId
  | atCapacity =>
      cases executed
      exact invariant.unchanged reached rfl rfl rfl rfl
  | insertSlot accountId candidate =>
      cases executed
      exact invariant.insertSlot reached allowed
  | removeSlot accountId =>
      cases executed
      exact invariant.removeSlot reached allowed
  | lockSlot id =>
      obtain ⟨entry, found, locks⟩ := Option.bind_eq_some_iff.mp executed
      split at locks
      next free =>
        cases locks
        exact invariant.lockSlot reached found free
      · cases locks
  | writeSlot id slot =>
      obtain ⟨entry, found, writes⟩ := Option.bind_eq_some_iff.mp executed
      cases writes
      exact invariant.writeSlot reached found allowed
  | bump id =>
      obtain ⟨entry, found, counts⟩ := Option.bind_eq_some_iff.mp executed
      split at counts
      · cases counts
      · split at counts
        · cases counts
          exact invariant.bump reached found allowed
        · cases counts
          exact invariant.unchanged reached rfl rfl rfl rfl
  | retire id =>
      obtain ⟨entry, found, retires⟩ := Option.bind_eq_some_iff.mp executed
      split at retires
      · cases retires
      · cases retires
        exact invariant.retire reached found
  | snapshot id =>
      obtain ⟨entry, found, reads⟩ := Option.bind_eq_some_iff.mp executed
      cases reads
      exact invariant.snapshot reached found allowed
  | refreshFenced accountId refreshToken nowMs revision =>
      cases executed
      exact invariant.unchanged reached rfl rfl rfl rfl
  | persistFenced accountId tokens revision =>
      obtain ⟨refresh, persist⟩ := oracle
      cases persist with
      | ok _ =>
          cases executed
          exact invariant.unchanged reached rfl rfl rfl rfl
      | error code =>
          cases executed
          exact invariant.unchanged reached rfl rfl rfl rfl
  | persistAuthStateFenced accountId authState revision =>
      cases executed
      exact invariant.unchanged reached rfl rfl rfl rfl
  | guardRevision revision =>
      obtain ⟨entry, found, reads⟩ := Option.bind_eq_some_iff.mp executed
      split at reads
      · cases reads
        exact invariant.guard reached found _
      · cases reads
        exact invariant.unchanged reached rfl rfl rfl rfl

end TokenAuthority

end ZenithRelay.Accounts
