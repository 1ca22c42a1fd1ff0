import ZenithRelay.Accounts.TokenAuthority.DurabilityDiscipline

/-!
# What keeps exchanged tokens durable

The invariant follows the discipline: what the holder of the slot knows of it, and that a
slot nobody holds is saved or pending.
-/

set_option autoImplicit false

namespace ZenithRelay.Accounts

/-- What the task holds of the slot, and whether it is known to be saved. -/
def DurabilityPhase.view (phase : DurabilityPhase) (id : EntryId) : Option (TokenSlot × Bool) :=
  phase.bind fun held => if held.id = id then some (held.content, held.saved) else none

namespace TokenAuthority

/-- The last set of the slot that an adapter took, or else the registered one. -/
def durable (authority : TokenAuthority) (id : EntryId) (registered : TokenSet) : TokenSet :=
  authority.persisted[id]?.getD registered

/-- The slot has just been registered with these tokens. -/
structure Registered (authority : TokenAuthority) (id : EntryId) (tokens : TokenSet) : Prop where
  entry : ∃ entry authState, authority.entries[id]? = some entry ∧ entry.heldBy = none ∧
    entry.slot = .fresh tokens authState
  unpersisted : authority.persisted[id]? = none

/-- A slot with the owner of its mutex. -/
def slotAt (authority : TokenAuthority) (id : EntryId) : Option (Option TaskId × TokenSlot) :=
  authority.entries[id]?.map fun entry => (entry.heldBy, entry.slot)

structure DurabilityInvariant (id : EntryId) (registered : TokenSet) (authority : TokenAuthority)
    (phases : TaskId → Option DurabilityPhase) : Prop where
  held : ∀ task phase content saved, phases task = some phase →
    phase.view id = some (content, saved) → authority.slotAt id = some (some task, content) ∧
      (saved = true → authority.durable id registered = content.tokens)
  settled : ∀ owner slot, authority.slotAt id = some (owner, slot) →
    (∀ task phase, phases task = some phase → phase.view id = none) →
    slot.persistencePending = false → authority.durable id registered = slot.tokens

variable {authority after : TokenAuthority} {task : TaskId} {id : EntryId} {registered : TokenSet}
  {phases : TaskId → Option DurabilityPhase} {phase next : DurabilityPhase}

namespace DurabilityInvariant

/-- A step that concerns neither the slot nor what the task holds of it. -/
theorem frame (invariant : DurabilityInvariant id registered authority phases)
    (reached : phases task = some phase) (slot : after.slotAt id = authority.slotAt id)
    (persisted : after.persisted[id]? = authority.persisted[id]?)
    (view : next.view id = phase.view id) :
    DurabilityInvariant id registered after (Function.update phases task (some next)) := by
  have durable : after.durable id registered = authority.durable id registered :=
    congrArg (fun taken => Option.getD taken registered) persisted
  constructor
  · intro other otherPhase content saved runs holds
    rw [slot, durable]
    by_cases self : other = task
    · subst self
      rw [Function.update_self] at runs
      cases runs
      exact invariant.held other phase content saved reached (view ▸ holds)
    · rw [Function.update_of_ne self] at runs
      exact invariant.held other otherPhase content saved runs holds
  · intro owner content present free pending
    rw [slot] at present
    rw [durable]
    refine invariant.settled owner content present (fun other otherPhase runs => ?_) pending
    by_cases self : other = task
    · subst self
      rw [reached] at runs
      cases runs
      rw [← view]
      exact free other next (Function.update_self ..)
    · exact free other otherPhase (by rw [Function.update_of_ne self, runs])

/-- A step after which the task holds the slot. -/
theorem holding (invariant : DurabilityInvariant id registered authority phases)
    {owner : Option TaskId} {before content : TokenSlot} {saved : Bool}
    (present : authority.slotAt id = some (owner, before)) (own : owner = none ∨ owner = some task)
    (slot : after.slotAt id = some (some task, content)) (view : next.view id = some (content, saved))
    (durable : saved = true → after.durable id registered = content.tokens) :
    DurabilityInvariant id registered after (Function.update phases task (some next)) := by
  constructor
  · intro other otherPhase otherContent otherSaved runs holds
    by_cases self : other = task
    · subst self
      rw [Function.update_self] at runs
      cases runs
      rw [view] at holds
      cases holds
      exact ⟨slot, durable⟩
    · rw [Function.update_of_ne self] at runs
      have taken := (invariant.held other otherPhase otherContent otherSaved runs holds).1
      rw [present] at taken
      cases taken
      rcases own with none | same
      · cases none
      · exact absurd (Option.some.inj same) self
  · intro _ _ _ free _
    have unheld := free task next (Function.update_self ..)
    rw [view] at unheld
    cases unheld

theorem slotAt_leave (authority : TokenAuthority) (task : TaskId) (id : EntryId) :
    (authority.leave task).slotAt id = (authority.slotAt id).map fun owned =>
      (if owned.1 = some task then none else owned.1, owned.2) := by
  unfold slotAt leave
  rw [show (authority.entries.map fun _ entry => entry.releasedBy task)[id]? =
    authority.entries[id]?.map fun entry => entry.releasedBy task from Std.ExtTreeMap.getElem?_map]
  cases authority.entries[id]? <;> rfl

theorem leave (invariant : DurabilityInvariant id registered authority phases)
    (reached : phases task = some phase) (safe : phase.Safe) :
    DurabilityInvariant id registered (authority.leave task)
      (Function.update phases task none) := by
  constructor
  · intro other otherPhase content saved runs holds
    by_cases self : other = task
    · rw [self, Function.update_self] at runs
      cases runs
    · rw [Function.update_of_ne self] at runs
      obtain ⟨taken, durable⟩ := invariant.held other otherPhase content saved runs holds
      refine ⟨?_, durable⟩
      rw [slotAt_leave, taken]
      simp [self]
  · intro owner slot present free pending
    rw [slotAt_leave] at present
    obtain ⟨⟨earlier, content⟩, before, moved⟩ := Option.map_eq_some_iff.mp present
    cases moved
    cases view : phase.view id with
    | none =>
        refine invariant.settled _ _ before (fun other otherPhase runs => ?_) pending
        by_cases self : other = task
        · subst self
          rw [reached] at runs
          cases runs
          exact view
        · exact free other otherPhase (by rw [Function.update_of_ne self, runs])
    | some held =>
        obtain ⟨heldContent, saved⟩ := held
        obtain ⟨taken, durable⟩ := invariant.held task phase heldContent saved reached view
        rw [before] at taken
        cases taken
        -- the slot is not pending, so it is given up because it was saved
        refine durable ?_
        obtain ⟨held, holds, viewed⟩ := Option.bind_eq_some_iff.mp view
        split at viewed
        · cases viewed
          rcases safe held holds with isSaved | isPending
          · exact isSaved
          · exact absurd (pending.symm.trans isPending) Bool.noConfusion
        · cases viewed

theorem slotAt_putEntry (authority : TokenAuthority) (other : EntryId) (edited : TokenSlotEntry)
    (id : EntryId) :
    (authority.putEntry other edited).slotAt id =
      if id = other then some (edited.heldBy, edited.slot) else authority.slotAt id := by
  rw [slotAt, putEntry, BTreeMap.lookup_insert]
  split <;> rfl

/-- An edit that changes neither the content nor the owner of any slot. -/
theorem slotAt_edited {other : EntryId} {entry edited : TokenSlotEntry}
    (found : authority.entries[other]? = some entry) (owner : edited.heldBy = entry.heldBy)
    (content : edited.slot = entry.slot) (id : EntryId) :
    (authority.putEntry other edited).slotAt id = authority.slotAt id := by
  rw [slotAt_putEntry]
  split
  next same =>
    rw [slotAt, same, found, owner, content]
    rfl
  · rfl

theorem slotAt_found {entry : TokenSlotEntry} (found : authority.entries[id]? = some entry) :
    authority.slotAt id = some (entry.heldBy, entry.slot) := by
  rw [slotAt, found]
  rfl

theorem view_of_id (held : HeldTokens) : DurabilityPhase.view (some held) held.id =
    some (held.content, held.saved) := if_pos rfl

theorem view_of_other {held : HeldTokens} (other : held.id ≠ id) :
    DurabilityPhase.view (some held) id = none := if_neg other

/-- What a task holds of a slot, as the authority has it. -/
theorem holds (invariant : DurabilityInvariant id registered authority phases)
    {held : HeldTokens} (reached : phases task = some (some held)) (own : held.id = id) :
    authority.slotAt id = some (some task, held.content) ∧
      (held.saved = true → authority.durable id registered = held.content.tokens) := by
  subst own
  exact invariant.held task _ held.content held.saved reached (view_of_id held)

end DurabilityInvariant

/-- What an action of `task` does to the slot and to what the task holds of it. -/
inductive SlotEffect (id : EntryId) (task : TaskId) (action : AuthorityAction)
    (oracle : AdapterOracle) (authority after : TokenAuthority) (phase next : DurabilityPhase) : Prop
  | frame (slot : after.slotAt id = authority.slotAt id)
      (persisted : after.persisted[id]? = authority.persisted[id]?)
      (view : next.view id = phase.view id)
  | locks (content : TokenSlot) (free : authority.slotAt id = some (none, content))
      (slot : after.slotAt id = some (some task, content))
      (persisted : after.persisted = authority.persisted)
      (holds : next = some ⟨id, content, !content.persistencePending, .untried⟩)
  | writes (held : HeldTokens) (content : TokenSlot) (held_ : phase = some held) (own : held.id = id)
      (allowed : held.Writes content) (slot : after.slotAt id = some (some task, content))
      (persisted : after.persisted = authority.persisted) (holds : next = some (held.write content))
  | saves (held : HeldTokens) (accountId : String) (revision : TokenDispatchRevision)
      (held_ : phase = some held) (own : held.id = id)
      (persists : action = .persistFenced accountId held.content.tokens revision)
      (entry : revision.entry = id) (taken : oracle.persist = .ok ())
      (slot : after.slotAt id = authority.slotAt id)
      (persisted : after.persisted[id]? = some held.content.tokens)
      (holds : next = some { held with saved := true })

namespace DurabilityInvariant

/-- An action that changes neither slots nor what was saved, nor what the task holds. -/
theorem unchanged {action : AuthorityAction} {oracle : AdapterOracle}
    (entries : after.entries = authority.entries) (persisted : after.persisted = authority.persisted) :
    SlotEffect id task action oracle authority after phase phase := by
  refine .frame ?_ (congrArg (fun taken => taken[id]?) persisted) rfl
  rw [slotAt, entries]
  rfl

theorem effect (invariant : DurabilityInvariant id registered authority phases)
    (reached : phases task = some phase) {action : AuthorityAction} {oracle : AdapterOracle}
    {response : action.Response} (allowed : phase.Allowed action)
    (executed : authority.execute task action oracle = some (after, response)) :
    SlotEffect id task action oracle authority after phase (phase.after action response) := by
  cases action with
  | lockSlots =>
      rw [execute] at executed
      split at executed
      · cases executed
        exact unchanged rfl rfl
      · cases executed
  | unlockSlots =>
      cases executed
      exact unchanged rfl rfl
  | getSlot accountId =>
      cases executed
      exact unchanged rfl rfl
  | atCapacity =>
      cases executed
      exact unchanged rfl rfl
  | insertSlot accountId candidate => exact allowed.elim
  | removeSlot accountId => exact allowed.elim
  | lockSlot other =>
      obtain ⟨entry, found, locks⟩ := Option.bind_eq_some_iff.mp executed
      obtain rfl : phase = none := allowed
      split at locks
      next free =>
        cases locks
        by_cases own : other = id
        · subst own
          refine .locks entry.slot ?_ ?_ rfl rfl
          · rw [slotAt_found found, free]
          · rw [slotAt_putEntry, if_pos rfl]
        · refine .frame ?_ rfl (view_of_other own)
          rw [slotAt_putEntry, if_neg (Ne.symm own)]
      · cases locks
  | writeSlot other slot =>
      obtain ⟨held, rfl, rfl, writes⟩ := allowed
      obtain ⟨entry, found, written⟩ := Option.bind_eq_some_iff.mp executed
      cases written
      by_cases own : held.id = id
      · have present := (invariant.holds reached own).1
        rw [slotAt_found (own ▸ found : authority.entries[id]? = some entry)] at present
        have owner : entry.heldBy = some task := congrArg Prod.fst (Option.some.inj present)
        refine .writes held slot rfl own writes ?_ rfl rfl
        rw [slotAt_putEntry, if_pos own.symm, owner]
      · refine .frame ?_ rfl ?_
        · rw [slotAt_putEntry, if_neg (Ne.symm own)]
        · rw [view_of_other own]
          exact view_of_other (held.write_id slot ▸ own)
  | bump other =>
      obtain ⟨entry, found, counts⟩ := Option.bind_eq_some_iff.mp executed
      split at counts
      · cases counts
      · split at counts
        · cases counts
          refine .frame ?_ rfl rfl
          exact slotAt_edited found (by rfl) (by rfl) id
        · cases counts
          exact unchanged rfl rfl
  | retire other => exact allowed.elim
  | snapshot other =>
      obtain ⟨entry, found, reads⟩ := Option.bind_eq_some_iff.mp executed
      cases reads
      exact unchanged rfl rfl
  | refreshFenced accountId refreshToken nowMs revision =>
      obtain ⟨held, rfl, -⟩ := allowed
      obtain ⟨refresh, persist⟩ := oracle
      cases executed
      cases refresh with
      | ok exchange => exact .frame rfl rfl rfl
      | error failure => exact unchanged rfl rfl
  | persistFenced accountId tokens revision =>
      obtain ⟨held, rfl, same, -, -, rfl⟩ := allowed
      obtain ⟨refresh, persist⟩ := oracle
      cases persist with
      | ok _ =>
          cases executed
          by_cases own : held.id = id
          · refine .saves held accountId revision rfl own rfl (same.symm.trans own) rfl rfl ?_ rfl
            exact (BTreeMap.lookup_insert ..).trans (if_pos (own.symm.trans same))
          · refine .frame rfl ?_ ?_
            · exact (BTreeMap.lookup_insert ..).trans
                (if_neg fun entry => own (same.trans entry.symm))
            · rw [view_of_other own]
              exact if_neg own
      | error code =>
          cases executed
          exact unchanged rfl rfl
  | persistAuthStateFenced accountId authState revision =>
      cases executed
      exact unchanged rfl rfl
  | guardRevision revision =>
      obtain ⟨entry, found, reads⟩ := Option.bind_eq_some_iff.mp executed
      split at reads
      · cases reads
        refine .frame ?_ rfl rfl
        exact slotAt_edited found (by rfl) (by rfl) id
      · cases reads
        exact unchanged rfl rfl

theorem executes (invariant : DurabilityInvariant id registered authority phases)
    (reached : phases task = some phase) {action : AuthorityAction} {oracle : AdapterOracle}
    (effect : SlotEffect id task action oracle authority after phase next) :
    DurabilityInvariant id registered after (Function.update phases task (some next)) := by
  cases effect with
  | frame slot persisted view => exact invariant.frame reached slot persisted view
  | locks content free slot persisted holds =>
      subst holds
      refine invariant.holding free (.inl rfl) slot (if_pos rfl) fun saved => ?_
      rw [durable, persisted]
      refine invariant.settled none content free (fun holder held runs => ?_) (by simpa using saved)
      -- a free slot is held by nobody
      cases view : held.view id with
      | none => rfl
      | some viewed =>
          have taken := (invariant.held holder held viewed.1 viewed.2 runs view).1
          rw [free] at taken
          cases taken
  | writes held content held_ own allowed slot persisted holds =>
      subst held_ holds own
      obtain ⟨present, wasDurable⟩ := invariant.holds reached rfl
      have view := view_of_id (held.write content)
      rw [held.write_id, held.write_content] at view
      refine invariant.holding present (.inr rfl) slot view fun saved => ?_
      obtain ⟨before, same⟩ := HeldTokens.saved_before_write allowed saved
      rw [durable, persisted, same]
      exact wasDurable before
  | saves held accountId revision held_ own persists entry taken slot persisted holds =>
      subst held_ holds own
      have present := (invariant.holds reached rfl).1
      refine invariant.holding present (.inr rfl) (slot.trans present) (if_pos rfl) fun _ => ?_
      rw [durable, persisted]
      rfl

theorem initially (start : authority.Registered id registered) :
    DurabilityInvariant id registered authority (fun _ => none) := by
  obtain ⟨⟨entry, authState, found, free, fresh⟩, unpersisted⟩ := start
  constructor
  · intro task phase content saved runs
    cases runs
  · intro owner slot present _ _
    rw [slotAt_found found] at present
    cases present
    rw [durable, unpersisted, fresh]
    rfl

theorem spawns (invariant : DurabilityInvariant id registered authority phases)
    (absent : phases task = none) :
    DurabilityInvariant id registered authority (Function.update phases task (some none)) := by
  constructor
  · intro other phase content saved runs holds
    by_cases self : other = task
    · rw [self, Function.update_self] at runs
      cases runs
      cases holds
    · rw [Function.update_of_ne self] at runs
      exact invariant.held other phase content saved runs holds
  · intro owner slot present free
    refine invariant.settled owner slot present fun other phase runs => ?_
    have different : other ≠ task := by
      rintro rfl
      rw [absent] at runs
      cases runs
    exact free other phase (by rw [Function.update_of_ne different, runs])

end DurabilityInvariant

/-- A task waits only where it can give up what it holds. -/
private theorem allowed_safe {action : AuthorityAction} (allowed : phase.Allowed action)
    (awaits : action.awaits = true) : phase.Safe := by
  cases action with
  | lockSlot other =>
      obtain rfl : phase = none := allowed
      exact DurabilityPhase.safe_none
  | refreshFenced =>
      obtain ⟨held, rfl, -, settled, -⟩ := allowed
      exact DurabilityPhase.safe_some (.inl settled.2)
  | persistFenced =>
      obtain ⟨held, rfl, -, pending, -⟩ := allowed
      exact DurabilityPhase.safe_some (.inr pending)
  | persistAuthStateFenced =>
      obtain ⟨held, rfl, -, settled⟩ := allowed
      exact DurabilityPhase.safe_some (.inl settled.2)
  | _ => cases awaits

/-- The operations that persist, interleaved in any way. -/
def durabilityDiscipline (id : EntryId) (registered : TokenSet) :
    Discipline machine AuthorityOperation.program (fun operation => operation.persists = true)
      DurabilityPhase where
  protocol := DurabilityPhase.protocol
  initial := none
  Final := DurabilityPhase.Final
  Invariant authority phases _ := DurabilityInvariant id registered authority phases
  follows operation persists := operation.persists_follows persists
  spawns invariant absent := invariant.spawns absent
  executes invariant reached allowed executed :=
    invariant.executes reached (invariant.effect reached allowed executed)
  returns invariant reached final := invariant.leave reached final.1
  abandons invariant reached allowed awaits := invariant.leave reached (allowed_safe allowed awaits)

end TokenAuthority

end ZenithRelay.Accounts
