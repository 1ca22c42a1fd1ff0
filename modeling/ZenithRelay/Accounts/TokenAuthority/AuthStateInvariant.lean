import ZenithRelay.Accounts.TokenAuthority.AuthStateDiscipline
import ZenithRelay.Accounts.TokenAuthority.DurabilityInvariant

/-!
# What prepared slots keep

The invariant follows the discipline: the holder knows the slot it holds, and a slot that
carries the marker of a running exchange has nothing left to persist.
-/

set_option autoImplicit false

namespace ZenithRelay.Accounts

namespace TokenAuthority

open DurabilityInvariant

/-- Nobody holds a slot, no slot carries the marker, and the accounts are trimmed. -/
structure Rested (authority : TokenAuthority) : Prop where
  slots : ∀ id owner slot, authority.slotAt id = some (owner, slot) →
    owner = none ∧ slot.authState ≠ .refreshing
  trimmed : ∀ (account : String) (id : EntryId), authority.slots[account]? = some id →
    Text.trim account = account

/-- The revision of the slot is at its end. -/
def Spent (authority : TokenAuthority) (id : EntryId) : Prop :=
  ∃ entry, authority.entries[id]? = some entry ∧ u64Max ≤ entry.revisionNumber

structure AuthStateInvariant (slots : BTreeMap String EntryId) (authority : TokenAuthority)
    (phases : TaskId → Option AuthStatePhase) : Prop where
  registered : authority.slots = slots
  quiet : ∀ id owner slot, authority.slotAt id = some (owner, slot) → slot.Quiet
  answered : ∀ (task : TaskId) (account : String) (found : Option EntryId),
    phases task = some (.asking (some (account, found))) → slots[account]? = found
  held : ∀ task held, phases task = some (.holding held) →
    authority.slotAt held.id = some (some task, held.content) ∧ slots[held.account]? = some held.id

/-- What an action of `task` does to the slots and to what the task holds. -/
inductive AuthStateEffect (task : TaskId) (authority after : TokenAuthority) :
    AuthStatePhase → AuthStatePhase → Prop
  | keeps {phase} (entries : ∀ id, after.slotAt id = authority.slotAt id)
      (spent : ∀ id, authority.Spent id → after.Spent id) :
      AuthStateEffect task authority after phase phase
  | asks {answered} (account : String) (same : after = authority) :
      AuthStateEffect task authority after (.asking answered)
        (.asking (some (account, authority.slots[account]?)))
  | looks {held} (account : String) (own : account = held.account ∨ account = Text.trim held.account)
      (same : after = authority) :
      AuthStateEffect task authority after (.holding held) (.holding { held with
        stuck := held.stuck || decide (authority.slots[account]? ≠ some held.id) })
  | locks {account id} (content : TokenSlot) (free : authority.slotAt id = some (none, content))
      (entries : ∀ other, after.slotAt other =
        if other = id then some (some task, content) else authority.slotAt other)
      (spent : ∀ id, authority.Spent id → after.Spent id) :
      AuthStateEffect task authority after (.asking (some (account, some id)))
        (.holding ⟨account, id, content, false, false, none⟩)
  | writes {held} (slot : TokenSlot) (allowed : held.Writes slot)
      (entries : ∀ other, after.slotAt other =
        if other = held.id then (authority.slotAt held.id).map fun owned => (owned.1, slot)
        else authority.slotAt other)
      (spent : ∀ id, authority.Spent id → after.Spent id) :
      AuthStateEffect task authority after (.holding held) (.holding (held.write slot))
  | counts {held} (entries : ∀ id, after.slotAt id = authority.slotAt id)
      (spent : ∀ id, authority.Spent id → after.Spent id) (unspent : ¬authority.Spent held.id) :
      AuthStateEffect task authority after (.holding held) (.holding { held with counted := true })
  | exhausts {held} (same : after = authority) (spent : authority.Spent held.id) :
      AuthStateEffect task authority after (.holding held) (.holding { held with stuck := true })

variable {authority after : TokenAuthority} {task : TaskId} {phase next : AuthStatePhase}
  {slots : BTreeMap String EntryId} {phases : TaskId → Option AuthStatePhase}

private theorem Spent.of_entries {id : EntryId} (spent : authority.Spent id)
    (same : after.entries = authority.entries) : after.Spent id := by
  rwa [Spent, same]

private theorem Spent.putEntry {other : EntryId} {entry edited : TokenSlotEntry}
    (found : authority.entries[other]? = some entry)
    (later : entry.revisionNumber ≤ edited.revisionNumber) {id : EntryId}
    (spent : authority.Spent id) : (authority.putEntry other edited).Spent id := by
  obtain ⟨present, held, ended⟩ := spent
  rw [Spent, TokenAuthority.putEntry, BTreeMap.lookup_insert]
  by_cases same : id = other
  · rw [if_pos same]
    rw [same, found] at held
    cases held
    exact ⟨edited, rfl, ended.trans later⟩
  · rw [if_neg same]
    exact ⟨present, held, ended⟩

private theorem unchanged (entries : after.entries = authority.entries) :
    AuthStateEffect task authority after phase phase :=
  .keeps (fun id => by rw [slotAt, entries]; rfl) fun _ spent => spent.of_entries entries

theorem authState_effect {action : AuthorityAction} {oracle : AdapterOracle}
    {response : action.Response} (allowed : phase.Allowed action)
    (executed : authority.execute task action oracle = some (after, response)) :
    AuthStateEffect task authority after phase (phase.after action response) ∧
      after.slots = authority.slots := by
  cases action with
  | lockSlots =>
    rw [execute] at executed
    split at executed
    next =>
      cases executed
      cases phase <;> exact ⟨unchanged rfl, rfl⟩
    next => cases executed
  | unlockSlots =>
    cases executed
    cases phase <;> exact ⟨unchanged rfl, rfl⟩
  | getSlot account =>
    cases executed
    cases phase with
    | asking => exact ⟨.asks account rfl, rfl⟩
    | holding held => exact ⟨.looks account allowed rfl, rfl⟩
  | atCapacity =>
    cases executed
    cases phase <;> exact ⟨unchanged rfl, rfl⟩
  | lockSlot id =>
    cases phase with
    | holding => exact allowed.elim
    | asking answered =>
      obtain ⟨account, rfl⟩ := allowed
      obtain ⟨entry, found, locks⟩ := Option.bind_eq_some_iff.mp executed
      split at locks
      next free =>
        cases locks
        refine ⟨.locks entry.slot ?_ (slotAt_putEntry authority id _)
          fun _ => Spent.putEntry found (by exact Nat.le_refl _), rfl⟩
        rw [slotAt_found found, free]
      next => cases locks
  | writeSlot id slot =>
    cases phase with
    | asking => exact allowed.elim
    | holding held =>
      obtain ⟨rfl, writes⟩ := allowed
      obtain ⟨entry, found, written⟩ := Option.bind_eq_some_iff.mp executed
      cases written
      refine ⟨.writes slot writes (fun other => ?_)
        fun _ => Spent.putEntry found (by exact Nat.le_refl _), rfl⟩
      rw [slotAt_putEntry, slotAt_found found]
      rfl
  | bump id =>
    cases phase with
    | asking => exact allowed.elim
    | holding held =>
      obtain rfl : id = held.id := allowed
      obtain ⟨entry, found, counts⟩ := Option.bind_eq_some_iff.mp executed
      split at counts
      next => cases counts
      next =>
        split at counts
        next room =>
          cases counts
          refine ⟨.counts (slotAt_edited found (by rfl) (by rfl))
            (fun _ => Spent.putEntry found (Nat.le_succ _)) ?_, rfl⟩
          rintro ⟨present, held, ended⟩
          rw [found] at held
          cases held
          omega
        next full =>
          cases counts
          exact ⟨.exhausts rfl ⟨entry, found, Nat.le_of_not_lt full⟩, rfl⟩
  | snapshot id =>
    obtain ⟨entry, found, reads⟩ := Option.bind_eq_some_iff.mp executed
    cases reads
    cases phase <;> exact ⟨unchanged rfl, rfl⟩
  | refreshFenced account refreshToken nowMs revision =>
    cases phase with
    | asking => exact allowed.elim
    | holding =>
      cases executed
      exact ⟨unchanged rfl, rfl⟩
  | persistFenced account tokens revision =>
    cases phase with
    | asking => exact allowed.elim
    | holding =>
      rw [execute] at executed
      split at executed
      · cases executed
        exact ⟨unchanged rfl, rfl⟩
      · cases executed
        exact ⟨unchanged rfl, rfl⟩
  | persistAuthStateFenced account authState revision =>
    cases phase with
    | asking => exact allowed.elim
    | holding =>
      cases executed
      exact ⟨unchanged rfl, rfl⟩
  | _ => cases phase <;> exact allowed.elim

/-! ### The marker is not persisted -/

private theorem update_reached (reached : phases task = some phase) :
    Function.update phases task (some phase) = phases := by
  rw [← reached, Function.update_eq_self]

namespace AuthStateInvariant

/-- A task that holds a slot is the owner of its mutex. -/
theorem apart (invariant : AuthStateInvariant slots authority phases) {other : TaskId}
    {held : HeldState} (reached : phases other = some (.holding held)) {owner : Option TaskId}
    {slot : TokenSlot} (present : authority.slotAt held.id = some (owner, slot)) :
    owner = some other := by
  rw [(invariant.held other held reached).1] at present
  cases present
  rfl

/-- A step of one task, which leaves what the others hold. -/
private theorem of_step (invariant : AuthStateInvariant slots authority phases)
    (registered : after.slots = authority.slots)
    (quiet : ∀ id owner slot, after.slotAt id = some (owner, slot) → slot.Quiet)
    (answered : ∀ account found, next = .asking (some (account, found)) → slots[account]? = found)
    (own : ∀ held, next = .holding held →
      after.slotAt held.id = some (some task, held.content) ∧ slots[held.account]? = some held.id)
    (others : ∀ other held, other ≠ task → phases other = some (.holding held) →
      after.slotAt held.id = authority.slotAt held.id) :
    AuthStateInvariant slots after (Function.update phases task (some next)) where
  registered := registered.trans invariant.registered
  quiet := quiet
  answered other account found runs := by
    by_cases self : other = task
    · rw [self, Function.update_self] at runs
      exact answered account found (Option.some.inj runs)
    · rw [Function.update_of_ne self] at runs
      exact invariant.answered other account found runs
  held other held runs := by
    by_cases self : other = task
    · subst self
      rw [Function.update_self] at runs
      exact own held (Option.some.inj runs)
    · rw [Function.update_of_ne self] at runs
      rw [others other held self runs]
      exact invariant.held other held runs

theorem executes (invariant : AuthStateInvariant slots authority phases)
    (reached : phases task = some phase) (registered : after.slots = authority.slots)
    (effect : AuthStateEffect task authority after phase next) :
    AuthStateInvariant slots after (Function.update phases task (some next)) := by
  cases effect with
  | keeps entries =>
    rw [update_reached reached]
    exact ⟨registered.trans invariant.registered,
      fun id owner slot present => invariant.quiet id owner slot (entries id ▸ present),
      invariant.answered, fun other held runs => entries held.id ▸ invariant.held other held runs⟩
  | asks account same =>
    subst same
    refine invariant.of_step rfl invariant.quiet ?_ (fun _ holds => by cases holds)
      fun _ _ _ _ => rfl
    rintro _ _ ⟨⟩
    rw [invariant.registered]
  | @looks held account _ same =>
    subst same
    refine invariant.of_step rfl invariant.quiet (fun _ _ asks => by cases asks) ?_
      fun _ _ _ _ => rfl
    rintro _ ⟨⟩
    exact invariant.held task held reached
  | @locks account id content free entries =>
    refine invariant.of_step registered (fun other owner slot present => ?_)
      (fun _ _ asks => by cases asks) ?_ fun other held _ runs => ?_
    · rw [entries] at present
      split at present
      next =>
        cases present
        exact invariant.quiet id none content free
      next => exact invariant.quiet other owner slot present
    · rintro _ ⟨⟩
      refine ⟨(entries id).trans (if_pos rfl), ?_⟩
      exact invariant.answered task account (some id) reached
    · rw [entries, if_neg]
      intro same
      cases invariant.apart runs (same ▸ free)
  | @writes held slot allowed entries =>
    obtain ⟨present, known⟩ := invariant.held task held reached
    have quiet := (allowed (invariant.quiet _ _ _ present)).1
    have written : after.slotAt held.id = some (some task, slot) := by
      rw [entries, if_pos rfl, present]
      rfl
    refine invariant.of_step registered (fun other owner content found => ?_)
      (fun _ _ asks => by cases asks) ?_ fun other taken different runs => ?_
    · by_cases same : other = held.id
      · rw [same, written] at found
        cases found
        exact quiet
      · rw [entries, if_neg same] at found
        exact invariant.quiet other owner content found
    · rintro _ ⟨⟩
      exact ⟨written, known⟩
    · rw [entries, if_neg]
      intro same
      have owner := invariant.apart runs (same ▸ present)
      exact different (Option.some.inj owner).symm
  | @counts held entries =>
    obtain ⟨present, known⟩ := invariant.held task held reached
    refine invariant.of_step registered
      (fun id owner slot present => invariant.quiet id owner slot (entries id ▸ present))
      (fun _ _ asks => by cases asks) ?_ fun _ held _ _ => entries held.id
    rintro _ ⟨⟩
    exact ⟨(entries _).trans present, known⟩
  | @exhausts held same =>
    subst same
    refine invariant.of_step rfl invariant.quiet (fun _ _ asks => by cases asks) ?_
      fun _ _ _ _ => rfl
    rintro _ ⟨⟩
    exact invariant.held task held reached

theorem spawns (invariant : AuthStateInvariant slots authority phases) (task : TaskId) :
    AuthStateInvariant slots authority (Function.update phases task (some (.asking none))) :=
  invariant.of_step rfl invariant.quiet (fun _ _ asks => by cases asks)
    (fun _ holds => by cases holds) fun _ _ _ _ => rfl

theorem leave (invariant : AuthStateInvariant slots authority phases) (task : TaskId) :
    AuthStateInvariant slots (authority.leave task) (Function.update phases task none) where
  registered := invariant.registered
  quiet id owner slot present := by
    rw [slotAt_leave] at present
    obtain ⟨⟨earlier, content⟩, before, moved⟩ := Option.map_eq_some_iff.mp present
    cases moved
    exact invariant.quiet id earlier content before
  answered other account found runs := by
    by_cases self : other = task
    · rw [self, Function.update_self] at runs
      cases runs
    · rw [Function.update_of_ne self] at runs
      exact invariant.answered other account found runs
  held other held runs := by
    by_cases self : other = task
    · rw [self, Function.update_self] at runs
      cases runs
    · rw [Function.update_of_ne self] at runs
      obtain ⟨present, known⟩ := invariant.held other held runs
      refine ⟨?_, known⟩
      rw [slotAt_leave, present]
      simp [self]

theorem initially (rested : authority.Rested) :
    AuthStateInvariant authority.slots authority fun _ => none where
  registered := rfl
  quiet id owner slot present marked := absurd marked (rested.slots id owner slot present).2
  answered _ _ _ runs := by cases runs
  held _ _ runs := by cases runs

end AuthStateInvariant

/-- The calls that prepare a token, interleaved in any way. -/
def authStateDiscipline (slots : BTreeMap String EntryId) :
    Discipline machine AuthorityOperation.program (fun operation => operation.prepares = true)
      AuthStatePhase where
  protocol := AuthStatePhase.protocol
  initial := .asking none
  Final := AuthStatePhase.Final
  Invariant authority phases _ := AuthStateInvariant slots authority phases
  follows := AuthorityOperation.prepares_follows
  spawns invariant _ := invariant.spawns _
  executes invariant reached allowed executed :=
    have effect := authState_effect allowed executed
    invariant.executes reached effect.2 effect.1
  returns invariant _ _ := invariant.leave _
  abandons invariant _ _ _ := invariant.leave _

end TokenAuthority

end ZenithRelay.Accounts
