import ZenithRelay.Accounts.TokenAuthority.Registry

/-!
# The dispatch discipline

Which accesses to a slot an operation may make, and when: tokens are written and
refresh tokens are sent only by the holder of the slot's mutex, after it has
counted the revision up; an account leaves the map only after its slot was retired.
-/

set_option autoImplicit false

namespace ZenithRelay.Accounts

/-- The slot whose mutex a task holds, its contents, and whether the task has counted
the revision up since it took the mutex. -/
structure HeldSlot where
  id : EntryId
  content : TokenSlot
  bumped : Bool

/-- What a task knows: the entry of the map it looked up while the map is locked, the
slots it has seen registered, the slot it retired, the slot it holds and its revision. -/
structure DispatchPhase where
  slotsLocked : Bool
  lookup : Option (String × Option EntryId)
  seen : List (String × EntryId)
  retired : Option EntryId
  held : Option HeldSlot
  revision : Option Nat

namespace DispatchPhase

def initial : DispatchPhase := ⟨false, none, [], none, none, none⟩

/-- The task holds the slot `id`, registered as `accountId` when it was looked up. -/
structure Holding (accountId : String) (id : EntryId) (slot : TokenSlot) (bumped : Bool)
    (phase : DispatchPhase) : Prop where
  seen : (accountId, id) ∈ phase.seen
  held : phase.held = some ⟨id, slot, bumped⟩

/-- The task may return the prepared token: it is the content of the slot it holds, at
the revision it has just read. -/
def Prepared (accountId : String) (phase : DispatchPhase) (prepared : PreparedToken) : Prop :=
  phase.revision = some prepared.dispatchRevision.expectedRevision ∧
    ∃ slot bumped, Holding accountId prepared.dispatchRevision.entry slot bumped phase ∧
      slot.tokens = prepared.tokens

def Allowed (phase : DispatchPhase) : AuthorityAction → Prop
  | .unlockSlots => phase.slotsLocked = true
  | .getSlot _ => phase.slotsLocked = true
  | .insertSlot accountId _ => phase.slotsLocked = true ∧ phase.lookup = some (accountId, none)
  | .removeSlot accountId =>
    phase.slotsLocked = true ∧ phase.lookup = some (accountId, phase.retired)
  | .lockSlot _ => phase.held = none
  | .writeSlot id slot =>
    ∃ content bumped, phase.held = some ⟨id, content, bumped⟩ ∧
      (bumped = true ∨ slot.tokens = content.tokens)
  | .bump id => ∃ content bumped, phase.held = some ⟨id, content, bumped⟩
  | .snapshot id => ∃ content bumped, phase.held = some ⟨id, content, bumped⟩
  | .refreshFenced _ _ _ revision =>
    ∃ content, phase.held = some ⟨revision.entry, content, true⟩
  | _ => True

def after (phase : DispatchPhase) : (action : AuthorityAction) → action.Response → DispatchPhase
  | .lockSlots, _ => { phase with slotsLocked := true, lookup := none }
  | .unlockSlots, _ => { phase with slotsLocked := false, lookup := none }
  | .getSlot accountId, found =>
    { phase with
      lookup := some (accountId, found)
      seen := (found.map fun id => (accountId, id)).toList ++ phase.seen }
  | .insertSlot .., _ => { phase with lookup := none }
  | .removeSlot _, _ => { phase with lookup := none }
  | .lockSlot id, slot => { phase with held := some ⟨id, slot, false⟩, revision := none }
  | .writeSlot _ slot, _ =>
    { phase with held := phase.held.map fun held => { held with content := slot } }
  | .bump _, counted =>
    if counted = true then
      { phase with
        held := phase.held.map fun held => { held with bumped := true }
        revision := none }
    else phase
  | .retire id, _ => { phase with retired := some id }
  | .snapshot _, revisionNumber => { phase with revision := some revisionNumber }
  | _, _ => phase

def protocol : Protocol AuthorityAction.Response DispatchPhase := ⟨Allowed, after⟩

/-- The programs below fail in any phase; what they return is stated of the last one. -/
abbrev Attempts {Result : Type} (returns : DispatchPhase → Result → Prop) (phase : DispatchPhase)
    (program : AuthorityProgram Result) : Prop :=
  protocol.Attempts (fun _ _ => True) returns phase program

/-- The slot that is held, and what was seen, as before. -/
structure Keeps (before after : DispatchPhase) : Prop where
  held : after.held = before.held
  seen : before.seen ⊆ after.seen

theorem Keeps.holding {before after : DispatchPhase} (keeps : before.Keeps after)
    {accountId : String} {id : EntryId} {slot : TokenSlot} {bumped : Bool}
    (holding : Holding accountId id slot bumped before) :
    Holding accountId id slot bumped after :=
  ⟨keeps.seen holding.seen, keeps.held.trans holding.held⟩

end DispatchPhase

namespace TokenAuthority

theorem grants_iff {authority : TokenAuthority} {revision : TokenDispatchRevision} :
    authority.grants revision = true ↔ ∃ entry, authority.entries[revision.entry]? = some entry ∧
      entry.active = true ∧ entry.revisionNumber = revision.expectedRevision := by
  unfold grants
  cases authority.entries[revision.entry]? <;> simp

open DispatchPhase

variable {accountId : String} {id : EntryId} {slot : TokenSlot} {bumped : Bool}
  {phase : DispatchPhase}

theorem fail_attempts {Result : Type} {returns : DispatchPhase → Result → Prop}
    (error : TokenAuthorityError) : Attempts returns phase (fail error) := .throw trivial

/-- Looking an account up under the map's lock, which stays taken. -/
theorem lookup_attempts {Result : Type} {returns : DispatchPhase → Result → Prop}
    (account : String) {continuation : Option EntryId → AuthorityProgram Result}
    (rest : ∀ last found, phase.Keeps last → last.slotsLocked = true →
      last.lookup = some (account, found) → (∀ id ∈ found, (account, id) ∈ last.seen) →
      Attempts returns last (continuation found)) :
    Attempts returns phase
      (do
        perform .lockSlots
        let found ← perform (.getSlot account)
        continuation found) := by
  refine .act trivial fun _ => .act rfl fun found => rest _ found ?_ rfl rfl ?_
  · exact ⟨rfl, List.subset_append_right _ _⟩
  · rintro id rfl
    exact List.mem_append_left _ (List.mem_singleton.mpr rfl)

theorem unlockSlots_attempts {Result : Type} {returns : DispatchPhase → Result → Prop}
    (locked : phase.slotsLocked = true) {continuation : AuthorityProgram Result}
    (rest : ∀ last, phase.Keeps last → Attempts returns last continuation) :
    Attempts returns phase
      (do
        perform .unlockSlots
        continuation) :=
  .act locked fun _ => rest _ ⟨rfl, fun _ member => member⟩

theorem findSlot_attempts (accountId : String) (phase : DispatchPhase) :
    Attempts (fun last found => phase.Keeps last ∧ ∀ id ∈ found, (accountId, id) ∈ last.seen)
      phase (findSlot accountId) := by
  refine lookup_attempts accountId fun last found keeps locked _ seen => ?_
  refine unlockSlots_attempts locked fun _ unlocked => .pure ?_
  exact ⟨⟨unlocked.held.trans keeps.held, fun _ member => unlocked.seen (keeps.seen member)⟩,
    fun id member => unlocked.seen (seen id member)⟩

theorem currentSlots_attempts (accountId : String) (id : EntryId) (phase : DispatchPhase) :
    Attempts (fun last _ => phase.Keeps last ∧ last.slotsLocked = true) phase
      (currentSlots accountId id) := by
  refine lookup_attempts _ fun last registered keeps locked _ _ => ?_
  split
  · exact .pure ⟨keeps, locked⟩
  · exact unlockSlots_attempts locked fun _ _ => fail_attempts _

theorem ensureCurrentSlot_attempts (accountId : String) (id : EntryId) (phase : DispatchPhase) :
    Attempts (fun last _ => phase.Keeps last) phase (ensureCurrentSlot accountId id) := by
  refine .bind (currentSlots_attempts accountId id phase) ?_
  rintro last _ ⟨keeps, locked⟩
  refine Protocol.Attempts.act_last AuthorityAction.unlockSlots ?_ ?_
  · exact locked
  · exact fun _ => ⟨keeps.held, keeps.seen⟩

theorem bump_attempts (holding : Holding accountId id slot bumped phase) :
    Attempts (fun last _ => Holding accountId id slot true last ∧
        last.slotsLocked = phase.slotsLocked) phase (bump id) := by
  refine .act ⟨slot, bumped, holding.held⟩ fun counted => ?_
  cases counted with
  | false => exact .throw trivial
  | true =>
      refine .pure ⟨⟨holding.seen, ?_⟩, rfl⟩
      simp [protocol, DispatchPhase.after, holding.held]

theorem snapshot_attempts (holding : Holding accountId id slot bumped phase) :
    Attempts (fun last revision => Holding accountId id slot bumped last ∧ revision.entry = id ∧
        last.revision = some revision.expectedRevision)
      phase (snapshot id) :=
  .act ⟨slot, bumped, holding.held⟩ fun _ => .pure ⟨⟨holding.seen, holding.held⟩, rfl, rfl⟩

theorem writeSlot_attempts (holding : Holding accountId id slot bumped phase)
    {written : TokenSlot} (allowed : bumped = true ∨ written.tokens = slot.tokens) :
    Attempts (fun last result => result = written ∧ Holding accountId id written bumped last ∧
        last.slotsLocked = phase.slotsLocked) phase (writeSlot id written) := by
  refine .act ⟨slot, bumped, holding.held, allowed⟩ fun _ =>
    .pure ⟨rfl, ⟨holding.seen, ?_⟩, rfl⟩
  simp [protocol, DispatchPhase.after, holding.held]

/-- A write that keeps the tokens needs no new revision. -/
theorem writeSlot_keeps (holding : Holding accountId id slot bumped phase) {written : TokenSlot}
    (same : written.tokens = slot.tokens) :
    Attempts (fun last result => result.tokens = slot.tokens ∧
        Holding accountId id result bumped last) phase (writeSlot id written) := by
  refine .mono ?_ (writeSlot_attempts holding (.inr same))
  rintro last result ⟨rfl, written, -⟩
  exact ⟨same, written⟩

theorem persistTokens_attempts (holding : Holding accountId id slot bumped phase)
    (account : String) (tokens : TokenSet) :
    Attempts (fun last _ => Holding accountId id slot bumped last) phase
      (persistTokens account id tokens) := by
  refine .bind (snapshot_attempts holding) ?_
  rintro last revision ⟨held, -, -⟩
  refine .act trivial fun persisted => ?_
  cases persisted with
  | ok _ => exact .pure held
  | error code => exact fail_attempts _

theorem persistAuthStateCall_attempts (holding : Holding accountId id slot bumped phase)
    (account : String) (authState : AccountAuthState) :
    Attempts (fun last _ => Holding accountId id slot bumped last) phase
      (persistAuthStateCall account id authState) := by
  refine .bind (snapshot_attempts holding) ?_
  rintro last revision ⟨held, -, -⟩
  refine .act trivial fun persisted => ?_
  cases persisted with
  | ok _ => exact .pure held
  | error code => exact fail_attempts _

/-- What a stage of `prepare_inner` does that leaves the tokens alone. -/
abbrev KeepsTokens (accountId : String) (id : EntryId) (slot : TokenSlot) (bumped : Bool)
    (last : DispatchPhase) (result : TokenSlot) : Prop :=
  result.tokens = slot.tokens ∧ Holding accountId id result bumped last

theorem persistAuthState_attempts (holding : Holding accountId id slot bumped phase)
    (persistence : Bool) (account : String) :
    Attempts (KeepsTokens accountId id slot bumped) phase
      (persistAuthState persistence account id slot) := by
  unfold persistAuthState
  split
  · refine .bind (writeSlot_keeps holding rfl) ?_
    rintro _ marked ⟨sameMarked, holding⟩
    refine .bind (persistAuthStateCall_attempts holding account marked.authState) ?_
    intro _ _ holding
    refine .mono ?_ (writeSlot_keeps holding rfl)
    exact fun _ _ kept => ⟨kept.1.trans sameMarked, kept.2⟩
  · exact .pure ⟨rfl, holding⟩

theorem settlePendingTokens_attempts (holding : Holding accountId id slot bumped phase)
    (persistence : Bool) :
    Attempts (KeepsTokens accountId id slot bumped) phase
      (settlePendingTokens persistence accountId id slot) := by
  unfold settlePendingTokens
  split
  · split
    · refine .bind (persistTokens_attempts holding accountId slot.tokens) ?_
      intro _ _ holding
      refine .bind (ensureCurrentSlot_attempts accountId id _) ?_
      intro _ _ keeps
      exact writeSlot_keeps (keeps.holding holding) rfl
    · exact fail_attempts _
  · exact .pure ⟨rfl, holding⟩

theorem settlePendingAuthState_attempts (holding : Holding accountId id slot bumped phase)
    (persistence : Bool) :
    Attempts (KeepsTokens accountId id slot bumped) phase
      (settlePendingAuthState persistence accountId id slot) := by
  unfold settlePendingAuthState
  split
  · split
    · refine .bind (persistAuthStateCall_attempts holding accountId slot.authState) ?_
      intro _ _ holding
      refine .bind (ensureCurrentSlot_attempts accountId id _) ?_
      intro _ _ keeps
      exact writeSlot_keeps (keeps.holding holding) rfl
    · exact fail_attempts _
  · exact .pure ⟨rfl, holding⟩

theorem healReusedRefreshToken_attempts (holding : Holding accountId id slot bumped phase)
    (persistence : Bool) :
    Attempts (fun last result => ∃ bumped, KeepsTokens accountId id slot bumped last result) phase
      (healReusedRefreshToken persistence accountId id slot) := by
  unfold healReusedRefreshToken
  split
  · refine .bind (bump_attempts holding) ?_
    rintro _ _ ⟨holding, -⟩
    refine .bind (writeSlot_keeps holding rfl) ?_
    rintro _ healed ⟨sameHealed, holding⟩
    refine .bind (persistAuthState_attempts holding persistence accountId) ?_
    rintro _ stored ⟨sameStored, holding⟩
    refine .bind (ensureCurrentSlot_attempts accountId id _) ?_
    intro _ _ keeps
    exact .pure ⟨true, sameStored.trans sameHealed, keeps.holding holding⟩
  · exact .pure ⟨bumped, rfl, holding⟩

theorem persistRefreshed_attempts (holding : Holding accountId id slot bumped phase)
    (persistence : Bool) :
    Attempts (fun last _ => ∃ result, KeepsTokens accountId id slot bumped last result) phase
      (persistRefreshed persistence accountId id slot) := by
  unfold persistRefreshed
  split
  · refine .bind (writeSlot_keeps holding rfl) ?_
    rintro _ pending ⟨samePending, holding⟩
    refine .bind (persistTokens_attempts holding accountId pending.tokens) ?_
    intro _ _ holding
    refine .bind (ensureCurrentSlot_attempts accountId id _) ?_
    intro _ _ keeps
    refine .bind (writeSlot_keeps (keeps.holding holding) rfl) ?_
    rintro _ settled ⟨sameSettled, holding⟩
    refine .bind (persistAuthState_attempts holding true accountId) ?_
    rintro _ stored ⟨sameStored, holding⟩
    refine .mono ?_ (ensureCurrentSlot_attempts accountId id _)
    intro _ _ keeps
    exact ⟨stored, sameStored.trans (sameSettled.trans samePending), keeps.holding holding⟩
  · exact .pure ⟨slot, rfl, holding⟩

/-- A snapshot of the slot's content may be returned as a prepared token. -/
theorem returnPrepared_attempts (holding : Holding accountId id slot bumped phase)
    (status : PrepareStatus) {tokens : TokenSet} (same : slot.tokens = tokens) :
    Attempts (Prepared accountId) phase
      (do
        let revision ← snapshot id
        return ⟨status, tokens, revision⟩) := by
  refine .bind (snapshot_attempts holding) ?_
  rintro last revision ⟨holding, rfl, read⟩
  exact .pure ⟨read, slot, bumped, holding, same⟩

theorem installRefreshed_attempts (holding : Holding accountId id slot bumped phase)
    (persistence : Bool) (tokens : TokenSet) :
    Attempts (Prepared accountId) phase
      (installRefreshed persistence accountId id slot tokens) := by
  refine lookup_attempts accountId fun last found keeps locked _ _ => ?_
  split
  · refine .bind (bump_attempts (keeps.holding holding)) ?_
    rintro _ _ ⟨holding, stillLocked⟩
    refine .bind (writeSlot_attempts holding (.inl rfl)) ?_
    rintro _ _ ⟨rfl, holding, lockedSince⟩
    refine unlockSlots_attempts (lockedSince.trans (stillLocked.trans locked)) fun _ keeps => ?_
    refine .bind (persistRefreshed_attempts (keeps.holding holding) persistence) ?_
    rintro _ _ ⟨stored, same, holding⟩
    exact returnPrepared_attempts holding .refreshed same
  · exact fail_attempts _

theorem settleRefreshFailure_attempts (holding : Holding accountId id slot bumped phase)
    (persistence : Bool) (previousAuthState : AccountAuthState) (failure : TokenRefreshFailure) :
    Attempts (Prepared accountId) phase
      (settleRefreshFailure persistence accountId id slot previousAuthState failure) := by
  refine .bind (ensureCurrentSlot_attempts accountId id phase) ?_
  intro _ _ keeps
  split
  · refine .bind (writeSlot_keeps (keeps.holding holding) rfl) ?_
    rintro _ _ ⟨-, holding⟩
    refine .bind (persistAuthState_attempts holding persistence accountId) ?_
    intro last _ _
    exact .bind (ensureCurrentSlot_attempts accountId id last) fun _ _ _ => fail_attempts _
  · exact .bind (writeSlot_keeps (keeps.holding holding) rfl) fun _ _ _ => fail_attempts _

theorem refreshSlot_attempts (holding : Holding accountId id slot bumped phase)
    (persistence : Bool) (refreshToken : String) (nowMs : Nat) :
    Attempts (Prepared accountId) phase
      (refreshSlot persistence accountId id slot refreshToken nowMs) := by
  refine .bind (bump_attempts holding) ?_
  rintro _ _ ⟨holding, -⟩
  refine .bind (writeSlot_keeps holding rfl) ?_
  rintro _ refreshing ⟨-, holding⟩
  refine .bind (snapshot_attempts holding) ?_
  rintro _ revision ⟨holding, rfl, -⟩
  refine .act ⟨refreshing, holding.held⟩ fun exchange => ?_
  cases exchange with
  | ok refreshed => exact installRefreshed_attempts holding persistence _
  | error failure => exact settleRefreshFailure_attempts holding persistence _ failure

theorem degradeAccessOnly_attempts (holding : Holding accountId id slot bumped phase)
    (persistence : Bool) :
    Attempts (Prepared accountId) phase (degradeAccessOnly persistence accountId id slot) := by
  refine .bind (bump_attempts holding) ?_
  rintro _ _ ⟨holding, -⟩
  refine .bind (writeSlot_keeps holding rfl) ?_
  rintro _ _ ⟨-, holding⟩
  refine .bind (persistAuthState_attempts holding persistence accountId) ?_
  intro last _ _
  exact .bind (ensureCurrentSlot_attempts accountId id last) fun _ _ _ => fail_attempts _

theorem selectToken_attempts (holding : Holding accountId id slot bumped phase)
    (persistence : Bool) (nowMs refreshSkewMs : Nat) :
    Attempts (Prepared accountId) phase
      (selectToken persistence accountId id slot nowMs refreshSkewMs) := by
  unfold selectToken
  split
  · exact fail_attempts _
  · split
    · exact returnPrepared_attempts holding .ready rfl
    · split
      · exact degradeAccessOnly_attempts holding persistence
      · exact refreshSlot_attempts holding persistence _ nowMs

theorem prepareLocked_attempts (holding : Holding accountId id slot bumped phase)
    (persistence : Bool) (nowMs refreshSkewMs : Nat) :
    Attempts (Prepared accountId) phase
      (prepareLocked persistence accountId id slot nowMs refreshSkewMs) := by
  refine .bind (ensureCurrentSlot_attempts accountId id phase) ?_
  intro _ _ keeps
  refine .bind (settlePendingTokens_attempts (keeps.holding holding) persistence) ?_
  rintro _ _ ⟨-, holding⟩
  refine .bind (settlePendingAuthState_attempts holding persistence) ?_
  rintro _ _ ⟨-, holding⟩
  refine .bind (healReusedRefreshToken_attempts holding persistence) ?_
  rintro _ _ ⟨_, -, holding⟩
  exact selectToken_attempts holding persistence nowMs refreshSkewMs

/-- Taking the mutex of a slot that was seen registered. -/
theorem lockSlot_attempts {Result : Type} {returns : DispatchPhase → Result → Prop}
    (free : phase.held = none) (seen : (accountId, id) ∈ phase.seen)
    {continuation : TokenSlot → AuthorityProgram Result}
    (rest : ∀ last slot, Holding accountId id slot false last →
      Attempts returns last (continuation slot)) :
    Attempts returns phase
      (do
        let slot ← perform (.lockSlot id)
        continuation slot) :=
  .act free fun slot => rest _ slot ⟨seen, rfl⟩

theorem prepareInner_attempts (accountId : String) (persistence : Bool)
    (nowMs refreshSkewMs : Nat) :
    Attempts (Prepared accountId) .initial
      (prepareInner persistence accountId nowMs refreshSkewMs) := by
  refine .bind (findSlot_attempts accountId .initial) ?_
  rintro last found ⟨keeps, seen⟩
  cases found with
  | none => exact fail_attempts _
  | some id =>
      exact lockSlot_attempts keeps.held (seen id rfl) fun _ _ holding =>
        prepareLocked_attempts holding persistence nowMs refreshSkewMs

/-! ## The operations that replace or remove -/

/-- What an operation returns that hands out no token. -/
abbrev Any {Result : Type} (_ : DispatchPhase) (_ : Result) : Prop := True

theorem prepareSlot_attempts (accountId : String) (candidate : TokenSlot) :
    Attempts (fun last found => last.held = none ∧
        ∀ id ∈ found, ∃ account, (account, id) ∈ last.seen) .initial
      (prepareSlot accountId candidate) := by
  unfold prepareSlot
  dsimp only
  split
  · exact fail_attempts _
  · refine lookup_attempts _ fun last found keeps locked looked seen => ?_
    cases found with
    | some id =>
        refine unlockSlots_attempts locked fun _ unlocked => .pure ?_
        exact ⟨unlocked.held.trans keeps.held,
          fun other member => ⟨_, unlocked.seen (seen other member)⟩⟩
    | none =>
        refine .act trivial fun full => ?_
        split
        · exact fail_attempts _
        · exact .act ⟨locked, looked⟩ fun _ => .act locked fun _ => .pure ⟨keeps.held, nofun⟩

private theorem replaceRegistered_attempts (account : String) (candidate : TokenSlot)
    (accepts : TokenSlot → Bool) (free : phase.held = none) (seen : (accountId, id) ∈ phase.seen) :
    Attempts Any phase (replaceRegistered account id candidate accepts) := by
  refine lockSlot_attempts free seen fun last slot holding => ?_
  refine .bind (currentSlots_attempts account id last) ?_
  rintro _ _ ⟨keeps, -⟩
  split
  · refine .bind (bump_attempts (keeps.holding holding)) ?_
    rintro _ _ ⟨holding, -⟩
    exact .bind (writeSlot_attempts holding (.inl rfl)) fun _ _ _ => .pure trivial
  · exact .pure trivial

theorem registerWhen_attempts (accountId : String) (candidate : TokenSlot)
    (accepts : TokenSlot → Bool) :
    Attempts Any .initial (registerWhen accountId candidate accepts) := by
  refine .bind (prepareSlot_attempts accountId candidate) ?_
  rintro last found ⟨free, seen⟩
  cases found with
  | none => exact .pure trivial
  | some id =>
      obtain ⟨account, seen⟩ := seen id rfl
      exact replaceRegistered_attempts accountId candidate accepts free seen

private theorem registerIfAbsent_attempts (accountId : String) (tokens : TokenSet)
    (authState : AccountAuthState) :
    Attempts Any .initial (registerIfAbsent accountId tokens authState) :=
  .bind (prepareSlot_attempts accountId _) fun _ _ _ => .pure trivial

/-- The check under the map's lock that an operation on a slot makes last. -/
theorem lockRegistered_attempts (accountId : String) (id : EntryId) (phase : DispatchPhase) :
    Attempts (fun last registered => phase.Keeps last ∧ last.slotsLocked = true ∧
        (registered = true → last.lookup = some (accountId, some id)))
      phase (lockRegistered accountId id) := by
  refine lookup_attempts accountId fun last found keeps locked looked _ => .pure ?_
  refine ⟨keeps, locked, fun registered => ?_⟩
  rw [looked, of_decide_eq_true registered]

private theorem replaceIfCurrent_attempts (accountId : String) (expectedTokens : TokenSet)
    (expectedAuthState : AccountAuthState) (replacementTokens : TokenSet)
    (replacementAuthState : AccountAuthState) :
    Attempts Any .initial (replaceIfCurrent accountId expectedTokens expectedAuthState
      replacementTokens replacementAuthState) := by
  unfold replaceIfCurrent
  dsimp only
  split
  · exact fail_attempts _
  · refine .bind (findSlot_attempts _ .initial) ?_
    rintro last found ⟨keeps, seen⟩
    cases found with
    | none => exact .pure trivial
    | some id =>
        refine lockSlot_attempts keeps.held (seen id rfl) fun last slot holding => ?_
        split
        · exact .pure trivial
        · refine .bind (lockRegistered_attempts _ id last) ?_
          rintro _ registered ⟨keeps, locked, -⟩
          split
          · refine .bind (bump_attempts (keeps.holding holding)) ?_
            rintro _ _ ⟨holding, stillLocked⟩
            refine unlockSlots_attempts (stillLocked.trans locked) fun _ unlocked => ?_
            exact .bind (writeSlot_attempts (unlocked.holding holding) (.inl rfl))
              fun _ _ _ => .pure trivial
          · exact .pure trivial

/-- A registered slot is retired and then leaves the map. -/
theorem retireAndRemove_attempts (locked : phase.slotsLocked = true)
    (looked : phase.lookup = some (accountId, some id)) :
    Attempts Any phase
      (do
        perform (.retire id)
        perform (.removeSlot accountId)
        return true) :=
  .act trivial fun _ => .act ⟨locked, looked⟩ fun _ => .pure trivial

private theorem removeIfCurrent_attempts (accountId : String) (expectedTokens : TokenSet)
    (expectedAuthState : AccountAuthState) :
    Attempts Any .initial (removeIfCurrent accountId expectedTokens expectedAuthState) := by
  unfold removeIfCurrent
  dsimp only
  split
  · exact fail_attempts _
  · refine .bind (findSlot_attempts _ .initial) ?_
    rintro last found ⟨keeps, seen⟩
    cases found with
    | none => exact .pure trivial
    | some id =>
        refine lockSlot_attempts keeps.held (seen id rfl) fun last slot holding => ?_
        split
        · exact .pure trivial
        · refine .bind (lockRegistered_attempts _ id last) ?_
          rintro _ registered ⟨-, locked, looked⟩
          split
          next isRegistered => exact retireAndRemove_attempts locked (looked isRegistered)
          · exact .pure trivial

private theorem remove_attempts (accountId : String) : Attempts Any .initial (remove accountId) := by
  refine .act trivial fun _ => .act rfl fun found => ?_
  cases found with
  | some id => exact retireAndRemove_attempts rfl rfl
  | none => exact .act ⟨rfl, rfl⟩ fun _ => .pure trivial

theorem persistInvalidated_attempts (holding : Holding accountId id slot true phase)
    (account : String) (nowMs : Nat) :
    Attempts Any phase (persistInvalidated account id slot nowMs) := by
  refine .bind (writeSlot_attempts holding (.inl rfl)) ?_
  rintro _ _ ⟨rfl, holding, -⟩
  refine .bind (persistTokens_attempts holding account _) ?_
  intro _ _ holding
  refine .bind (ensureCurrentSlot_attempts account id _) ?_
  intro _ _ keeps
  exact .bind (writeSlot_keeps (keeps.holding holding) rfl) fun _ _ _ => .pure trivial

theorem invalidateAccessWithFence_attempts (accountId : String) (fence : InvalidationFence)
    (nowMs : Nat) :
    Attempts Any .initial (invalidateAccessWithFence accountId fence nowMs) := by
  refine .bind (findSlot_attempts accountId .initial) ?_
  rintro last found ⟨keeps, seen⟩
  cases found with
  | none => exact fail_attempts _
  | some id =>
      refine lockSlot_attempts keeps.held (seen id rfl) fun last slot holding => ?_
      refine .bind (snapshot_attempts holding) ?_
      rintro last current ⟨holding, -, -⟩
      split
      · exact .pure trivial
      · refine .bind (lockRegistered_attempts accountId id last) ?_
        rintro _ registered ⟨keeps, locked, -⟩
        split
        · refine .bind (bump_attempts (keeps.holding holding)) ?_
          rintro _ _ ⟨holding, stillLocked⟩
          refine unlockSlots_attempts (stillLocked.trans locked) fun _ unlocked => ?_
          exact persistInvalidated_attempts (unlocked.holding holding) accountId nowMs
        · exact .pure trivial

end TokenAuthority

namespace DispatchPhase

/-- A token is only returned while its slot is held at its revision. -/
def Final (phase : DispatchPhase) : AuthorityResult → Prop
  | .prepared accountId (.ok prepared) => Prepared accountId phase prepared
  | _ => True

end DispatchPhase

namespace AuthorityOperation

open DispatchPhase

theorem changing_follows {program : AuthorityProgram Bool}
    (attempts : DispatchPhase.Attempts TokenAuthority.Any .initial program) :
    protocol.Follows Final .initial (changing program) :=
  .bind attempts fun _ _ _ => .done trivial

theorem preparing_follows {accountId : String} {program : AuthorityProgram PreparedToken}
    (attempts : DispatchPhase.Attempts (Prepared accountId) .initial program) :
    protocol.Follows Final .initial (preparing accountId program) := by
  refine .bind attempts ?_
  intro last result holds
  cases result with
  | ok prepared => exact .done holds
  | error failure => exact .done trivial

/-- Every operation keeps to the discipline. -/
theorem program_follows (operation : AuthorityOperation) :
    protocol.Follows Final .initial operation.program := by
  cases operation with
  | register accountId tokens authState =>
      exact changing_follows (TokenAuthority.registerWhen_attempts accountId _ _)
  | registerIfNewer accountId tokens authState =>
      exact changing_follows (TokenAuthority.registerWhen_attempts accountId _ _)
  | registerIfNotStale accountId tokens authState =>
      exact changing_follows (TokenAuthority.registerWhen_attempts accountId _ _)
  | registerIfAbsent accountId tokens authState =>
      exact changing_follows (TokenAuthority.registerIfAbsent_attempts accountId tokens authState)
  | replaceIfCurrent accountId expectedTokens expectedAuthState replacementTokens
      replacementAuthState =>
      exact changing_follows (TokenAuthority.replaceIfCurrent_attempts ..)
  | removeIfCurrent accountId expectedTokens expectedAuthState =>
      exact changing_follows (TokenAuthority.removeIfCurrent_attempts ..)
  | remove accountId => exact changing_follows (TokenAuthority.remove_attempts accountId)
  | prepare accountId nowMs refreshSkewMs =>
      exact preparing_follows (TokenAuthority.prepareInner_attempts accountId false _ _)
  | prepareAndPersist accountId nowMs refreshSkewMs =>
      exact preparing_follows (TokenAuthority.prepareInner_attempts accountId true _ _)
  | invalidateAccessAndPersist accountId nowMs =>
      exact changing_follows (TokenAuthority.invalidateAccessWithFence_attempts accountId _ nowMs)
  | invalidateAccessGenerationAndPersist accountId failedGeneration nowMs =>
      exact changing_follows (TokenAuthority.invalidateAccessWithFence_attempts accountId _ nowMs)
  | invalidateAccessRevisionAndPersist accountId rejectedRevision nowMs =>
      exact changing_follows (TokenAuthority.invalidateAccessWithFence_attempts accountId _ nowMs)
  | invalidateAccessIfCurrentAndPersist accountId rejectedTokens nowMs =>
      exact changing_follows (TokenAuthority.invalidateAccessWithFence_attempts accountId _ nowMs)
  | dispatch revision => exact .perform trivial fun _ => .done trivial

end AuthorityOperation

end ZenithRelay.Accounts
