import ZenithRelay.Accounts.TokenAuthority.Registry

/-!
# The durability discipline

What an operation that persists may do with a slot it holds: a refresh token is
exchanged only while nothing is unsaved, the exchanged set is what is written next,
and from then on the tokens are pending until an adapter has taken them.
-/

set_option autoImplicit false

namespace ZenithRelay.Accounts

/-- How far a task is with the exchange of the refresh token. -/
inductive ExchangeStage where
  | untried
  | answered (exchange : TokenRefresh) (refreshToken : String) (nowMs : Nat)
  | installed

def ExchangeStage.isAnswered : ExchangeStage → Bool
  | .answered .. => true
  | _ => false

/-- The slot whose mutex a task holds, its contents, whether an adapter is known to
have taken its tokens, and the stage of the exchange. -/
structure HeldTokens where
  id : EntryId
  content : TokenSlot
  saved : Bool
  stage : ExchangeStage

namespace HeldTokens

/-- Nothing is unsaved. -/
def Settled (held : HeldTokens) : Prop :=
  held.content.persistencePending = false ∧ held.saved = true

/-- The slot can be given up: its tokens are saved, or marked as pending. -/
def Safe (held : HeldTokens) : Prop :=
  held.saved = true ∨ held.content.persistencePending = true

/-- The mark of pending tokens is only taken away once they are saved. -/
def KeepsTokens (held : HeldTokens) (slot : TokenSlot) : Prop :=
  slot.tokens = held.content.tokens ∧ (slot.persistencePending = true ∨ held.saved = true)

def Writes (held : HeldTokens) (slot : TokenSlot) : Prop :=
  match held.stage with
  | .untried =>
    held.KeepsTokens slot ∨
      (∃ nowMs, slot.tokens = held.content.tokens.invalidated nowMs) ∧
        slot.persistencePending = true
  | .answered exchange refreshToken nowMs =>
    held.Settled ∧ slot.tokens = held.content.tokens.refreshed exchange refreshToken nowMs
  | .installed => held.KeepsTokens slot

def write (held : HeldTokens) (slot : TokenSlot) : HeldTokens :=
  match held.stage with
  | .untried =>
    { held with
      content := slot
      saved :=
        held.saved && !slot.persistencePending && decide (slot.tokens = held.content.tokens) }
  | .answered .. => { held with content := slot, saved := false, stage := .installed }
  | .installed =>
    { held with content := slot, saved := held.saved && !slot.persistencePending }

variable {held : HeldTokens} {slot : TokenSlot}

theorem write_id (held : HeldTokens) (slot : TokenSlot) : (held.write slot).id = held.id := by
  unfold write
  split <;> rfl

theorem write_content (held : HeldTokens) (slot : TokenSlot) :
    (held.write slot).content = slot := by
  unfold write
  split <;> rfl

/-- What is known to be saved after a write was saved before it, and was not changed. -/
theorem saved_before_write (allowed : held.Writes slot) (saved : (held.write slot).saved = true) :
    held.saved = true ∧ slot.tokens = held.content.tokens := by
  unfold write at saved
  unfold Writes at allowed
  cases stage : held.stage with
  | untried =>
      simp only [stage, Bool.and_eq_true, decide_eq_true_eq] at saved
      exact ⟨saved.1.1, saved.2⟩
  | answered => simp [stage] at saved
  | installed =>
      simp only [stage, Bool.and_eq_true] at saved allowed
      exact ⟨saved.1, allowed.1⟩

end HeldTokens

/-- The slot that a task holds, if any. -/
abbrev DurabilityPhase := Option HeldTokens

namespace DurabilityPhase

def Safe (phase : DurabilityPhase) : Prop := ∀ held, phase = some held → held.Safe

def Allowed (phase : DurabilityPhase) : AuthorityAction → Prop
  | .insertSlot .. | .removeSlot _ | .retire _ => False
  | .lockSlot _ => phase = none
  | .writeSlot id slot => ∃ held, phase = some held ∧ held.id = id ∧ held.Writes slot
  | .refreshFenced _ _ _ revision =>
    ∃ held, phase = some held ∧ held.id = revision.entry ∧ held.Settled ∧ held.stage = .untried
  | .persistFenced _ tokens revision =>
    ∃ held, phase = some held ∧ held.id = revision.entry ∧
      held.content.persistencePending = true ∧ held.saved = false ∧ tokens = held.content.tokens
  | .persistAuthStateFenced _ _ revision =>
    ∃ held, phase = some held ∧ held.id = revision.entry ∧ held.Settled
  | _ => True

def after (phase : DurabilityPhase) : (action : AuthorityAction) → action.Response → DurabilityPhase
  | .lockSlot id, slot => some ⟨id, slot, !slot.persistencePending, .untried⟩
  | .writeSlot _ slot, _ => phase.map fun held => held.write slot
  | .refreshFenced _ refreshToken nowMs _, .ok exchange =>
    phase.map fun held => { held with stage := .answered exchange refreshToken nowMs }
  | .persistFenced .., .ok () => phase.map fun held => { held with saved := true }
  | _, _ => phase

def protocol : Protocol AuthorityAction.Response DurabilityPhase := ⟨Allowed, after⟩

/-- A program that fails leaves a slot that can be given up. -/
abbrev Attempts {Result : Type} (returns : DurabilityPhase → Result → Prop)
    (phase : DurabilityPhase) (program : AuthorityProgram Result) : Prop :=
  protocol.Attempts (fun last _ => Safe last) returns phase program

/-- Nothing is unsaved in the slot that is held. -/
structure SettledAt (id : EntryId) (slot : TokenSlot) (stage : ExchangeStage)
    (phase : DurabilityPhase) : Prop where
  held : phase = some ⟨id, slot, true, stage⟩
  pending : slot.persistencePending = false

variable {id : EntryId} {slot : TokenSlot} {stage : ExchangeStage} {phase : DurabilityPhase}

theorem SettledAt.settled (now : SettledAt id slot stage phase) :
    ∃ held, phase = some held ∧ held.id = id ∧ held.Settled :=
  ⟨_, now.held, rfl, now.pending, rfl⟩

theorem SettledAt.safe (now : SettledAt id slot stage phase) : phase.Safe := by
  intro held holds
  rw [now.held] at holds
  cases holds
  exact .inl rfl

theorem safe_none : Safe none := fun _ holds => by cases holds

theorem safe_some {held : HeldTokens} (safe : held.Safe) : Safe (some held) := by
  rintro _ ⟨⟩
  exact safe

end DurabilityPhase

namespace TokenAuthority.Durable

open DurabilityPhase

variable {accountId : String} {id : EntryId} {slot : TokenSlot} {stage : ExchangeStage}
  {phase : DurabilityPhase}

theorem fail_attempts {Result : Type} {returns : DurabilityPhase → Result → Prop}
    (error : TokenAuthorityError) (safe : phase.Safe) : Attempts returns phase (fail error) :=
  .throw safe

/-- An action that neither reads nor changes what the task holds. -/
theorem step_attempts {Result : Type} {returns : DurabilityPhase → Result → Prop}
    (action : AuthorityAction) (allowed : phase.Allowed action)
    (same : ∀ response, phase.after action response = phase)
    {continuation : action.Response → AuthorityProgram Result}
    (rest : ∀ response, Attempts returns phase (continuation response)) :
    Attempts returns phase (perform action >>= continuation) := by
  refine .act allowed fun response => ?_
  have stays : protocol.after phase action response = phase := same response
  rw [stays]
  exact rest response

theorem findSlot_attempts (accountId : String) (phase : DurabilityPhase) :
    Attempts (fun last _ => last = phase) phase (findSlot accountId) :=
  step_attempts .lockSlots trivial (fun _ => rfl) fun _ =>
    step_attempts (.getSlot accountId) trivial (fun _ => rfl) fun _ =>
      step_attempts .unlockSlots trivial (fun _ => rfl) fun _ => .pure rfl

theorem currentSlots_attempts (accountId : String) (id : EntryId) (safe : phase.Safe) :
    Attempts (fun last _ => last = phase) phase (currentSlots accountId id) := by
  refine step_attempts .lockSlots trivial (fun _ => rfl) fun _ =>
    step_attempts (.getSlot _) trivial (fun _ => rfl) fun registered => ?_
  split
  · exact .pure rfl
  · exact step_attempts .unlockSlots trivial (fun _ => rfl) fun _ => fail_attempts _ safe

theorem ensureCurrentSlot_attempts (accountId : String) (id : EntryId) (safe : phase.Safe) :
    Attempts (fun last _ => last = phase) phase (ensureCurrentSlot accountId id) := by
  refine .bind (currentSlots_attempts accountId id safe) ?_
  rintro _ _ rfl
  exact Protocol.Attempts.act_last AuthorityAction.unlockSlots trivial fun _ => rfl

theorem lockRegistered_attempts (accountId : String) (id : EntryId) (phase : DurabilityPhase) :
    Attempts (fun last _ => last = phase) phase (lockRegistered accountId id) :=
  step_attempts .lockSlots trivial (fun _ => rfl) fun _ =>
    step_attempts (.getSlot accountId) trivial (fun _ => rfl) fun _ => .pure rfl

theorem bump_attempts (id : EntryId) (safe : phase.Safe) :
    Attempts (fun last _ => last = phase) phase (bump id) := by
  refine step_attempts (.bump id) trivial (fun _ => rfl) fun counted => ?_
  split
  · exact .pure rfl
  · exact .throw safe

theorem snapshot_attempts (id : EntryId) (phase : DurabilityPhase) :
    Attempts (fun last revision => last = phase ∧ revision.entry = id) phase (snapshot id) :=
  step_attempts (.snapshot id) trivial (fun _ => rfl) fun _ => .pure ⟨rfl, rfl⟩

theorem writeSlot_attempts {held : HeldTokens} (holds : phase = some held) {written : TokenSlot}
    (writes : held.Writes written) :
    Attempts (fun last result => result = written ∧ last = some (held.write written)) phase
      (writeSlot held.id written) := by
  refine .act ⟨held, holds, rfl, writes⟩ fun _ => .pure ⟨rfl, ?_⟩
  rw [holds]
  rfl

/-- A write that leaves the tokens saved. -/
theorem writeSettled_attempts (settled : SettledAt id slot stage phase)
    (unanswered : stage.isAnswered = false) {written : TokenSlot}
    (tokens : written.tokens = slot.tokens) (pending : written.persistencePending = false) :
    Attempts (fun last result => result = written ∧ SettledAt id written stage last) phase
      (writeSlot id written) := by
  have keeps : HeldTokens.Writes ⟨id, slot, true, stage⟩ written := by
    cases stage with
    | untried => exact .inl ⟨tokens, .inr rfl⟩
    | answered => cases unanswered
    | installed => exact ⟨tokens, .inr rfl⟩
  refine .mono ?_ (writeSlot_attempts settled.held keeps)
  rintro last result ⟨rfl, rfl⟩
  refine ⟨rfl, ?_, pending⟩
  cases stage with
  | untried => simp [HeldTokens.write, tokens, pending]
  | answered => cases unanswered
  | installed => simp [HeldTokens.write, pending]

/-- The persistence of pending tokens; a failure leaves them pending. -/
theorem persistTokens_attempts (account : String)
    (holds : phase = some ⟨id, slot, false, stage⟩) (pending : slot.persistencePending = true) :
    Attempts (fun last _ => last = some ⟨id, slot, true, stage⟩) phase
      (persistTokens account id slot.tokens) := by
  refine .bind (snapshot_attempts id phase) ?_
  rintro _ revision ⟨rfl, rfl⟩
  refine .act ⟨_, holds, rfl, pending, rfl, rfl⟩ fun persisted => ?_
  cases persisted with
  | ok _ =>
      refine .pure ?_
      rw [holds]
      rfl
  | error code =>
      refine fail_attempts _ ?_
      rw [holds]
      exact safe_some (.inr pending)

theorem persistAuthStateCall_attempts (account : String) (authState : AccountAuthState)
    (settled : SettledAt id slot stage phase) :
    Attempts (fun last _ => last = phase) phase (persistAuthStateCall account id authState) := by
  refine .bind (snapshot_attempts id phase) ?_
  rintro _ revision ⟨rfl, rfl⟩
  refine step_attempts (.persistAuthStateFenced account authState revision) settled.settled
    (fun _ => rfl) fun persisted => ?_
  cases persisted with
  | ok _ => exact .pure rfl
  | error code => exact fail_attempts _ settled.safe

/-- What a stage of `prepare_inner` leaves behind: the same tokens, and saved. -/
abbrev StaysSettled (id : EntryId) (slot : TokenSlot) (stage : ExchangeStage)
    (last : DurabilityPhase) (result : TokenSlot) : Prop :=
  result.tokens = slot.tokens ∧ SettledAt id result stage last

theorem persistAuthState_attempts (account : String) (settled : SettledAt id slot stage phase)
    (unanswered : stage.isAnswered = false) :
    Attempts (StaysSettled id slot stage) phase (persistAuthState true account id slot) := by
  refine .bind (writeSettled_attempts settled unanswered rfl settled.pending) ?_
  rintro _ marked ⟨rfl, settled⟩
  refine .bind (persistAuthStateCall_attempts account _ settled) ?_
  rintro _ _ rfl
  refine .mono ?_ (writeSettled_attempts settled unanswered rfl settled.pending)
  rintro _ _ ⟨rfl, settled⟩
  exact ⟨rfl, settled⟩

theorem settlePendingTokens_attempts
    (holds : phase = some ⟨id, slot, !slot.persistencePending, .untried⟩) :
    Attempts (StaysSettled id slot .untried) phase
      (settlePendingTokens true accountId id slot) := by
  unfold settlePendingTokens
  cases pending : slot.persistencePending with
  | false =>
      refine .pure ⟨rfl, ?_, pending⟩
      rw [holds, pending]
      rfl
  | true =>
      rw [pending] at holds
      refine .bind (persistTokens_attempts accountId holds pending) ?_
      rintro _ _ rfl
      refine .bind (ensureCurrentSlot_attempts accountId id (safe_some (.inl rfl))) ?_
      rintro _ _ rfl
      refine .mono ?_ (writeSlot_attempts rfl (.inl ⟨rfl, .inr rfl⟩))
      rintro _ _ ⟨rfl, rfl⟩
      exact ⟨rfl, by simp [HeldTokens.write], rfl⟩

theorem settlePendingAuthState_attempts (settled : SettledAt id slot .untried phase) :
    Attempts (StaysSettled id slot .untried) phase
      (settlePendingAuthState true accountId id slot) := by
  unfold settlePendingAuthState
  split
  · refine .bind (persistAuthStateCall_attempts accountId slot.authState settled) ?_
    rintro _ _ rfl
    refine .bind (ensureCurrentSlot_attempts accountId id settled.safe) ?_
    rintro _ _ rfl
    refine .mono ?_ (writeSettled_attempts settled rfl rfl settled.pending)
    rintro _ _ ⟨rfl, settled⟩
    exact ⟨rfl, settled⟩
  · exact .pure ⟨rfl, settled⟩

theorem healReusedRefreshToken_attempts (settled : SettledAt id slot .untried phase) :
    Attempts (StaysSettled id slot .untried) phase
      (healReusedRefreshToken true accountId id slot) := by
  unfold healReusedRefreshToken
  split
  · refine .bind (bump_attempts id settled.safe) ?_
    rintro _ _ rfl
    refine .bind (writeSettled_attempts settled rfl rfl settled.pending) ?_
    rintro _ _ ⟨rfl, settled⟩
    refine .bind (persistAuthState_attempts accountId settled rfl) ?_
    rintro last stored ⟨same, settled⟩
    refine .bind (ensureCurrentSlot_attempts accountId id settled.safe) ?_
    rintro _ _ rfl
    exact .pure ⟨same, settled⟩
  · exact .pure ⟨rfl, settled⟩

/-- The task may return the token: it is what it holds, and saved. -/
def Prepared (phase : DurabilityPhase) (prepared : PreparedToken) : Prop :=
  ∃ slot stage, SettledAt prepared.dispatchRevision.entry slot stage phase ∧
    slot.tokens = prepared.tokens

theorem returnPrepared_attempts (settled : SettledAt id slot stage phase)
    (status : PrepareStatus) {tokens : TokenSet} (same : slot.tokens = tokens) :
    Attempts Prepared phase
      (do
        let revision ← snapshot id
        return ⟨status, tokens, revision⟩) := by
  refine .bind (snapshot_attempts id phase) ?_
  rintro _ revision ⟨rfl, rfl⟩
  exact .pure ⟨slot, stage, settled, same⟩

/-- The exchanged set is pending before an adapter is asked to take it. -/
theorem persistRefreshed_attempts (holds : phase = some ⟨id, slot, false, .installed⟩) :
    Attempts (fun last _ => ∃ result, StaysSettled id slot .installed last result) phase
      (persistRefreshed true accountId id slot) := by
  refine .bind (writeSlot_attempts holds ⟨rfl, .inl rfl⟩) ?_
  rintro _ _ ⟨rfl, rfl⟩
  refine .bind (persistTokens_attempts accountId rfl rfl) ?_
  rintro _ _ rfl
  refine .bind (ensureCurrentSlot_attempts accountId id (safe_some (.inl rfl))) ?_
  rintro _ _ rfl
  refine .bind (writeSlot_attempts rfl ⟨rfl, .inr rfl⟩) ?_
  rintro _ _ ⟨rfl, rfl⟩
  refine .bind (persistAuthState_attempts accountId ⟨rfl, rfl⟩ rfl) ?_
  rintro last stored ⟨same, settled⟩
  refine .mono ?_ (ensureCurrentSlot_attempts accountId id settled.safe)
  rintro _ _ rfl
  exact ⟨stored, same, settled⟩

theorem installRefreshed_attempts {exchange : TokenRefresh} {refreshToken : String} {nowMs : Nat}
    (settled : SettledAt id slot (.answered exchange refreshToken nowMs) phase) :
    Attempts Prepared phase
      (installRefreshed true accountId id slot
        (slot.tokens.refreshed exchange refreshToken nowMs)) := by
  refine step_attempts .lockSlots trivial (fun _ => rfl) fun _ =>
    step_attempts (.getSlot accountId) trivial (fun _ => rfl) fun registered => ?_
  split
  · refine .bind (bump_attempts id settled.safe) ?_
    rintro _ _ rfl
    refine .bind (writeSlot_attempts settled.held ⟨⟨settled.pending, rfl⟩, rfl⟩) ?_
    rintro _ _ ⟨rfl, rfl⟩
    refine step_attempts .unlockSlots trivial (fun _ => rfl) fun _ => ?_
    refine .bind (persistRefreshed_attempts rfl) ?_
    rintro _ _ ⟨stored, same, settled⟩
    exact returnPrepared_attempts settled .refreshed same
  · exact fail_attempts _ settled.safe

theorem settleRefreshFailure_attempts (previousAuthState : AccountAuthState)
    (failure : TokenRefreshFailure) (settled : SettledAt id slot .untried phase) :
    Attempts Prepared phase
      (settleRefreshFailure true accountId id slot previousAuthState failure) := by
  refine .bind (ensureCurrentSlot_attempts accountId id settled.safe) ?_
  rintro _ _ rfl
  split
  · refine .bind (writeSettled_attempts settled rfl rfl settled.pending) ?_
    rintro _ _ ⟨rfl, settled⟩
    refine .bind (persistAuthState_attempts accountId settled rfl) ?_
    rintro last _ ⟨-, settled⟩
    refine .bind (ensureCurrentSlot_attempts accountId id settled.safe) ?_
    rintro _ _ rfl
    exact fail_attempts _ settled.safe
  · refine .bind (writeSettled_attempts settled rfl rfl settled.pending) ?_
    rintro _ _ ⟨rfl, settled⟩
    exact fail_attempts _ settled.safe

theorem refreshSlot_attempts (refreshToken : String) (nowMs : Nat)
    (settled : SettledAt id slot .untried phase) :
    Attempts Prepared phase (refreshSlot true accountId id slot refreshToken nowMs) := by
  refine .bind (bump_attempts id settled.safe) ?_
  rintro _ _ rfl
  refine .bind (writeSettled_attempts settled rfl rfl settled.pending) ?_
  rintro last _ ⟨rfl, settled⟩
  refine .bind (snapshot_attempts id last) ?_
  rintro _ revision ⟨rfl, rfl⟩
  refine .act ⟨_, settled.held, rfl, ⟨settled.pending, rfl⟩, rfl⟩ fun exchange => ?_
  cases exchange with
  | ok refreshed =>
      refine installRefreshed_attempts ⟨?_, settled.pending⟩
      rw [settled.held]
      rfl
  | error failure => exact settleRefreshFailure_attempts _ failure settled

theorem degradeAccessOnly_attempts (settled : SettledAt id slot .untried phase) :
    Attempts Prepared phase (degradeAccessOnly true accountId id slot) := by
  refine .bind (bump_attempts id settled.safe) ?_
  rintro _ _ rfl
  refine .bind (writeSettled_attempts settled rfl rfl settled.pending) ?_
  rintro _ _ ⟨rfl, settled⟩
  refine .bind (persistAuthState_attempts accountId settled rfl) ?_
  rintro last _ ⟨-, settled⟩
  refine .bind (ensureCurrentSlot_attempts accountId id settled.safe) ?_
  rintro _ _ rfl
  exact fail_attempts _ settled.safe

theorem selectToken_attempts (nowMs refreshSkewMs : Nat)
    (settled : SettledAt id slot .untried phase) :
    Attempts Prepared phase (selectToken true accountId id slot nowMs refreshSkewMs) := by
  unfold selectToken
  split
  · exact fail_attempts _ settled.safe
  · split
    · exact returnPrepared_attempts settled .ready rfl
    · split
      · exact degradeAccessOnly_attempts settled
      · exact refreshSlot_attempts _ nowMs settled

/-- What a task holds once it has taken the mutex of a slot. -/
abbrev Locked (id : EntryId) (slot : TokenSlot) : HeldTokens :=
  ⟨id, slot, !slot.persistencePending, .untried⟩

theorem locked_safe (id : EntryId) (slot : TokenSlot) : (Locked id slot).Safe := by
  cases pending : slot.persistencePending with
  | false => exact .inl (congrArg not pending)
  | true => exact .inr pending

theorem prepareLocked_attempts (nowMs refreshSkewMs : Nat)
    (holds : phase = some (Locked id slot)) :
    Attempts Prepared phase (prepareLocked true accountId id slot nowMs refreshSkewMs) := by
  have safe : phase.Safe := holds ▸ safe_some (locked_safe id slot)
  refine .bind (ensureCurrentSlot_attempts accountId id safe) ?_
  rintro _ _ rfl
  refine .bind (settlePendingTokens_attempts holds) ?_
  rintro _ _ ⟨-, settled⟩
  refine .bind (settlePendingAuthState_attempts settled) ?_
  rintro _ _ ⟨-, settled⟩
  refine .bind (healReusedRefreshToken_attempts settled) ?_
  rintro _ _ ⟨-, settled⟩
  exact selectToken_attempts nowMs refreshSkewMs settled

theorem prepareInner_attempts (accountId : String) (nowMs refreshSkewMs : Nat) :
    Attempts Prepared none (prepareInner true accountId nowMs refreshSkewMs) := by
  refine .bind (findSlot_attempts accountId none) ?_
  rintro _ found rfl
  cases found with
  | none => exact fail_attempts _ safe_none
  | some id => exact .act rfl fun slot => prepareLocked_attempts nowMs refreshSkewMs rfl

/-- An invalidated set is pending before an adapter is asked to take it. -/
theorem persistInvalidated_attempts (accountId : String) (nowMs : Nat)
    (holds : phase = some (Locked id slot)) :
    Attempts (fun last _ => last.Safe) phase (persistInvalidated accountId id slot nowMs) := by
  refine .bind (writeSlot_attempts holds (.inr ⟨⟨nowMs, rfl⟩, rfl⟩)) ?_
  rintro _ invalidated ⟨rfl, rfl⟩
  refine .bind (@persistTokens_attempts id _ .untried _ accountId ?_ rfl) ?_
  · simp [HeldTokens.write]
  rintro _ _ rfl
  refine .bind (ensureCurrentSlot_attempts accountId id (safe_some (.inl rfl))) ?_
  rintro _ _ rfl
  refine .bind (writeSlot_attempts rfl (.inl ⟨rfl, .inr rfl⟩)) ?_
  rintro _ _ ⟨rfl, rfl⟩
  refine .pure (safe_some (.inl ?_))
  simp [HeldTokens.write]

theorem invalidateAccessWithFence_attempts (accountId : String) (fence : InvalidationFence)
    (nowMs : Nat) :
    Attempts (fun last _ => last.Safe) none (invalidateAccessWithFence accountId fence nowMs) := by
  refine .bind (findSlot_attempts accountId none) ?_
  rintro _ found rfl
  cases found with
  | none => exact fail_attempts _ safe_none
  | some id =>
      refine .act rfl fun slot => ?_
      have safe : Safe (some (Locked id slot)) := safe_some (locked_safe id slot)
      refine .bind (snapshot_attempts id (some (Locked id slot))) ?_
      rintro _ current ⟨rfl, -⟩
      split
      · exact .pure safe
      · refine .bind (lockRegistered_attempts accountId id (some (Locked id slot))) ?_
        rintro _ registered rfl
        split
        · refine .bind (bump_attempts id safe) ?_
          rintro _ _ rfl
          exact step_attempts .unlockSlots trivial (fun _ => rfl) fun _ =>
            persistInvalidated_attempts accountId nowMs rfl
        · exact .pure safe

end TokenAuthority.Durable

/-- The operations whose changes an adapter is asked to take, and the ones that change
nothing. -/
def AuthorityOperation.persists : AuthorityOperation → Bool
  | .prepareAndPersist .. | .invalidateAccessAndPersist .. | .invalidateAccessGenerationAndPersist ..
  | .invalidateAccessRevisionAndPersist .. | .invalidateAccessIfCurrentAndPersist ..
  | .dispatch _ => true
  | _ => false

namespace DurabilityPhase

/-- A slot is only given up saved or pending, a token only returned when it is saved. -/
def Final (phase : DurabilityPhase) (result : AuthorityResult) : Prop :=
  phase.Safe ∧ ∀ accountId prepared, result = .prepared accountId (.ok prepared) →
    TokenAuthority.Durable.Prepared phase prepared

end DurabilityPhase

namespace AuthorityOperation

open DurabilityPhase TokenAuthority.Durable

theorem invalidating_follows (accountId : String) (fence : TokenAuthority.InvalidationFence)
    (nowMs : Nat) :
    protocol.Follows Final none
      (changing (TokenAuthority.invalidateAccessWithFence accountId fence nowMs)) := by
  refine .bind (invalidateAccessWithFence_attempts accountId fence nowMs) ?_
  intro last result holds
  refine .done ⟨?_, fun _ _ same => by cases same⟩
  cases result with
  | ok changed => exact holds
  | error failure => exact holds

private theorem preparing_durably (accountId : String) (nowMs refreshSkewMs : Nat) :
    protocol.Follows Final none
      (preparing accountId (TokenAuthority.prepareAndPersist accountId nowMs refreshSkewMs)) := by
  refine .bind (prepareInner_attempts accountId nowMs refreshSkewMs) ?_
  intro last result holds
  cases result with
  | ok prepared =>
      obtain ⟨slot, stage, settled, same⟩ := holds
      refine .done ⟨settled.safe, ?_⟩
      rintro _ _ ⟨⟩
      exact ⟨slot, stage, settled, same⟩
  | error failure => exact .done ⟨holds, fun _ _ same => by cases same⟩

/-- Every operation that persists keeps to the discipline. -/
theorem persists_follows (operation : AuthorityOperation) (persists : operation.persists = true) :
    protocol.Follows Final none operation.program := by
  cases operation with
  | prepareAndPersist accountId nowMs refreshSkewMs => exact preparing_durably ..
  | invalidateAccessAndPersist accountId nowMs => exact invalidating_follows ..
  | invalidateAccessGenerationAndPersist accountId failedGeneration nowMs =>
      exact invalidating_follows ..
  | invalidateAccessRevisionAndPersist accountId rejectedRevision nowMs =>
      exact invalidating_follows ..
  | invalidateAccessIfCurrentAndPersist accountId rejectedTokens nowMs =>
      exact invalidating_follows ..
  | dispatch revision =>
      exact .perform trivial fun _ => .done ⟨safe_none, fun _ _ same => by cases same⟩
  | _ => cases persists

end AuthorityOperation

end ZenithRelay.Accounts
