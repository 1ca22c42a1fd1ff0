import ZenithRelay.Accounts.TokenAuthority.Registry

/-!
# The authentication state of a prepared slot

What `prepare` does to the state of the slot it holds. The marker of a running exchange is
set once, on a counted revision, and a failure that proves nothing takes it back.
-/

set_option autoImplicit false

namespace ZenithRelay.Accounts

/-- A slot that carries the marker has nothing left to persist. -/
def TokenSlot.Quiet (slot : TokenSlot) : Prop :=
  slot.authState = .refreshing →
    slot.persistencePending = false ∧ slot.authStatePersistencePending = false

/-- The slot whose mutex a task holds. `counted` once its revision was counted up, `stuck`
once it could not be, or the slot was found replaced; `previous` is the state before the
marker. -/
structure HeldState where
  account : String
  id : EntryId
  content : TokenSlot
  counted : Bool
  stuck : Bool
  previous : Option AccountAuthState

namespace HeldState

/-- The marker is set on a counted revision, and only once unless it was there before. -/
def Writes (held : HeldState) (slot : TokenSlot) : Prop :=
  held.content.Quiet → slot.Quiet ∧
    (slot.authState = .refreshing → held.counted = true ∧
      ∀ previous, held.previous = some previous → previous = .refreshing)

def write (held : HeldState) (slot : TokenSlot) : HeldState :=
  { held with
    content := slot
    previous := held.previous.or
      (if held.counted = true ∧ slot.authState = .refreshing then some held.content.authState
      else none) }

/-- A task that brought in the marker and gives up the slot with it is stuck. -/
def Left (held : HeldState) : Prop :=
  held.content.authState = .refreshing → ∀ previous, held.previous = some previous →
    previous ≠ .refreshing → held.stuck = true

/-- The state of before the marker is there again. -/
def Restored (held : HeldState) : Prop := held.previous = some held.content.authState

end HeldState

/-- What the map answered to a task, or the slot that it holds. -/
inductive AuthStatePhase where
  | asking (answered : Option (String × Option EntryId))
  | holding (held : HeldState)

namespace AuthStatePhase

def Allowed : AuthStatePhase → AuthorityAction → Prop
  | _, .insertSlot .. | _, .removeSlot _ | _, .retire _ | _, .guardRevision _ => False
  | .asking answered, .lockSlot id => ∃ account, answered = some (account, some id)
  | .holding _, .lockSlot _ => False
  | .holding held, .getSlot account => account = held.account ∨ account = Text.trim held.account
  | .holding held, .writeSlot id slot => id = held.id ∧ held.Writes slot
  | .holding held, .bump id => id = held.id
  | .holding _, .refreshFenced .. => True
  | .holding held, .persistFenced .. => held.Left
  | .holding held, .persistAuthStateFenced _ authState _ =>
    held.Left ∧ (held.content.Quiet → authState ≠ .refreshing)
  | .asking _, .writeSlot .. | .asking _, .bump _ | .asking _, .refreshFenced ..
  | .asking _, .persistFenced .. | .asking _, .persistAuthStateFenced .. => False
  | _, _ => True

def after : AuthStatePhase → (action : AuthorityAction) → action.Response → AuthStatePhase
  | .asking _, .getSlot account, found => .asking (some (account, found))
  | .asking answered, .lockSlot id, slot =>
    .holding ⟨(answered.map Prod.fst).getD "", id, slot, false, false, none⟩
  | .holding held, .getSlot _, found =>
    .holding { held with stuck := held.stuck || decide (found ≠ some held.id) }
  | .holding held, .writeSlot _ slot, _ => .holding (held.write slot)
  | .holding held, .bump _, counted =>
    .holding (if counted = true then { held with counted := true } else { held with stuck := true })
  | phase, _, _ => phase

def protocol : Protocol AuthorityAction.Response AuthStatePhase := ⟨Allowed, after⟩

def Left : AuthStatePhase → Prop
  | .asking _ => True
  | .holding held => held.Left

/-- The slot of the account carries the state of before the marker. -/
def RestoredFor (account : String) : AuthStatePhase → Prop
  | .asking _ => False
  | .holding held => held.account = account ∧ held.Restored

/-- The call ended, and where its exchange failed the state was restored. -/
def Fails (account : String) (phase : AuthStatePhase) (failure : AuthorityFailure) : Prop :=
  phase.Left ∧ ∀ code, failure = .failed (.refreshFailed code) → phase.RestoredFor account

/-- `account` is the one whose token is prepared. -/
abbrev Attempts (account : String) {Result : Type} (returns : AuthStatePhase → Result → Prop)
    (phase : AuthStatePhase) (program : AuthorityProgram Result) : Prop :=
  protocol.Attempts (Fails account) returns phase program

end AuthStatePhase

namespace TokenAuthority.AuthState

open AuthStatePhase

variable {account : String} {id : EntryId} {slot : TokenSlot} {counted : Bool}
  {held : HeldState} {phase : AuthStatePhase}

private theorem fail_attempts {Result : Type} {returns : AuthStatePhase → Result → Prop}
    (error : TokenAuthorityError) (left : phase.Left)
    (other : ∀ code, error ≠ .refreshFailed code) : Attempts account returns phase (fail error) :=
  .throw ⟨left, fun code same => absurd (AuthorityFailure.failed.inj same) (other code)⟩

/-- An action that neither reads nor changes what the task holds. -/
private theorem step_attempts {Result : Type} {returns : AuthStatePhase → Result → Prop}
    (action : AuthorityAction) (allowed : phase.Allowed action)
    (same : ∀ response, phase.after action response = phase)
    {continuation : action.Response → AuthorityProgram Result}
    (rest : ∀ response, Attempts account returns phase (continuation response)) :
    Attempts account returns phase (perform action >>= continuation) := by
  refine .act allowed fun response => ?_
  have stays : protocol.after phase action response = phase := same response
  rw [stays]
  exact rest response

/-- What the task holds until it writes; a slot found replaced ends the call. -/
private theorem ensureCurrentSlot_attempts (own : held.account = account) :
    Attempts account (fun last _ => last = .holding held) (.holding held)
      (ensureCurrentSlot account held.id) := by
  have current : Attempts account (fun last _ => last = .holding held) (.holding held)
      (currentSlots account held.id) := by
    refine step_attempts .lockSlots trivial (fun _ => rfl) fun _ =>
      .act (Or.inr (by rw [own])) fun registered => ?_
    split
    next same =>
      refine .pure ?_
      simp [protocol, AuthStatePhase.after, same]
    next replaced =>
      refine step_attempts .unlockSlots trivial (fun _ => rfl) fun _ =>
        fail_attempts _ (fun _ _ _ _ => ?_) (by rintro _ ⟨⟩)
      simp [replaced]
  refine .bind current ?_
  rintro _ _ rfl
  exact Protocol.Attempts.act_last AuthorityAction.unlockSlots trivial fun _ => rfl

private theorem bump_attempts :
    Attempts account (fun last _ => last = .holding { held with counted := true })
      (.holding held) (bump held.id) := by
  refine .act rfl fun response => ?_
  split
  next true_ =>
    refine .pure ?_
    simp [protocol, AuthStatePhase.after, true_]
  next false_ =>
    refine .throw ⟨?_, fun _ same => by cases same⟩
    simp [protocol, AuthStatePhase.after, false_, AuthStatePhase.Left, HeldState.Left]

private theorem snapshot_attempts :
    Attempts account (fun last _ => last = phase) phase (snapshot id) := by
  cases phase with
  | asking => exact step_attempts (.snapshot id) trivial (fun _ => rfl) fun _ => .pure rfl
  | holding => exact step_attempts (.snapshot id) trivial (fun _ => rfl) fun _ => .pure rfl

private theorem writeSlot_attempts {written : TokenSlot} (writes : held.Writes written) :
    Attempts account (fun last result => result = written ∧ last = .holding (held.write written))
      (.holding held) (writeSlot held.id written) :=
  .act ⟨rfl, writes⟩ fun _ => .pure ⟨rfl, rfl⟩

/-- A write that does not set the marker. -/
private theorem writeOther_attempts {written : TokenSlot}
    (other : held.content.Quiet → written.authState ≠ .refreshing)
    (unmarked : held.counted = false ∨ written.authState ≠ .refreshing) :
    Attempts account
      (fun last result => result = written ∧ last = .holding { held with content := written })
      (.holding held) (writeSlot held.id written) := by
  refine .mono ?_ (writeSlot_attempts fun quiet =>
    ⟨fun marked => absurd marked (other quiet), fun marked => absurd marked (other quiet)⟩)
  rintro last result ⟨rfl, rfl⟩
  refine ⟨rfl, ?_⟩
  rw [HeldState.write, if_neg, Option.or_none]
  rintro ⟨counted, marked⟩
  rcases unmarked with uncounted | apart
  · rw [counted] at uncounted
    cases uncounted
  · exact apart marked

private theorem persistTokens_attempts (tokens : TokenSet) (left : held.Left) :
    Attempts account (fun last _ => last = .holding held) (.holding held)
      (persistTokens account held.id tokens) := by
  refine .bind snapshot_attempts ?_
  rintro _ revision rfl
  have allowed : Allowed (.holding held) (.persistFenced account tokens revision) := left
  refine step_attempts _ allowed (fun _ => rfl) fun persisted => ?_
  cases persisted with
  | ok => exact .pure rfl
  | error => exact fail_attempts _ left (by rintro _ ⟨⟩)

private theorem persistAuthStateCall_attempts {authState : AccountAuthState} (left : held.Left)
    (unmarked : held.content.Quiet → authState ≠ .refreshing) :
    Attempts account (fun last _ => last = .holding held) (.holding held)
      (persistAuthStateCall account held.id authState) := by
  refine .bind snapshot_attempts ?_
  rintro _ revision rfl
  have allowed : Allowed (.holding held) (.persistAuthStateFenced account authState revision) :=
    ⟨left, unmarked⟩
  refine step_attempts _ allowed (fun _ => rfl) fun persisted => ?_
  cases persisted with
  | ok => exact .pure rfl
  | error => exact fail_attempts _ left (by rintro _ ⟨⟩)

/-- The slot with another state, which is not the marker, once it was persisted. -/
structure Persisted (held : HeldState) (last : AuthStatePhase) (result : TokenSlot) : Prop where
  phase : last = .holding { held with content := result }
  authState : result.authState = held.content.authState
  tokens : result.persistencePending = held.content.persistencePending
  pending : held.content.authStatePersistencePending = false →
    result.authStatePersistencePending = false

private theorem persistAuthState_attempts (persistence : Bool)
    (unmarked : held.content.authState ≠ .refreshing) :
    Attempts account (Persisted held) (.holding held)
      (persistAuthState persistence account held.id held.content) := by
  unfold persistAuthState
  cases persistence with
  | false => exact .pure ⟨rfl, rfl, rfl, id⟩
  | true =>
    refine .bind (writeOther_attempts (fun _ => unmarked) (Or.inr unmarked)) ?_
    rintro _ marked ⟨rfl, rfl⟩
    refine .bind (@persistAuthStateCall_attempts account { held with
      content := { held.content with authStatePersistencePending := true } } _
      (fun marked => absurd marked unmarked) fun _ => unmarked) ?_
    rintro _ _ rfl
    refine .mono ?_ (@writeOther_attempts account { held with
      content := { held.content with authStatePersistencePending := true } }
      { held.content with authStatePersistencePending := false }
      (fun _ => unmarked) (Or.inr unmarked))
    rintro _ _ ⟨rfl, rfl⟩
    exact ⟨rfl, rfl, rfl, fun _ => rfl⟩

/-- The slot that a task holds before it sets the marker. -/
abbrev Unmarked (account : String) (id : EntryId) (slot : TokenSlot) (counted : Bool) :
    AuthStatePhase := .holding ⟨account, id, slot, counted, false, none⟩

private theorem unmarked_left {account : String} {id : EntryId} {slot : TokenSlot}
    {counted stuck : Bool} : HeldState.Left ⟨account, id, slot, counted, stuck, none⟩ :=
  fun _ _ present => by cases present

private theorem settlePendingTokens_attempts (persistence : Bool) :
    Attempts account (fun last result => last = Unmarked account id result false ∧
      result.persistencePending = false) (Unmarked account id slot false)
      (settlePendingTokens persistence account id slot) := by
  unfold settlePendingTokens
  split
  next pending =>
    split
    next =>
      refine .bind (persistTokens_attempts slot.tokens unmarked_left) ?_
      rintro _ _ rfl
      refine .bind (ensureCurrentSlot_attempts rfl) ?_
      rintro _ _ rfl
      refine .mono ?_ (writeOther_attempts (fun quiet marked => ?_) (Or.inl rfl))
      · rintro _ _ ⟨rfl, rfl⟩
        exact ⟨rfl, rfl⟩
      · rw [(quiet marked).1] at pending
        cases pending
    next => exact fail_attempts _ unmarked_left (by rintro _ ⟨⟩)
  next settled => exact .pure ⟨rfl, Bool.eq_false_iff.mpr settled⟩

/-- Nothing of the slot is pending. -/
def Settled (slot : TokenSlot) : Prop :=
  slot.persistencePending = false ∧ slot.authStatePersistencePending = false

private theorem settlePendingAuthState_attempts (persistence : Bool)
    (tokens : slot.persistencePending = false) :
    Attempts account (fun last result => last = Unmarked account id result false ∧ Settled result)
      (Unmarked account id slot false) (settlePendingAuthState persistence account id slot) := by
  unfold settlePendingAuthState
  split
  next pending =>
    have unmarked (quiet : slot.Quiet) : slot.authState ≠ .refreshing := fun marked => by
      rw [(quiet marked).2] at pending
      cases pending
    split
    next =>
      refine .bind (persistAuthStateCall_attempts unmarked_left unmarked) ?_
      rintro _ _ rfl
      refine .bind (ensureCurrentSlot_attempts rfl) ?_
      rintro _ _ rfl
      refine .mono ?_ (writeOther_attempts unmarked (Or.inl rfl))
      rintro _ _ ⟨rfl, rfl⟩
      exact ⟨rfl, tokens, rfl⟩
    next => exact fail_attempts _ unmarked_left (by rintro _ ⟨⟩)
  next settled => exact .pure ⟨rfl, tokens, Bool.eq_false_iff.mpr settled⟩

private theorem healReusedRefreshToken_attempts (persistence : Bool) (settled : Settled slot) :
    Attempts account (fun last result => ∃ counted,
      last = Unmarked account id result counted ∧ Settled result)
      (Unmarked account id slot false) (healReusedRefreshToken persistence account id slot) := by
  unfold healReusedRefreshToken
  split
  next =>
    refine .bind bump_attempts ?_
    rintro _ _ rfl
    refine .bind (writeOther_attempts (fun _ => by simp) (Or.inr (by simp))) ?_
    rintro _ healed ⟨rfl, rfl⟩
    refine .bind (@persistAuthState_attempts account
      ⟨account, id, { slot with authState := .active }, true, false, none⟩ persistence (by simp)) ?_
    rintro last result persisted
    rw [persisted.phase]
    refine .bind (ensureCurrentSlot_attempts rfl) ?_
    rintro _ _ rfl
    exact .pure ⟨true, rfl, persisted.tokens.trans settled.1, persisted.pending settled.2⟩
  next => exact .pure ⟨false, rfl, settled⟩

/-- The slot that a task holds once it set the marker. -/
abbrev Marked (account : String) (id : EntryId) (slot : TokenSlot) (previous : AccountAuthState) :
    AuthStatePhase := .holding ⟨account, id, slot, true, false, some previous⟩

/-- A call that returns a value leaves no marker of its own. -/
abbrev Any {Result : Type} (last : AuthStatePhase) (_ : Result) : Prop := last.Left

private theorem persistRefreshed_attempts (persistence : Bool) (own : held.account = account)
    (unmarked : held.content.authState ≠ .refreshing) :
    Attempts account Any (.holding held)
      (persistRefreshed persistence account held.id held.content) := by
  unfold persistRefreshed
  cases persistence with
  | false => exact .pure fun marked => absurd marked unmarked
  | true =>
    refine .bind (@writeOther_attempts account held { held.content with persistencePending := true }
      (fun _ => unmarked) (Or.inr unmarked)) ?_
    rintro _ pending ⟨rfl, rfl⟩
    refine .bind (@persistTokens_attempts account { held with
      content := { held.content with persistencePending := true } } held.content.tokens
      fun marked => absurd marked unmarked) ?_
    rintro _ _ rfl
    refine .bind (ensureCurrentSlot_attempts own) ?_
    rintro _ _ rfl
    refine .bind (@writeOther_attempts account { held with
      content := { held.content with persistencePending := true } }
      { held.content with persistencePending := false } (fun _ => unmarked) (Or.inr unmarked)) ?_
    rintro _ settled ⟨rfl, rfl⟩
    refine .bind (@persistAuthState_attempts account { held with
      content := { held.content with persistencePending := false } } true unmarked) ?_
    rintro last result persisted
    rw [persisted.phase]
    refine .mono ?_ (ensureCurrentSlot_attempts own)
    rintro _ _ rfl
    exact fun marked => absurd (persisted.authState.symm.trans marked) unmarked

private theorem installRefreshed_attempts (persistence : Bool) (previous : AccountAuthState)
    (tokens : TokenSet) : Attempts account Any (Marked account id slot previous)
      (installRefreshed persistence account id slot tokens) := by
  refine step_attempts .lockSlots trivial (fun _ => rfl) fun _ => .act (Or.inl rfl) fun found => ?_
  split
  next registered =>
    have same : protocol.after (Marked account id slot previous) (.getSlot account) found =
        Marked account id slot previous := by
      simp [protocol, AuthStatePhase.after, registered]
    rw [same]
    refine .bind bump_attempts ?_
    rintro _ _ rfl
    refine .bind (writeOther_attempts (fun _ => by simp) (Or.inr (by simp))) ?_
    rintro _ installed ⟨rfl, rfl⟩
    refine step_attempts .unlockSlots trivial (fun _ => rfl) fun _ => ?_
    refine .bind (@persistRefreshed_attempts account ⟨account, id,
      { slot with tokens := tokens, authState := .active }, true, false, some previous⟩ persistence
      rfl (by simp)) ?_
    intro last _ left
    refine .bind snapshot_attempts ?_
    rintro _ _ rfl
    exact .pure left
  next replaced =>
    refine fail_attempts _ (fun _ _ _ _ => ?_) (by rintro _ ⟨⟩)
    simp [replaced]

private theorem settleRefreshFailure_attempts (persistence : Bool) (previous : AccountAuthState)
    (failure : TokenRefreshFailure) (settled : Settled slot) :
    Attempts account Any (Marked account id slot previous)
      (settleRefreshFailure persistence account id slot previous failure) := by
  refine .bind (ensureCurrentSlot_attempts rfl) ?_
  rintro _ _ rfl
  split
  next reason _ =>
    refine .bind (writeOther_attempts (fun _ => by simp) (Or.inr (by simp))) ?_
    rintro _ refused ⟨rfl, rfl⟩
    refine .bind (@persistAuthState_attempts account ⟨account, id,
      { slot with authState := .requiresReauth reason }, true, false, some previous⟩ persistence
      (by simp)) ?_
    rintro last result persisted
    rw [persisted.phase]
    refine .bind (ensureCurrentSlot_attempts rfl) ?_
    rintro _ _ rfl
    refine fail_attempts _ (fun marked => ?_) (by rintro _ ⟨⟩)
    cases persisted.authState.symm.trans marked
  next =>
    refine .bind (writeSlot_attempts fun _ => ⟨fun _ => settled, fun marked =>
      ⟨rfl, fun _ same => Option.some.inj same ▸ marked⟩⟩) ?_
    rintro _ restored ⟨rfl, rfl⟩
    exact .throw ⟨fun marked _ same apart => absurd marked (Option.some.inj same ▸ apart),
      fun _ _ => ⟨rfl, rfl⟩⟩

private theorem refreshSlot_attempts (persistence : Bool) (refreshToken : String) (nowMs : Nat)
    (settled : Settled slot) : Attempts account Any (Unmarked account id slot counted)
      (refreshSlot persistence account id slot refreshToken nowMs) := by
  refine .bind bump_attempts ?_
  rintro _ _ rfl
  refine .bind (writeSlot_attempts fun _ => ⟨fun _ => settled, fun _ =>
    ⟨rfl, fun _ none_ => by cases none_⟩⟩) ?_
  rintro _ marked ⟨rfl, rfl⟩
  refine .bind snapshot_attempts ?_
  rintro _ revision rfl
  have marks : AuthStatePhase.holding (HeldState.write ⟨account, id, slot, true, false, none⟩
      { slot with authState := .refreshing }) =
      Marked account id { slot with authState := .refreshing } slot.authState := by
    simp [HeldState.write]
  rw [marks]
  refine .act trivial fun exchange => ?_
  cases exchange with
  | ok => exact installRefreshed_attempts persistence slot.authState _
  | error failure => exact settleRefreshFailure_attempts persistence slot.authState failure settled

private theorem degradeAccessOnly_attempts (persistence : Bool) :
    Attempts account Any (Unmarked account id slot counted)
      (degradeAccessOnly persistence account id slot) := by
  refine .bind bump_attempts ?_
  rintro _ _ rfl
  refine .bind (writeOther_attempts (fun _ => by simp) (Or.inr (by simp))) ?_
  rintro _ degraded ⟨rfl, rfl⟩
  refine .bind (@persistAuthState_attempts account
    ⟨account, id, { slot with authState := .degradedAccessOnly }, true, false, none⟩ persistence
    (by simp)) ?_
  rintro last result persisted
  rw [persisted.phase]
  refine .bind (ensureCurrentSlot_attempts rfl) ?_
  rintro _ _ rfl
  exact fail_attempts _ unmarked_left (by rintro _ ⟨⟩)

private theorem selectToken_attempts (persistence : Bool) (nowMs refreshSkewMs : Nat)
    (settled : Settled slot) : Attempts account Any (Unmarked account id slot counted)
      (selectToken persistence account id slot nowMs refreshSkewMs) := by
  unfold selectToken
  split
  next => exact fail_attempts _ unmarked_left (by rintro _ ⟨⟩)
  next =>
    split
    next =>
      refine .bind snapshot_attempts ?_
      rintro _ _ rfl
      exact .pure unmarked_left
    next =>
      split
      next => exact degradeAccessOnly_attempts persistence
      next refreshToken _ => exact refreshSlot_attempts persistence refreshToken nowMs settled

private theorem prepareLocked_attempts (persistence : Bool) (nowMs refreshSkewMs : Nat) :
    Attempts account Any (Unmarked account id slot false)
      (prepareLocked persistence account id slot nowMs refreshSkewMs) := by
  refine .bind (ensureCurrentSlot_attempts rfl) ?_
  rintro _ _ rfl
  refine .bind (settlePendingTokens_attempts persistence) ?_
  rintro _ _ ⟨rfl, tokens⟩
  refine .bind (settlePendingAuthState_attempts persistence tokens) ?_
  rintro _ _ ⟨rfl, settled⟩
  refine .bind (healReusedRefreshToken_attempts persistence settled) ?_
  rintro _ _ ⟨counted, rfl, settled⟩
  exact selectToken_attempts persistence nowMs refreshSkewMs settled

theorem prepareInner_attempts (persistence : Bool) (account : String) (nowMs refreshSkewMs : Nat) :
    Attempts account Any (.asking none) (prepareInner persistence account nowMs refreshSkewMs) := by
  have finds : Attempts account (fun last found => last = .asking (some (account, found)))
      (.asking none) (findSlot account) :=
    step_attempts .lockSlots trivial (fun _ => rfl) fun _ => .act trivial fun found =>
      step_attempts .unlockSlots trivial (fun _ => rfl) fun _ => .pure rfl
  refine .bind finds ?_
  rintro _ found rfl
  cases found with
  | none => exact fail_attempts _ trivial (by rintro _ ⟨⟩)
  | some id =>
    exact .act ⟨account, rfl⟩ fun slot => prepareLocked_attempts persistence nowMs refreshSkewMs

end TokenAuthority.AuthState

namespace AuthStatePhase

/-- A call that ends with a failed exchange has restored the state. -/
def Final (phase : AuthStatePhase) (result : AuthorityResult) : Prop :=
  phase.Left ∧ ∀ account code,
    result = .prepared account (.error (.failed (.refreshFailed code))) → phase.RestoredFor account

end AuthStatePhase

namespace AuthorityOperation

open AuthStatePhase TokenAuthority.AuthState

/-- The two ways to prepare a token. -/
def prepares : AuthorityOperation → Bool
  | .prepare .. | .prepareAndPersist .. => true
  | _ => false

theorem prepares_follows (operation : AuthorityOperation) (prepares : operation.prepares = true) :
    protocol.Follows Final (.asking none) operation.program := by
  have preparing_follows (persistence : Bool) (account : String) (nowMs refreshSkewMs : Nat) :
      protocol.Follows Final (.asking none) (preparing account
        (TokenAuthority.prepareInner persistence account nowMs refreshSkewMs)) := by
    refine .bind (prepareInner_attempts persistence account nowMs refreshSkewMs) ?_
    intro last result holds
    cases result with
    | ok prepared => exact .done ⟨holds, fun _ _ same => by cases same⟩
    | error failure =>
      refine .done ⟨holds.1, fun _ code same => ?_⟩
      cases same
      exact holds.2 code rfl
  cases operation with
  | prepare account nowMs refreshSkewMs => exact preparing_follows false account nowMs refreshSkewMs
  | prepareAndPersist account nowMs refreshSkewMs =>
    exact preparing_follows true account nowMs refreshSkewMs
  | _ => cases prepares

end AuthorityOperation

end ZenithRelay.Accounts
