import ZenithRelay.Accounts.TokenAuthority.Slots

/-!
# Preparing a token

`prepare_inner` in the stages that its awaits separate: what an earlier call left
to persist, a recorded reuse of the refresh token, and the exchange itself. The
slot's mutex is held throughout; `slot` is the caller's view of it.
-/

set_option autoImplicit false

namespace ZenithRelay.Accounts

inductive PrepareStatus where
  | ready
  | refreshed
  deriving DecidableEq, Repr

structure PreparedToken where
  status : PrepareStatus
  tokens : TokenSet
  dispatchRevision : TokenDispatchRevision
  deriving DecidableEq, Repr

namespace TokenAuthority

abbrev perform (action : AuthorityAction) : AuthorityProgram action.Response := Resumption.act action

def fail {Result : Type} (error : TokenAuthorityError) : AuthorityProgram Result :=
  throwThe AuthorityFailure (.failed error)

/-- The registered slot of an account; the map is unlocked again. -/
def findSlot (accountId : String) : AuthorityProgram (Option EntryId) := do
  perform .lockSlots
  let found ← perform (.getSlot accountId)
  perform .unlockSlots
  return found

/-- `current_slots`: the map stays locked when `id` is the slot of the account. -/
def currentSlots (accountId : String) (id : EntryId) : AuthorityProgram Unit := do
  perform .lockSlots
  let registered ← perform (.getSlot (Text.trim accountId))
  if registered = some id then return ()
  else do
    perform .unlockSlots
    fail .accountNotFound

def ensureCurrentSlot (accountId : String) (id : EntryId) : AuthorityProgram Unit := do
  currentSlots accountId id
  perform .unlockSlots

/-- Counts the revision up; the counter's end is a panic before anything has changed. -/
def bump (id : EntryId) : AuthorityProgram Unit := do
  let counted ← perform (.bump id)
  if counted = true then return ()
  else throwThe AuthorityFailure (.panicked "token revision exhausted")

def snapshot (id : EntryId) : AuthorityProgram TokenDispatchRevision := do
  let revisionNumber ← perform (.snapshot id)
  return ⟨id, revisionNumber⟩

def writeSlot (id : EntryId) (slot : TokenSlot) : AuthorityProgram TokenSlot := do
  perform (.writeSlot id slot)
  return slot

def persistTokens (accountId : String) (id : EntryId) (tokens : TokenSet) :
    AuthorityProgram Unit := do
  let revision ← snapshot id
  let persisted ← perform (.persistFenced accountId tokens revision)
  match persisted with
  | .ok () => return ()
  | .error code => fail (.persistenceFailed code)

def persistAuthStateCall (accountId : String) (id : EntryId) (authState : AccountAuthState) :
    AuthorityProgram Unit := do
  let revision ← snapshot id
  let persisted ← perform (.persistAuthStateFenced accountId authState revision)
  match persisted with
  | .ok () => return ()
  | .error code => fail (.persistenceFailed code)

/-- `persist_auth_state`: without an adapter there is nothing to do. -/
def persistAuthState (persistence : Bool) (accountId : String) (id : EntryId) (slot : TokenSlot) :
    AuthorityProgram TokenSlot :=
  if persistence = true then do
    let slot ← writeSlot id { slot with authStatePersistencePending := true }
    persistAuthStateCall accountId id slot.authState
    writeSlot id { slot with authStatePersistencePending := false }
  else return slot

def settlePendingTokens (persistence : Bool) (accountId : String) (id : EntryId)
    (slot : TokenSlot) : AuthorityProgram TokenSlot :=
  if slot.persistencePending = true then
    if persistence = true then do
      persistTokens accountId id slot.tokens
      ensureCurrentSlot accountId id
      writeSlot id { slot with persistencePending := false, authStatePersistencePending := true }
    else fail .persistenceRequired
  else return slot

def settlePendingAuthState (persistence : Bool) (accountId : String) (id : EntryId)
    (slot : TokenSlot) : AuthorityProgram TokenSlot :=
  if slot.authStatePersistencePending = true then
    if persistence = true then do
      persistAuthStateCall accountId id slot.authState
      ensureCurrentSlot accountId id
      writeSlot id { slot with authStatePersistencePending := false }
    else fail .persistenceRequired
  else return slot

/-- Older versions recorded the race of two rotations as a demand for a new login. -/
def healReusedRefreshToken (persistence : Bool) (accountId : String) (id : EntryId)
    (slot : TokenSlot) : AuthorityProgram TokenSlot :=
  if slot.authState = .requiresReauth .reusedRefreshToken then do
    bump id
    let slot ← writeSlot id { slot with authState := .active }
    let slot ← persistAuthState persistence accountId id slot
    ensureCurrentSlot accountId id
    return slot
  else return slot

/-- An exchanged set is pending from here on until an adapter has taken it. -/
def persistRefreshed (persistence : Bool) (accountId : String) (id : EntryId) (slot : TokenSlot) :
    AuthorityProgram Unit :=
  if persistence = true then do
    let slot ← writeSlot id { slot with persistencePending := true }
    persistTokens accountId id slot.tokens
    ensureCurrentSlot accountId id
    let slot ← writeSlot id { slot with persistencePending := false }
    let _ ← persistAuthState true accountId id slot
    ensureCurrentSlot accountId id
  else return ()

/-- The answer of a successful exchange. The early return leaves the map locked; it is
given back with everything else the call holds. -/
def installRefreshed (persistence : Bool) (accountId : String) (id : EntryId) (slot : TokenSlot)
    (tokens : TokenSet) : AuthorityProgram PreparedToken := do
  perform .lockSlots
  let registered ← perform (.getSlot accountId)
  if registered = some id then do
    bump id
    let slot ← writeSlot id { slot with tokens := tokens, authState := .active }
    perform .unlockSlots
    persistRefreshed persistence accountId id slot
    let revision ← snapshot id
    return ⟨.refreshed, tokens, revision⟩
  else fail .accountNotFound

/-- A failure that proves nothing about the credentials restores the state before. -/
def settleRefreshFailure (persistence : Bool) (accountId : String) (id : EntryId)
    (slot : TokenSlot) (previousAuthState : AccountAuthState) (failure : TokenRefreshFailure) :
    AuthorityProgram PreparedToken := do
  ensureCurrentSlot accountId id
  match failure.reauthReason with
  | some reason => do
    let slot ← writeSlot id { slot with authState := .requiresReauth reason }
    let _ ← persistAuthState persistence accountId id slot
    ensureCurrentSlot accountId id
    fail (.requiresReauth reason)
  | none => do
    let _ ← writeSlot id { slot with authState := previousAuthState }
    fail (.refreshFailed failure.code)

def refreshSlot (persistence : Bool) (accountId : String) (id : EntryId) (slot : TokenSlot)
    (refreshToken : String) (nowMs : Nat) : AuthorityProgram PreparedToken := do
  bump id
  let refreshing ← writeSlot id { slot with authState := .refreshing }
  let refreshRevision ← snapshot id
  let exchange ← perform (.refreshFenced accountId refreshToken nowMs refreshRevision)
  match exchange with
  | .ok refreshed =>
    installRefreshed persistence accountId id refreshing
      (slot.tokens.refreshed refreshed refreshToken nowMs)
  | .error failure =>
    settleRefreshFailure persistence accountId id refreshing slot.authState failure

/-- Without a refresh token an expired access token is the end. -/
def degradeAccessOnly (persistence : Bool) (accountId : String) (id : EntryId)
    (slot : TokenSlot) : AuthorityProgram PreparedToken := do
  bump id
  let slot ← writeSlot id { slot with authState := .degradedAccessOnly }
  let _ ← persistAuthState persistence accountId id slot
  ensureCurrentSlot accountId id
  fail .accessTokenExpired

/-- The choice of a token once nothing is pending. -/
def selectToken (persistence : Bool) (accountId : String) (id : EntryId) (slot : TokenSlot)
    (nowMs refreshSkewMs : Nat) : AuthorityProgram PreparedToken :=
  match slot.authState with
  | .requiresReauth reason => fail (.requiresReauth reason)
  | _ =>
    if slot.tokens.isAccessUsable nowMs refreshSkewMs = true then do
      let revision ← snapshot id
      return ⟨.ready, slot.tokens, revision⟩
    else
      match slot.tokens.refreshToken with
      | none => degradeAccessOnly persistence accountId id slot
      | some refreshToken => refreshSlot persistence accountId id slot refreshToken nowMs

def prepareLocked (persistence : Bool) (accountId : String) (id : EntryId) (slot : TokenSlot)
    (nowMs refreshSkewMs : Nat) : AuthorityProgram PreparedToken := do
  ensureCurrentSlot accountId id
  let slot ← settlePendingTokens persistence accountId id slot
  let slot ← settlePendingAuthState persistence accountId id slot
  let slot ← healReusedRefreshToken persistence accountId id slot
  selectToken persistence accountId id slot nowMs refreshSkewMs

def prepareInner (persistence : Bool) (accountId : String) (nowMs refreshSkewMs : Nat) :
    AuthorityProgram PreparedToken := do
  let found ← findSlot accountId
  match found with
  | none => fail .accountNotFound
  | some id => do
    let slot ← perform (.lockSlot id)
    prepareLocked persistence accountId id slot nowMs refreshSkewMs

def prepare (accountId : String) (nowMs refreshSkewMs : Nat) : AuthorityProgram PreparedToken :=
  prepareInner false accountId nowMs refreshSkewMs

def prepareAndPersist (accountId : String) (nowMs refreshSkewMs : Nat) :
    AuthorityProgram PreparedToken :=
  prepareInner true accountId nowMs refreshSkewMs

end TokenAuthority

end ZenithRelay.Accounts
