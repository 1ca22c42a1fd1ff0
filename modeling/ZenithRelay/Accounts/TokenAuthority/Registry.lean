import ZenithRelay.Accounts.TokenAuthority.Prepare

/-!
# Registering, replacing and invalidating tokens

The other operations on the slots. An operation that waited for a slot checks that
the slot is still the registered one before it takes effect.
-/

set_option autoImplicit false

namespace ZenithRelay.Accounts

namespace TokenAuthority

/-- `prepare_slot`: the existing slot, or `none` when the candidate was inserted. -/
def prepareSlot (accountId : String) (candidate : TokenSlot) : AuthorityProgram (Option EntryId) :=
  let accountId := Text.trim accountId
  if accountId = "" then fail .invalidAccountId
  else do
    perform .lockSlots
    let found ← perform (.getSlot accountId)
    match found with
    | some id => do
      perform .unlockSlots
      return some id
    | none => do
      let full ← perform .atCapacity
      if full = true then fail .capacityReached
      else do
        perform (.insertSlot accountId candidate)
        perform .unlockSlots
        return none

/-- Replaces the registered slot when `accepts` holds of it; the map is locked meanwhile. -/
def replaceRegistered (accountId : String) (id : EntryId) (candidate : TokenSlot)
    (accepts : TokenSlot → Bool) : AuthorityProgram Bool := do
  let existing ← perform (.lockSlot id)
  currentSlots accountId id
  if accepts existing = true then do
    bump id
    let _ ← writeSlot id candidate
    return true
  else return false

def registerWhen (accountId : String) (candidate : TokenSlot) (accepts : TokenSlot → Bool) :
    AuthorityProgram Bool := do
  let found ← prepareSlot accountId candidate
  match found with
  | none => return true
  | some id => replaceRegistered accountId id candidate accepts

def register (accountId : String) (tokens : TokenSet) (authState : AccountAuthState) :
    AuthorityProgram Bool :=
  registerWhen accountId (.fresh tokens authState) fun _ => true

def registerIfNewer (accountId : String) (tokens : TokenSet) (authState : AccountAuthState) :
    AuthorityProgram Bool :=
  registerWhen accountId (.fresh tokens authState) fun existing =>
    tokenSetIsNewer tokens existing.tokens

def registerIfNotStale (accountId : String) (tokens : TokenSet) (authState : AccountAuthState) :
    AuthorityProgram Bool :=
  registerWhen accountId (.fresh tokens authState) fun existing =>
    !tokenSetIsNewer existing.tokens tokens

def registerIfAbsent (accountId : String) (tokens : TokenSet) (authState : AccountAuthState) :
    AuthorityProgram Bool := do
  let found ← prepareSlot accountId (.fresh tokens authState)
  return found.isNone

/-- Whether `id` is registered; if so the map stays locked. -/
def lockRegistered (accountId : String) (id : EntryId) : AuthorityProgram Bool := do
  perform .lockSlots
  let registered ← perform (.getSlot accountId)
  return decide (registered = some id)

def replaceIfCurrent (accountId : String) (expectedTokens : TokenSet)
    (expectedAuthState : AccountAuthState) (replacementTokens : TokenSet)
    (replacementAuthState : AccountAuthState) : AuthorityProgram Bool :=
  let accountId := Text.trim accountId
  if accountId = "" then fail .invalidAccountId
  else do
    let found ← findSlot accountId
    match found with
    | none => return false
    | some id => do
      let slot ← perform (.lockSlot id)
      if slot.authState ≠ expectedAuthState ∨ slot.tokens ≠ expectedTokens then return false
      else do
        let registered ← lockRegistered accountId id
        if registered = true then do
          bump id
          perform .unlockSlots
          let _ ← writeSlot id (.fresh replacementTokens replacementAuthState)
          return true
        else return false

def removeIfCurrent (accountId : String) (expectedTokens : TokenSet)
    (expectedAuthState : AccountAuthState) : AuthorityProgram Bool :=
  let accountId := Text.trim accountId
  if accountId = "" then fail .invalidAccountId
  else do
    let found ← findSlot accountId
    match found with
    | none => return false
    | some id => do
      let slot ← perform (.lockSlot id)
      if slot.authState ≠ expectedAuthState ∨ slot.tokens ≠ expectedTokens then return false
      else do
        let registered ← lockRegistered accountId id
        if registered = true then do
          perform (.retire id)
          perform (.removeSlot accountId)
          return true
        else return false

/-- The one removal that does not wait for the slot. -/
def remove (accountId : String) : AuthorityProgram Bool := do
  perform .lockSlots
  let found ← perform (.getSlot accountId)
  match found with
  | some id => do
    perform (.retire id)
    perform (.removeSlot accountId)
    return true
  | none => do
    perform (.removeSlot accountId)
    return false

/-- What a refusal is bound to: a generation, a token set, or an exact revision. -/
structure InvalidationFence where
  failedGeneration : Option Nat
  rejectedTokens : Option TokenSet
  rejectedRevision : Option TokenDispatchRevision
  deriving DecidableEq, Repr

def InvalidationFence.excludes (fence : InvalidationFence) (slot : TokenSlot)
    (current : TokenDispatchRevision) : Bool :=
  (fence.failedGeneration.any fun generation => slot.tokens.generation ≠ generation) ||
    (fence.rejectedTokens.any fun tokens => slot.tokens ≠ tokens) ||
    fence.rejectedRevision.any fun revision => revision ≠ current

/-- The invalidated set, pending until an adapter has taken it. -/
def persistInvalidated (accountId : String) (id : EntryId) (slot : TokenSlot) (nowMs : Nat) :
    AuthorityProgram Bool := do
  let slot ← writeSlot id
    { slot with tokens := slot.tokens.invalidated nowMs, persistencePending := true }
  persistTokens accountId id slot.tokens
  ensureCurrentSlot accountId id
  let _ ← writeSlot id { slot with persistencePending := false }
  return true

def invalidateAccessWithFence (accountId : String) (fence : InvalidationFence) (nowMs : Nat) :
    AuthorityProgram Bool := do
  let found ← findSlot accountId
  match found with
  | none => fail .accountNotFound
  | some id => do
    let slot ← perform (.lockSlot id)
    let current ← snapshot id
    if fence.excludes slot current = true then return false
    else do
      let registered ← lockRegistered accountId id
      if registered = true then do
        bump id
        perform .unlockSlots
        persistInvalidated accountId id slot nowMs
      else return false

def invalidateAccessAndPersist (accountId : String) (nowMs : Nat) : AuthorityProgram Bool :=
  invalidateAccessWithFence accountId ⟨none, none, none⟩ nowMs

def invalidateAccessGenerationAndPersist (accountId : String) (failedGeneration : Option Nat)
    (nowMs : Nat) : AuthorityProgram Bool :=
  invalidateAccessWithFence accountId ⟨failedGeneration, none, none⟩ nowMs

def invalidateAccessRevisionAndPersist (accountId : String)
    (rejectedRevision : TokenDispatchRevision) (nowMs : Nat) : AuthorityProgram Bool :=
  invalidateAccessWithFence accountId ⟨none, none, some rejectedRevision⟩ nowMs

def invalidateAccessIfCurrentAndPersist (accountId : String) (rejectedTokens : TokenSet)
    (nowMs : Nat) : AuthorityProgram Bool :=
  invalidateAccessWithFence accountId ⟨none, some rejectedTokens, none⟩ nowMs

end TokenAuthority

/-- What a caller may start; `dispatch` holds the revision's guard until it returns. -/
inductive AuthorityOperation where
  | register (accountId : String) (tokens : TokenSet) (authState : AccountAuthState)
  | registerIfNewer (accountId : String) (tokens : TokenSet) (authState : AccountAuthState)
  | registerIfNotStale (accountId : String) (tokens : TokenSet) (authState : AccountAuthState)
  | registerIfAbsent (accountId : String) (tokens : TokenSet) (authState : AccountAuthState)
  | replaceIfCurrent (accountId : String) (expectedTokens : TokenSet)
      (expectedAuthState : AccountAuthState) (replacementTokens : TokenSet)
      (replacementAuthState : AccountAuthState)
  | removeIfCurrent (accountId : String) (expectedTokens : TokenSet)
      (expectedAuthState : AccountAuthState)
  | remove (accountId : String)
  | prepare (accountId : String) (nowMs refreshSkewMs : Nat)
  | prepareAndPersist (accountId : String) (nowMs refreshSkewMs : Nat)
  | invalidateAccessAndPersist (accountId : String) (nowMs : Nat)
  | invalidateAccessGenerationAndPersist (accountId : String) (failedGeneration : Option Nat)
      (nowMs : Nat)
  | invalidateAccessRevisionAndPersist (accountId : String)
      (rejectedRevision : TokenDispatchRevision) (nowMs : Nat)
  | invalidateAccessIfCurrentAndPersist (accountId : String) (rejectedTokens : TokenSet)
      (nowMs : Nat)
  | dispatch (revision : TokenDispatchRevision)
  deriving DecidableEq, Repr

inductive AuthorityResult where
  | changed (result : Except AuthorityFailure Bool)
  | prepared (accountId : String) (result : Except AuthorityFailure PreparedToken)
  | dispatched (granted : Bool)
  deriving DecidableEq

namespace AuthorityOperation

open TokenAuthority

def changing (program : AuthorityProgram Bool) :
    Resumption AuthorityAction.Response AuthorityResult :=
  program.run >>= fun result => pure (.changed result)

def preparing (accountId : String) (program : AuthorityProgram PreparedToken) :
    Resumption AuthorityAction.Response AuthorityResult :=
  program.run >>= fun result => pure (.prepared accountId result)

def program : AuthorityOperation → Resumption AuthorityAction.Response AuthorityResult
  | .register accountId tokens authState => changing (TokenAuthority.register accountId tokens authState)
  | .registerIfNewer accountId tokens authState =>
    changing (TokenAuthority.registerIfNewer accountId tokens authState)
  | .registerIfNotStale accountId tokens authState =>
    changing (TokenAuthority.registerIfNotStale accountId tokens authState)
  | .registerIfAbsent accountId tokens authState =>
    changing (TokenAuthority.registerIfAbsent accountId tokens authState)
  | .replaceIfCurrent accountId expectedTokens expectedAuthState replacementTokens
      replacementAuthState =>
    changing (TokenAuthority.replaceIfCurrent accountId expectedTokens expectedAuthState
      replacementTokens replacementAuthState)
  | .removeIfCurrent accountId expectedTokens expectedAuthState =>
    changing (TokenAuthority.removeIfCurrent accountId expectedTokens expectedAuthState)
  | .remove accountId => changing (TokenAuthority.remove accountId)
  | .prepare accountId nowMs refreshSkewMs =>
    preparing accountId (TokenAuthority.prepare accountId nowMs refreshSkewMs)
  | .prepareAndPersist accountId nowMs refreshSkewMs =>
    preparing accountId (TokenAuthority.prepareAndPersist accountId nowMs refreshSkewMs)
  | .invalidateAccessAndPersist accountId nowMs =>
    changing (TokenAuthority.invalidateAccessAndPersist accountId nowMs)
  | .invalidateAccessGenerationAndPersist accountId failedGeneration nowMs =>
    changing
      (TokenAuthority.invalidateAccessGenerationAndPersist accountId failedGeneration nowMs)
  | .invalidateAccessRevisionAndPersist accountId rejectedRevision nowMs =>
    changing (TokenAuthority.invalidateAccessRevisionAndPersist accountId rejectedRevision nowMs)
  | .invalidateAccessIfCurrentAndPersist accountId rejectedTokens nowMs =>
    changing (TokenAuthority.invalidateAccessIfCurrentAndPersist accountId rejectedTokens nowMs)
  | .dispatch revision =>
    .perform (.guardRevision revision) fun granted => .done (.dispatched granted)

end AuthorityOperation

abbrev AuthorityPool := TaskPool AuthorityAction.Response TokenAuthority AuthorityResult

abbrev AuthorityEvent := TaskEvent AuthorityOperation AdapterOracle

namespace AuthorityPool

def step (pool : AuthorityPool) (event : AuthorityEvent) : AuthorityPool :=
  TaskPool.step TokenAuthority.machine AuthorityOperation.program pool event

def run (pool : AuthorityPool) (events : List AuthorityEvent) : AuthorityPool :=
  TaskPool.run TokenAuthority.machine AuthorityOperation.program pool events

end AuthorityPool

end ZenithRelay.Accounts
