import ZenithRelay.Accounts.Tokens
import ZenithRelay.Foundations.TaskPool

/-!
# Token slots

The state that the tasks of a token authority share: the map of accounts under its
mutex, and for each slot the tokens under an async mutex and the revision under a
read-write lock. Every access to it is one action.
-/

set_option autoImplicit false

namespace ZenithRelay.Accounts

structure TokenSlot where
  tokens : TokenSet
  authState : AccountAuthState
  persistencePending : Bool
  authStatePersistencePending : Bool
  deriving DecidableEq, Repr

def TokenSlot.fresh (tokens : TokenSet) (authState : AccountAuthState) : TokenSlot where
  tokens := tokens
  authState := authState
  persistencePending := false
  authStatePersistencePending := false

/-- The address of a slot; an account that is registered again gets another one. -/
abbrev EntryId := Nat

/-- The slot behind one `Arc`. `accountId` is the key it was inserted under, `heldBy`
the owner of the async mutex, `guards` the readers of the revision lock. -/
structure TokenSlotEntry where
  accountId : String
  slot : TokenSlot
  heldBy : Option TaskId
  revisionNumber : Nat
  active : Bool
  guards : List TaskId
  deriving DecidableEq, Repr

def TokenSlotEntry.new (accountId : String) (slot : TokenSlot) : TokenSlotEntry where
  accountId := accountId
  slot := slot
  heldBy := none
  revisionNumber := 0
  active := true
  guards := []

/-- The slot without what `task` holds of it. -/
def TokenSlotEntry.releasedBy (entry : TokenSlotEntry) (task : TaskId) : TokenSlotEntry :=
  { entry with
    heldBy := if entry.heldBy = some task then none else entry.heldBy
    guards := entry.guards.filter (· ≠ task) }

structure TokenDispatchRevision where
  entry : EntryId
  expectedRevision : Nat
  deriving DecidableEq, Repr

/-- `persisted` is the last token set of each slot that a persistence adapter took. -/
structure TokenAuthority where
  slots : BTreeMap String EntryId
  slotsHeldBy : Option TaskId
  entries : BTreeMap EntryId TokenSlotEntry
  nextEntry : EntryId
  maxAccounts : Nat
  persisted : BTreeMap EntryId TokenSet

namespace TokenAuthority

def new (maxAccounts : Nat) : Except TokenAuthorityError TokenAuthority :=
  if maxAccounts = 0 then .error .invalidCapacity
  else
    .ok
      { slots := ∅
        slotsHeldBy := none
        entries := ∅
        nextEntry := 0
        maxAccounts := maxAccounts
        persisted := ∅ }

def putEntry (authority : TokenAuthority) (id : EntryId) (entry : TokenSlotEntry) :
    TokenAuthority :=
  { authority with entries := authority.entries.insert id entry }

/-- Whether `guard` of the revision returns a guard. -/
def grants (authority : TokenAuthority) (revision : TokenDispatchRevision) : Bool :=
  authority.entries[revision.entry]?.any fun entry =>
    entry.active && entry.revisionNumber = revision.expectedRevision

end TokenAuthority

inductive AuthorityAction where
  | lockSlots
  | unlockSlots
  | getSlot (accountId : String)
  | atCapacity
  | insertSlot (accountId : String) (candidate : TokenSlot)
  | removeSlot (accountId : String)
  | lockSlot (id : EntryId)
  | writeSlot (id : EntryId) (slot : TokenSlot)
  | bump (id : EntryId)
  | retire (id : EntryId)
  | snapshot (id : EntryId)
  | refreshFenced (accountId refreshToken : String) (nowMs : Nat) (revision : TokenDispatchRevision)
  | persistFenced (accountId : String) (tokens : TokenSet) (revision : TokenDispatchRevision)
  | persistAuthStateFenced (accountId : String) (authState : AccountAuthState)
      (revision : TokenDispatchRevision)
  | guardRevision (revision : TokenDispatchRevision)
  deriving DecidableEq, Repr

namespace AuthorityAction

/-- `bump` answers whether the revision could be counted up. -/
@[reducible] def Response : AuthorityAction → Type
  | .getSlot _ => Option EntryId
  | .atCapacity => Bool
  | .lockSlot _ => TokenSlot
  | .bump _ => Bool
  | .snapshot _ => Nat
  | .refreshFenced .. => Except TokenRefreshFailure TokenRefresh
  | .persistFenced .. => Except String Unit
  | .persistAuthStateFenced .. => Except String Unit
  | .guardRevision _ => Bool
  | _ => Unit

/-- Where a future can be dropped: a wait for the slot, or an adapter's call. -/
def awaits : AuthorityAction → Bool
  | .lockSlot _ | .refreshFenced .. | .persistFenced .. | .persistAuthStateFenced .. => true
  | _ => false

end AuthorityAction

/-- What the adapters answer, should the next action ask one of them. -/
structure AdapterOracle where
  refresh : Except TokenRefreshFailure TokenRefresh
  persist : Except String Unit

namespace TokenAuthority

def execute (authority : TokenAuthority) (task : TaskId) :
    (action : AuthorityAction) → AdapterOracle → Option (TokenAuthority × action.Response)
  | .lockSlots, _ =>
    match authority.slotsHeldBy with
    | none => some ({ authority with slotsHeldBy := some task }, ())
    | some _ => none
  | .unlockSlots, _ => some ({ authority with slotsHeldBy := none }, ())
  | .getSlot accountId, _ => some (authority, authority.slots[accountId]?)
  | .atCapacity, _ => some (authority, authority.slots.size ≥ authority.maxAccounts)
  | .insertSlot accountId candidate, _ =>
    some
      ({ authority with
          slots := authority.slots.insert accountId authority.nextEntry
          entries := authority.entries.insert authority.nextEntry (.new accountId candidate)
          nextEntry := authority.nextEntry + 1 }, ())
  | .removeSlot accountId, _ =>
    some ({ authority with slots := authority.slots.erase accountId }, ())
  | .lockSlot id, _ =>
    authority.entries[id]?.bind fun entry =>
      match entry.heldBy with
      | none => some (authority.putEntry id { entry with heldBy := some task }, entry.slot)
      | some _ => none
  | .writeSlot id slot, _ =>
    authority.entries[id]?.bind fun entry =>
      some (authority.putEntry id { entry with slot := slot }, ())
  | .bump id, _ =>
    authority.entries[id]?.bind fun entry =>
      if entry.guards ≠ [] then none
      else if entry.revisionNumber < u64Max then
        some (authority.putEntry id { entry with revisionNumber := entry.revisionNumber + 1 }, true)
      else some (authority, false)
  | .retire id, _ =>
    authority.entries[id]?.bind fun entry =>
      if entry.guards ≠ [] then none
      else some (authority.putEntry id { entry with active := false }, ())
  | .snapshot id, _ =>
    authority.entries[id]?.bind fun entry => some (authority, entry.revisionNumber)
  | .refreshFenced .., oracle => some (authority, oracle.refresh)
  | .persistFenced _ tokens revision, oracle =>
    match oracle.persist with
    | .ok () =>
      some ({ authority with persisted := authority.persisted.insert revision.entry tokens }, .ok ())
    | .error code => some (authority, .error code)
  | .persistAuthStateFenced .., oracle => some (authority, oracle.persist)
  | .guardRevision revision, _ =>
    authority.entries[revision.entry]?.bind fun entry =>
      if authority.grants revision then
        some (authority.putEntry revision.entry { entry with guards := task :: entry.guards }, true)
      else some (authority, false)

/-- Everything a task holds is given back when it returns or is dropped. -/
def leave (authority : TokenAuthority) (task : TaskId) : TokenAuthority :=
  { authority with
    slotsHeldBy := if authority.slotsHeldBy = some task then none else authority.slotsHeldBy
    entries := authority.entries.map fun _ entry => entry.releasedBy task }

def machine : TaskMachine AuthorityAction.Response TokenAuthority AdapterOracle where
  execute := execute
  awaits := AuthorityAction.awaits
  leave := leave

end TokenAuthority

/-- How an operation ends other than by returning a value. -/
inductive AuthorityFailure where
  | failed (error : TokenAuthorityError)
  | panicked (message : String)
  deriving DecidableEq, Repr

abbrev AuthorityProgram := ExceptT AuthorityFailure (Resumption AuthorityAction.Response)

end ZenithRelay.Accounts
