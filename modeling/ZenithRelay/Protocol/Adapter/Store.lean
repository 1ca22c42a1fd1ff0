import ZenithRelay.Foundations.BTreeMap
import ZenithRelay.Foundations.Integers
import ZenithRelay.Foundations.Selection

/-!
# Bounded continuation stores

The bounded state store behind the protocol continuations, with the two stores
that wrap it. A state is opaque here but for its JSON length, and for the history
key of an adapter continuation.
-/

set_option autoImplicit false

namespace ZenithRelay.Protocol.Adapter

/-- Local key id and response id. -/
abbrev ReplayKey := String × String

structure StoredState (State : Type) where
  state : State
  candidateId : String
  observedAtMs : Nat
  sizeBytes : Nat
  superseded : Bool

structure StoreLimits where
  maxEntries : Nat
  ttlMs : Nat
  maxEntryBytes : Nat
  maxTotalBytes : Nat
  maxTotalBytes_fits : maxTotalBytes ≤ usizeMax

structure BoundedStateStore (State : Type) where
  limits : StoreLimits
  entries : BTreeMap ReplayKey (StoredState State)
  totalBytes : Nat

/-- `json_size::serialized_len`, for a value whose serialization has `length`
bytes; none when it does not serialize. -/
def serializedLen (length : Option Nat) (maxBytes : Nat) : Option Nat :=
  length.filter (· ≤ maxBytes)

namespace BoundedStateStore

variable {State : Type}

def empty (limits : StoreLimits) : BoundedStateStore State := ⟨limits, ∅, 0⟩

/-- The entry is within its time to live. -/
def retained (limits : StoreLimits) (nowMs : Nat) (stored : StoredState State) : Bool :=
  nowMs - stored.observedAtMs ≤ limits.ttlMs

def prune (store : BoundedStateStore State) (nowMs : Nat) : BoundedStateStore State :=
  let removedBytes := store.entries.toList.foldl (fun removed entry =>
    if retained store.limits nowMs entry.2 then removed
    else saturatingAdd usizeMax removed entry.2.sizeBytes) 0
  { store with
    entries := store.entries.filter fun _ stored => retained store.limits nowMs stored
    totalBytes := store.totalBytes - removedBytes }

def get (store : BoundedStateStore State) (localKeyId responseId : String) (nowMs : Nat) :
    BoundedStateStore State × Option (StoredState State) :=
  let store := store.prune nowMs
  (store, store.entries[(localKeyId, responseId)]?)

/-- Removes the entry of `key` with its bytes, if there is one. -/
def removeEntry (store : BoundedStateStore State) (key : ReplayKey) : BoundedStateStore State :=
  match store.entries[key]? with
  | some existing =>
    { store with
      entries := store.entries.erase key
      totalBytes := store.totalBytes - existing.sizeBytes }
  | none => store

/-- Older snapshots of the same history lose their eviction priority. -/
def markSuperseded (store : BoundedStateStore State) (localKeyId candidateId : String)
    (superseding : State → Bool) : BoundedStateStore State :=
  { store with
    entries := store.entries.map fun key stored =>
      if !stored.superseded && key.1 == localKeyId && stored.candidateId == candidateId
          && superseding stored.state then
        { stored with superseded := true }
      else stored }

/-- Superseded entries come first, then the oldest. -/
def evictionOrder (left right : ReplayKey × StoredState State) : Ordering :=
  (compare (!left.2.superseded) (!right.2.superseded)).then
    (compare left.2.observedAtMs right.2.observedAtMs)

/-- The key that `evict_oldest` picks. -/
def oldest (store : BoundedStateStore State) : Option ReplayKey :=
  (Selection.minBy evictionOrder store.entries.toList).map Prod.fst

/-- No room for one more entry of `sizeBytes`. -/
def full (store : BoundedStateStore State) (sizeBytes : Nat) : Prop :=
  store.limits.maxEntries ≤ store.entries.size ∨
    store.limits.maxTotalBytes < saturatingAdd usizeMax store.totalBytes sizeBytes

instance (store : BoundedStateStore State) (sizeBytes : Nat) : Decidable (store.full sizeBytes) :=
  inferInstanceAs (Decidable (_ ∨ _))

theorem oldest_mem {store : BoundedStateStore State} {key : ReplayKey}
    (chosen : store.oldest = some key) : ∃ stored, store.entries[key]? = some stored := by
  obtain ⟨entry, picked, rfl⟩ := Option.map_eq_some_iff.mp chosen
  exact ⟨entry.2, BTreeMap.mem_toList_iff.mp (Selection.minBy_mem picked)⟩

private theorem removeEntry_smaller {store : BoundedStateStore State} {key : ReplayKey}
    (chosen : store.oldest = some key) :
    (store.removeEntry key).entries.size < store.entries.size := by
  obtain ⟨stored, found⟩ := oldest_mem chosen
  have shrinks := BTreeMap.size_erase_found found
  rw [removeEntry, found]
  simp only
  omega

/-- The eviction loop; it fails when nothing is left to evict. -/
def makeRoom (store : BoundedStateStore State) (sizeBytes : Nat) :
    BoundedStateStore State × Bool :=
  if store.full sizeBytes then
    match _chosen : store.oldest with
    | none => (store, false)
    | some key => makeRoom (store.removeEntry key) sizeBytes
  else (store, true)
termination_by store.entries.size
decreasing_by exact removeEntry_smaller ‹_›

/-- `superseding` is `is_predecessor` of a stored state and the new one. -/
def insert (jsonLength : State → Option Nat) (store : BoundedStateStore State)
    (localKeyId responseId candidateId : String) (state : State) (nowMs : Nat)
    (superseding : State → State → Bool) : BoundedStateStore State × Bool :=
  let store := store.prune nowMs
  if store.limits.maxEntries = 0 ∨ store.limits.maxEntryBytes = 0 ∨
      store.limits.maxTotalBytes = 0 then
    (store, false)
  else
    match serializedLen (jsonLength state)
        (min store.limits.maxEntryBytes store.limits.maxTotalBytes) with
    | none => (store, false)
    | some sizeBytes =>
      let cleared := (store.removeEntry (localKeyId, responseId)).markSuperseded
        localKeyId candidateId (superseding · state)
      match cleared.makeRoom sizeBytes with
      | (store, false) => (store, false)
      | (store, true) =>
        ({ store with
            entries := store.entries.insert (localKeyId, responseId)
              ⟨state, candidateId, nowMs, sizeBytes, false⟩
            totalBytes := saturatingAdd usizeMax store.totalBytes sizeBytes }, true)

end BoundedStateStore

/-- The history key of a continuation and, opaque here, its portable history,
native turns, tools, protocols and model. -/
structure AdapterContinuationState (Turns : Type) where
  historyKey : Option String
  turns : Turns
  deriving DecidableEq

inductive ContinuationError where
  | continuationMissing
  | continuationMismatch
  deriving DecidableEq, Repr

namespace AdapterContinuationStore

/-- The entry of the response id, or else the one that all of the key's entries
with this history key stand for. -/
def lookup {Turns : Type} [DecidableEq Turns]
    (store : BoundedStateStore (AdapterContinuationState Turns)) (localKeyId responseId : String) :
    Except ContinuationError (StoredState (AdapterContinuationState Turns)) :=
  match store.entries[(localKeyId, responseId)]? with
  | some stored => .ok stored
  | none =>
    match store.entries.toList.filter fun entry =>
        entry.1.1 == localKeyId && entry.2.state.historyKey == some responseId with
    | [] => .error .continuationMissing
    | first :: others =>
      if others.any fun other =>
          other.2.candidateId != first.2.candidateId || other.2.state != first.2.state then
        .error .continuationMismatch
      else .ok first.2

def get {Turns : Type} [DecidableEq Turns]
    (store : BoundedStateStore (AdapterContinuationState Turns))
    (localKeyId responseId candidateId : String) (nowMs : Nat) :
    BoundedStateStore (AdapterContinuationState Turns) ×
      Except ContinuationError (AdapterContinuationState Turns) :=
  let store := store.prune nowMs
  (store,
    match lookup store localKeyId responseId with
    | .error error => .error error
    | .ok stored =>
      if stored.candidateId != candidateId then .error .continuationMismatch
      else .ok stored.state)

def insertIfStored {State : Type} [DecidableEq State] (jsonLength : State → Option Nat)
    (store : BoundedStateStore State) (localKeyId responseId candidateId : String)
    (bridgeState : State) (nowMs : Nat) : BoundedStateStore State × Bool :=
  let (store, stored) := store.get localKeyId responseId nowMs
  if stored.any fun stored =>
      stored.candidateId != candidateId || stored.state != bridgeState then
    (store, false)
  else
    store.insert jsonLength localKeyId responseId candidateId bridgeState nowMs
      fun _ _ => false

end AdapterContinuationStore

/-- `NativeResponsesReplayStore::get`, of the same store over replay states. -/
def NativeResponsesReplayStore.get {Replay : Type} (store : BoundedStateStore Replay)
    (localKeyId responseId candidateId : String) (nowMs : Nat) :
    BoundedStateStore Replay × Option Replay :=
  let (store, stored) := store.get localKeyId responseId nowMs
  (store, (stored.filter (·.candidateId == candidateId)).map (·.state))

/-- A call to a store. The wrappers' lookups change the store as `get` does. -/
inductive StoreCall (State : Type) where
  | prune (nowMs : Nat)
  | get (localKeyId responseId : String) (nowMs : Nat)
  | insert (localKeyId responseId candidateId : String) (state : State) (nowMs : Nat)
      (superseding : State → State → Bool)
  | insertIfStored (localKeyId responseId candidateId : String) (state : State) (nowMs : Nat)

def StoreCall.apply {State : Type} [DecidableEq State] (jsonLength : State → Option Nat)
    (store : BoundedStateStore State) : StoreCall State → BoundedStateStore State
  | .prune nowMs => store.prune nowMs
  | .get localKeyId responseId nowMs => (store.get localKeyId responseId nowMs).1
  | .insert localKeyId responseId candidateId state nowMs superseding =>
    (store.insert jsonLength localKeyId responseId candidateId state nowMs superseding).1
  | .insertIfStored localKeyId responseId candidateId state nowMs =>
    (AdapterContinuationStore.insertIfStored jsonLength store localKeyId responseId candidateId
      state nowMs).1

end ZenithRelay.Protocol.Adapter
