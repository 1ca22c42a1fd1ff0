import ZenithRelay.Protocol.Adapter.StoreEviction

/-!
# Insertions into a continuation store

A refused insertion changes nothing but what pruning does; any other makes room,
stores its state and keeps the store within its limits.
-/

set_option autoImplicit false

namespace ZenithRelay.Protocol.Adapter

namespace BoundedStateStore

variable {State : Type}

/-- The store in which an insertion makes room. -/
def cleared (store : BoundedStateStore State) (localKeyId responseId candidateId : String)
    (state : State) (nowMs : Nat) (superseding : State → State → Bool) :
    BoundedStateStore State :=
  ((store.prune nowMs).removeEntry (localKeyId, responseId)).markSuperseded
    localKeyId candidateId (superseding · state)

/-- An insertion refuses what the limits exclude and stores everything else. -/
inductive Inserted (jsonLength : State → Option Nat) (store : BoundedStateStore State)
    (localKeyId responseId candidateId : String) (state : State) (nowMs : Nat)
    (superseding : State → State → Bool) : BoundedStateStore State × Bool → Prop
  | refused : Inserted jsonLength store localKeyId responseId candidateId state nowMs superseding
      (store.prune nowMs, false)
  | stored (sizeBytes : Nat) (size : jsonLength state = some sizeBytes)
      (entryFits : sizeBytes ≤ store.limits.maxEntryBytes)
      (room : BoundedStateStore State)
      (made : RoomMade
        (store.cleared localKeyId responseId candidateId state nowMs superseding) sizeBytes
        (room, true)) :
      Inserted jsonLength store localKeyId responseId candidateId state nowMs superseding
        ({ room with
            entries := room.entries.insert (localKeyId, responseId)
              ⟨state, candidateId, nowMs, sizeBytes, false⟩
            totalBytes := saturatingAdd usizeMax room.totalBytes sizeBytes }, true)

/-- An admissible insertion adds its entry to the store that made room. -/
theorem insert_made {jsonLength : State → Option Nat} {store room : BoundedStateStore State}
    {localKeyId responseId candidateId : String} {state : State} {nowMs : Nat}
    {superseding : State → State → Bool} {sizeBytes : Nat}
    (limited : ¬(store.limits.maxEntries = 0 ∨ store.limits.maxEntryBytes = 0 ∨
      store.limits.maxTotalBytes = 0))
    (size : serializedLen (jsonLength state)
      (min store.limits.maxEntryBytes store.limits.maxTotalBytes) = some sizeBytes)
    (made : (store.cleared localKeyId responseId candidateId state nowMs superseding).makeRoom
      sizeBytes = (room, true)) :
    store.insert jsonLength localKeyId responseId candidateId state nowMs superseding =
      ({ room with
          entries := room.entries.insert (localKeyId, responseId)
            ⟨state, candidateId, nowMs, sizeBytes, false⟩
          totalBytes := saturatingAdd usizeMax room.totalBytes sizeBytes }, true) := by
  rw [insert]
  simp only [prune_limits, if_neg limited, size]
  rw [← cleared, made]

@[simp] theorem cleared_limits (store : BoundedStateStore State)
    (localKeyId responseId candidateId : String) (state : State) (nowMs : Nat)
    (superseding : State → State → Bool) :
    (store.cleared localKeyId responseId candidateId state nowMs superseding).limits =
      store.limits := by simp [cleared]

theorem insert_limits (jsonLength : State → Option Nat) (store : BoundedStateStore State)
    (localKeyId responseId candidateId : String) (state : State) (nowMs : Nat)
    (superseding : State → State → Bool) :
    (store.insert jsonLength localKeyId responseId candidateId state nowMs superseding).1.limits =
      store.limits := by
  rw [insert]
  split
  next => rfl
  next =>
    split
    next => rfl
    next sizeBytes _ =>
      have kept := (makeRoom_spec (store.cleared localKeyId responseId candidateId state nowMs
        superseding) sizeBytes).limits
      rw [cleared_limits, cleared] at kept
      dsimp only
      split
      next same => rw [same] at kept; exact kept
      next same => rw [same] at kept; exact kept

private theorem cleared_accounted {store : BoundedStateStore State} (accounted : store.Accounted)
    (localKeyId responseId candidateId : String) (state : State) (nowMs : Nat)
    (superseding : State → State → Bool) :
    (store.cleared localKeyId responseId candidateId state nowMs superseding).Accounted :=
  markSuperseded_accounted (removeEntry_accounted (prune_accounted accounted nowMs) _) _ _ _

theorem cleared_covered {store : BoundedStateStore State} (covered : store.Covered)
    (localKeyId responseId candidateId : String) (state : State) (nowMs : Nat)
    (superseding : State → State → Bool) :
    (store.cleared localKeyId responseId candidateId state nowMs superseding).Covered := by
  have before := removeEntry_covered (prune_covered covered nowMs) (localKeyId, responseId)
  exact ⟨(storedBytes_markSuperseded _ _ _ _).symm ▸ before.stored, before.word⟩

theorem insert_cases {store : BoundedStateStore State} (covered : store.Covered)
    (jsonLength : State → Option Nat) (localKeyId responseId candidateId : String) (state : State)
    (nowMs : Nat) (superseding : State → State → Bool) :
    Inserted jsonLength store localKeyId responseId candidateId state nowMs superseding
      (store.insert jsonLength localKeyId responseId candidateId state nowMs superseding) := by
  rw [insert]
  split
  next => exact .refused
  next limited =>
    rw [prune_limits] at limited ⊢
    cases size : serializedLen (jsonLength state)
        (min store.limits.maxEntryBytes store.limits.maxTotalBytes) with
    | none => exact .refused
    | some sizeBytes =>
      obtain ⟨length, within⟩ := Option.filter_eq_some_iff.mp size
      have bounds : sizeBytes ≤ store.limits.maxEntryBytes ∧
          sizeBytes ≤ store.limits.maxTotalBytes := Nat.le_min.mp (by simpa using within)
      have succeeds := makeRoom_succeeds
        (cleared_covered covered localKeyId responseId candidateId state nowMs superseding)
        (by rw [cleared_limits]; omega)
        ((cleared_limits store localKeyId responseId candidateId state nowMs superseding).symm ▸
          bounds.2)
      have spec := makeRoom_spec
        (store.cleared localKeyId responseId candidateId state nowMs superseding) sizeBytes
      simp only
      rw [← cleared]
      generalize makeRoom (store.cleared localKeyId responseId candidateId state nowMs
        superseding) sizeBytes = room at succeeds spec ⊢
      obtain ⟨room, ok⟩ := room
      obtain rfl : ok = true := succeeds
      exact .stored sizeBytes length bounds.1 room spec

/-- A stored entry of a cleared store was there before, up to its priority. -/
theorem lookup_cleared {store : BoundedStateStore State}
    {localKeyId responseId candidateId : String} {state : State} {nowMs : Nat}
    {superseding : State → State → Bool} {key : ReplayKey} {stored : StoredState State}
    (found : (store.cleared localKeyId responseId candidateId state nowMs superseding).entries[key]?
      = some stored) :
    key ≠ (localKeyId, responseId) ∧ ∃ before, (store.prune nowMs).entries[key]? = some before ∧
      stored = { before with superseded := stored.superseded } := by
  obtain ⟨before, present, same⟩ := lookup_markSuperseded found
  rw [lookup_removeEntry] at present
  split at present
  next => cases present
  next different => exact ⟨different, before, present, same⟩

theorem RoomMade.cleared_absent {store : BoundedStateStore State}
    {localKeyId responseId candidateId : String} {state : State} {nowMs : Nat}
    {superseding : State → State → Bool} {sizeBytes : Nat} {room : BoundedStateStore State × Bool}
    (made : RoomMade
      (store.cleared localKeyId responseId candidateId state nowMs superseding) sizeBytes room) :
    room.1.entries[(localKeyId, responseId)]? = none := by
  cases found : room.1.entries[(localKeyId, responseId)]? with
  | none => rfl
  | some stored => exact absurd rfl (lookup_cleared (made.subset _ stored found)).1

private theorem storedBytes_cleared_le (store : BoundedStateStore State)
    (localKeyId responseId candidateId : String) (state : State) (nowMs : Nat)
    (superseding : State → State → Bool) :
    (store.cleared localKeyId responseId candidateId state nowMs superseding).storedBytes ≤
      store.storedBytes := by
  rw [cleared, storedBytes_markSuperseded]
  exact (storedBytes_removeEntry_le _ _).trans (storedBytes_prune_le store nowMs)

/-- The stored bytes and the new state's together fit a machine word, or the
limit lies below the largest word. -/
def FitsWord (jsonLength : State → Option Nat) (store : BoundedStateStore State)
    (state : State) : Prop :=
  store.limits.maxTotalBytes < usizeMax ∨
    ∀ sizeBytes, jsonLength state = some sizeBytes → store.storedBytes + sizeBytes ≤ usizeMax

theorem FitsWord.prune {jsonLength : State → Option Nat} {store : BoundedStateStore State}
    {state : State} (fits : FitsWord jsonLength store state) (nowMs : Nat) :
    FitsWord jsonLength (store.prune nowMs) state := by
  have fewer := storedBytes_prune_le store nowMs
  refine fits.imp id fun together sizeBytes size => ?_
  have sum := together sizeBytes size
  omega

/-- An insertion keeps an exact account while its sum fits a machine word. -/
theorem insert_accounted {jsonLength : State → Option Nat} {store : BoundedStateStore State}
    (accounted : store.Accounted) (localKeyId responseId candidateId : String)
    {state : State} (fits : FitsWord jsonLength store state) (nowMs : Nat)
    (superseding : State → State → Bool) :
    (store.insert jsonLength localKeyId responseId candidateId state nowMs
      superseding).1.Accounted := by
  have outcome := insert_cases accounted.covered jsonLength localKeyId responseId
    candidateId state nowMs superseding
  generalize store.insert jsonLength localKeyId responseId candidateId state nowMs superseding =
    result at outcome ⊢
  cases outcome with
  | refused => exact prune_accounted accounted nowMs
  | stored sizeBytes size entryFits room made =>
    have limits : room.limits = store.limits :=
      made.limits.trans (cleared_limits store _ _ _ _ _ _)
    have account : room.Accounted := made.accounted (cleared_accounted accounted _ _ _ _ _ _)
    have fewer : room.storedBytes ≤ store.storedBytes :=
      made.bytes.trans (storedBytes_cleared_le store _ _ _ _ _ _)
    have free : ¬room.full sizeBytes := made.made rfl
    rw [full, limits, saturatingAdd, account.exact] at free
    have word : room.storedBytes + sizeBytes ≤ store.limits.maxTotalBytes := by
      have bound := store.limits.maxTotalBytes_fits
      rcases fits with below | together
      · omega
      · have sum := together sizeBytes size
        omega
    have absent : room.entries[(localKeyId, responseId)]? = none := made.cleared_absent
    have bytes : BTreeMap.sumBy (room.entries.insert (localKeyId, responseId)
        ⟨state, candidateId, nowMs, sizeBytes, false⟩) (fun _ stored => stored.sizeBytes) =
        room.storedBytes + sizeBytes := by
      rw [BTreeMap.sumBy_insert, BTreeMap.sumBy_erase_absent _ absent]
      rfl
    constructor
    · rw [storedBytes]
      simp only
      rw [bytes, account.exact, saturatingAdd_eq]
      exact word.trans store.limits.maxTotalBytes_fits
    · rw [storedBytes]
      simp only
      rw [bytes, limits]
      exact word

/-- Where an entry of the store after an insertion comes from. -/
theorem insert_origin {store : BoundedStateStore State} (covered : store.Covered)
    {jsonLength : State → Option Nat} {localKeyId responseId candidateId : String} {state : State}
    {nowMs : Nat} {superseding : State → State → Bool} {key : ReplayKey}
    {stored : StoredState State}
    (found : (store.insert jsonLength localKeyId responseId candidateId state nowMs
      superseding).1.entries[key]? = some stored) :
    (key = (localKeyId, responseId) ∧ stored.state = state ∧ stored.candidateId = candidateId) ∨
      ∃ before, (store.prune nowMs).entries[key]? = some before ∧
        stored.state = before.state ∧ stored.candidateId = before.candidateId := by
  have outcome := insert_cases covered jsonLength localKeyId responseId candidateId state nowMs
    superseding
  generalize store.insert jsonLength localKeyId responseId candidateId state nowMs superseding =
    result at outcome found
  cases outcome with
  | refused => exact Or.inr ⟨stored, found, rfl, rfl⟩
  | stored sizeBytes size entryFits room made =>
    simp only [BTreeMap.lookup_insert] at found
    split at found
    next same =>
      cases found
      exact Or.inl ⟨same, rfl, rfl⟩
    next =>
      obtain ⟨-, before, present, same⟩ := lookup_cleared (made.subset key stored found)
      exact Or.inr ⟨before, present, by rw [same], by rw [same]⟩

/-- What every insertion into the store does. -/
structure InsertLaws (jsonLength : State → Option Nat) (store : BoundedStateStore State)
    (localKeyId responseId candidateId : String) (state : State) (nowMs : Nat)
    (superseding : State → State → Bool) (result : BoundedStateStore State × Bool) : Prop where
  /-- A refused insertion leaves what pruning leaves. -/
  refused : result.2 = false → result.1 = store.prune nowMs
  readable : result.2 = true → ∃ stored, (result.1.get localKeyId responseId nowMs).2 = some stored ∧
    stored.state = state ∧ stored.candidateId = candidateId
  /-- Everything evicted goes before everything kept. -/
  eviction : result.2 = true → ∀ (key other : ReplayKey) (removed kept : StoredState State),
    (store.cleared localKeyId responseId candidateId state nowMs superseding).entries[key]? =
        some removed →
      result.1.entries[key]? = none → other ≠ (localKeyId, responseId) →
      result.1.entries[other]? = some kept → EvictedBefore removed kept

theorem insert_laws {jsonLength : State → Option Nat} {store : BoundedStateStore State}
    (covered : store.Covered) (localKeyId responseId candidateId : String) (state : State)
    (nowMs : Nat) (superseding : State → State → Bool) :
    InsertLaws jsonLength store localKeyId responseId candidateId state nowMs superseding
      (store.insert jsonLength localKeyId responseId candidateId state nowMs superseding) := by
  have outcome := insert_cases covered jsonLength localKeyId responseId candidateId state nowMs
    superseding
  generalize store.insert jsonLength localKeyId responseId candidateId state nowMs superseding =
    result at outcome ⊢
  cases outcome with
  | refused => exact ⟨fun _ => rfl, fun ok => absurd ok (by simp), fun ok => absurd ok (by simp)⟩
  | stored sizeBytes size entryFits room made =>
    refine ⟨fun failed => absurd failed (by simp), fun _ => ?_, fun _ => ?_⟩
    · refine ⟨⟨state, candidateId, nowMs, sizeBytes, false⟩, ?_, rfl, rfl⟩
      simp [get, lookup_prune, retained]
    · intro key other removed kept present gone different stays
      simp only [BTreeMap.lookup_insert] at gone stays
      rw [if_neg different] at stays
      split at gone
      next => cases gone
      next => exact made.ordered key other removed kept present gone stays

private theorem nothing_removed (limits : StoreLimits) (nowMs : Nat)
    (entries : List (ReplayKey × StoredState State)) (removed : Nat)
    (stay : ∀ entry ∈ entries, retained limits nowMs entry.2) :
    entries.foldl (fun removed entry =>
      if retained limits nowMs entry.2 then removed
      else saturatingAdd usizeMax removed entry.2.sizeBytes) removed = removed := by
  induction entries with
  | nil => rfl
  | cons entry entries ih =>
    rw [List.foldl_cons, if_pos (stay entry List.mem_cons_self)]
    exact ih fun other member => stay other (List.mem_cons_of_mem entry member)

theorem prune_prune (store : BoundedStateStore State) (nowMs : Nat) :
    (store.prune nowMs).prune nowMs = store.prune nowMs := by
  have entries : ((store.prune nowMs).prune nowMs).entries = (store.prune nowMs).entries := by
    apply BTreeMap.ext_lookup
    intro key
    rw [lookup_prune, lookup_prune, prune_limits]
    cases store.entries[key]? with
    | none => rfl
    | some stored => by_cases stays : retained store.limits nowMs stored <;> simp
  have removed := nothing_removed store.limits nowMs (store.prune nowMs).entries.toList 0 (by
    rintro ⟨key, stored⟩ member
    rw [BTreeMap.mem_toList_iff, lookup_prune] at member
    exact (Option.filter_eq_some_iff.mp member).2)
  have bytes : ((store.prune nowMs).prune nowMs).totalBytes = (store.prune nowMs).totalBytes := by
    change (store.prune nowMs).totalBytes - _ = _
    rw [prune_limits, removed, Nat.sub_zero]
  calc (store.prune nowMs).prune nowMs
      = ⟨store.limits, ((store.prune nowMs).prune nowMs).entries,
          ((store.prune nowMs).prune nowMs).totalBytes⟩ := rfl
    _ = store.prune nowMs := by rw [entries, bytes]; rfl

theorem insert_within {jsonLength : State → Option Nat} {store : BoundedStateStore State}
    (within : store.Within jsonLength) (localKeyId responseId candidateId : String) (state : State)
    (nowMs : Nat) (superseding : State → State → Bool) :
    (store.insert jsonLength localKeyId responseId candidateId state nowMs
      superseding).1.Within jsonLength := by
  have outcome := insert_cases within.covered jsonLength localKeyId responseId candidateId state
    nowMs superseding
  generalize store.insert jsonLength localKeyId responseId candidateId state nowMs superseding =
    result at outcome ⊢
  cases outcome with
  | refused => exact prune_within within nowMs
  | stored sizeBytes size entryFits room made =>
    have before : room.Covered := made.covered (cleared_covered within.covered _ _ _ _ _ _)
    have limits : room.limits = store.limits :=
      made.limits.trans (cleared_limits store _ _ _ _ _ _)
    have absent : room.entries[(localKeyId, responseId)]? = none := made.cleared_absent
    have free : ¬room.full sizeBytes := made.made rfl
    rw [full, limits] at free
    have stored := before.stored
    refine ⟨⟨?_, saturatingAdd_le _ _ _⟩, ?_, ?_, ?_⟩
    · rw [storedBytes]
      simp only
      rw [BTreeMap.sumBy_insert, BTreeMap.sumBy_erase_absent _ absent, saturatingAdd]
      rw [storedBytes] at stored
      simp only
      omega
    · simp only [limits]
      omega
    · simp only
      rw [BTreeMap.size_insert_fresh absent, limits]
      omega
    · intro key kept found
      simp only at found ⊢
      rw [BTreeMap.lookup_insert] at found
      rw [limits]
      split at found
      next =>
        cases found
        exact ⟨size, entryFits⟩
      next =>
        obtain ⟨-, earlier, present, same⟩ := lookup_cleared (made.subset key kept found)
        have old := (prune_within within nowMs).entry_bytes key earlier present
        rw [same]
        exact old

end BoundedStateStore

end ZenithRelay.Protocol.Adapter
