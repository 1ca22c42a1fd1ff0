import ZenithRelay.Protocol.Adapter.Store

/-!
# Room in a continuation store

The byte account of a store, and what pruning, removal and the eviction loop do to
it: superseded entries go first, then the oldest.
-/

set_option autoImplicit false

namespace ZenithRelay.Protocol.Adapter

namespace BoundedStateStore

variable {State : Type}

def storedBytes (store : BoundedStateStore State) : Nat :=
  BTreeMap.sumBy store.entries fun _ stored => stored.sizeBytes

/-- The account is exact and fits a machine word. -/
structure Accounted (store : BoundedStateStore State) : Prop where
  exact : store.totalBytes = store.storedBytes
  bounded : store.storedBytes ≤ store.limits.maxTotalBytes

/-- The account never exceeds what is stored, whatever saturated. -/
structure Covered (store : BoundedStateStore State) : Prop where
  stored : store.totalBytes ≤ store.storedBytes
  word : store.totalBytes ≤ usizeMax

theorem Accounted.covered {store : BoundedStateStore State} (accounted : store.Accounted) :
    store.Covered :=
  ⟨accounted.exact.le,
    accounted.exact.le.trans (accounted.bounded.trans store.limits.maxTotalBytes_fits)⟩

/-- Entries, their sizes and the account are within the limits. -/
structure Within (jsonLength : State → Option Nat) (store : BoundedStateStore State) : Prop where
  covered : store.Covered
  total_bounded : store.totalBytes ≤ store.limits.maxTotalBytes
  entries_bounded : store.entries.size ≤ store.limits.maxEntries
  entry_bytes : ∀ (key : ReplayKey) (stored : StoredState State),
    store.entries[key]? = some stored →
      jsonLength stored.state = some stored.sizeBytes ∧
        stored.sizeBytes ≤ store.limits.maxEntryBytes

theorem empty_accounted (limits : StoreLimits) : (empty limits : BoundedStateStore State).Accounted :=
  ⟨rfl, Nat.zero_le _⟩

theorem empty_within (jsonLength : State → Option Nat) (limits : StoreLimits) :
    (empty limits : BoundedStateStore State).Within jsonLength where
  covered := (empty_accounted limits).covered
  total_bounded := Nat.zero_le _
  entries_bounded := Nat.zero_le _
  entry_bytes := by simp [empty]

/-! ### Pruning -/

@[simp] theorem prune_limits (store : BoundedStateStore State) (nowMs : Nat) :
    (store.prune nowMs).limits = store.limits := rfl

@[simp] theorem lookup_prune (store : BoundedStateStore State) (nowMs : Nat) (key : ReplayKey) :
    (store.prune nowMs).entries[key]? =
      (store.entries[key]?).filter (retained store.limits nowMs) :=
  BTreeMap.lookup_filter store.entries (fun _ stored => retained store.limits nowMs stored) key

private theorem removed_sum (limits : StoreLimits) (nowMs : Nat)
    (entries : List (ReplayKey × StoredState State)) (removed : Nat)
    (fits : removed + (entries.map fun entry => entry.2.sizeBytes).sum ≤ usizeMax) :
    entries.foldl (fun removed entry =>
        if retained limits nowMs entry.2 then removed
        else saturatingAdd usizeMax removed entry.2.sizeBytes) removed +
      ((entries.map fun entry =>
        if retained limits nowMs entry.2 then entry.2.sizeBytes else 0)).sum =
      removed + (entries.map fun entry => entry.2.sizeBytes).sum := by
  induction entries generalizing removed with
  | nil => rfl
  | cons entry entries ih =>
    rw [List.map_cons, List.sum_cons] at fits
    rw [List.foldl_cons, List.map_cons, List.sum_cons, List.map_cons, List.sum_cons]
    by_cases stays : retained limits nowMs entry.2
    · rw [if_pos stays, if_pos stays]
      have rest := ih removed (by omega)
      omega
    · rw [if_neg stays, if_neg stays, saturatingAdd_eq (by omega)]
      have rest := ih (removed + entry.2.sizeBytes) (by omega)
      omega

theorem storedBytes_prune_le (store : BoundedStateStore State) (nowMs : Nat) :
    (store.prune nowMs).storedBytes ≤ store.storedBytes := by
  rw [storedBytes, storedBytes, prune, BTreeMap.sumBy_filter]
  exact BTreeMap.sumBy_mono fun _ stored => by split <;> simp

private theorem removed_covers (limits : StoreLimits) (nowMs : Nat)
    (entries : List (ReplayKey × StoredState State)) (removed : Nat) :
    min (removed + (entries.map fun entry => entry.2.sizeBytes).sum) usizeMax ≤
      entries.foldl (fun removed entry =>
        if retained limits nowMs entry.2 then removed
        else saturatingAdd usizeMax removed entry.2.sizeBytes) removed +
      ((entries.map fun entry =>
        if retained limits nowMs entry.2 then entry.2.sizeBytes else 0)).sum := by
  induction entries generalizing removed with
  | nil => simp
  | cons entry entries ih =>
    rw [List.foldl_cons, List.map_cons, List.sum_cons, List.map_cons, List.sum_cons]
    by_cases stays : retained limits nowMs entry.2
    · rw [if_pos stays, if_pos stays]
      have rest := ih removed
      omega
    · rw [if_neg stays, if_neg stays]
      have rest := ih (saturatingAdd usizeMax removed entry.2.sizeBytes)
      rw [saturatingAdd] at rest ⊢
      omega

theorem prune_covered {store : BoundedStateStore State} (covered : store.Covered) (nowMs : Nat) :
    (store.prune nowMs).Covered := by
  have stored := covered.stored
  have word := covered.word
  have covers := removed_covers store.limits nowMs store.entries.toList 0
  have kept : (store.prune nowMs).storedBytes =
      (store.entries.toList.map fun entry =>
        if retained store.limits nowMs entry.2 then entry.2.sizeBytes else 0).sum := by
    rw [storedBytes, prune, BTreeMap.sumBy_filter, BTreeMap.sumBy]
  have before : store.storedBytes =
      (store.entries.toList.map fun entry => entry.2.sizeBytes).sum := rfl
  constructor
  · rw [kept, prune]
    simp only
    omega
  · rw [prune]
    simp only
    omega

theorem prune_accounted {store : BoundedStateStore State} (accounted : store.Accounted)
    (nowMs : Nat) : (store.prune nowMs).Accounted := by
  have bounded := accounted.bounded
  have fits := store.limits.maxTotalBytes_fits
  constructor
  · have sums := removed_sum store.limits nowMs store.entries.toList 0 (by
      rw [storedBytes, BTreeMap.sumBy] at bounded
      omega)
    have kept : (store.prune nowMs).storedBytes =
        (store.entries.toList.map fun entry =>
          if retained store.limits nowMs entry.2 then entry.2.sizeBytes else 0).sum := by
      rw [storedBytes, prune, BTreeMap.sumBy_filter, BTreeMap.sumBy]
    have before : store.storedBytes =
        (store.entries.toList.map fun entry => entry.2.sizeBytes).sum := rfl
    rw [kept, prune]
    simp only
    rw [accounted.exact, before]
    omega
  · exact (storedBytes_prune_le store nowMs).trans bounded

theorem prune_within {jsonLength : State → Option Nat} {store : BoundedStateStore State}
    (within : store.Within jsonLength) (nowMs : Nat) : (store.prune nowMs).Within jsonLength where
  covered := prune_covered within.covered nowMs
  total_bounded := (Nat.sub_le _ _).trans within.total_bounded
  entries_bounded := Std.ExtTreeMap.size_filter_le_size.trans within.entries_bounded
  entry_bytes := by
    intro key stored found
    rw [lookup_prune] at found
    exact within.entry_bytes key stored (Option.filter_eq_some_iff.mp found).1

/-! ### Removal and marking -/

@[simp] theorem removeEntry_limits (store : BoundedStateStore State) (key : ReplayKey) :
    (store.removeEntry key).limits = store.limits := by
  rw [removeEntry]
  split <;> rfl

@[simp] theorem lookup_removeEntry (store : BoundedStateStore State) (key other : ReplayKey) :
    (store.removeEntry key).entries[other]? =
      if other = key then none else store.entries[other]? := by
  rw [removeEntry]
  split
  next found => exact BTreeMap.lookup_erase store.entries key other
  next absent =>
    by_cases same : other = key
    · rw [if_pos same, same, absent]
    · rw [if_neg same]

theorem removeEntry_accounted {store : BoundedStateStore State} (accounted : store.Accounted)
    (key : ReplayKey) : (store.removeEntry key).Accounted := by
  rw [removeEntry]
  cases found : store.entries[key]? with
  | none => exact accounted
  | some existing =>
    have split := BTreeMap.sumBy_erase (fun _ stored => stored.sizeBytes) found
    have exact := accounted.exact
    have bounded := accounted.bounded
    rw [storedBytes] at exact bounded
    constructor
    · rw [storedBytes]
      simp only
      omega
    · rw [storedBytes]
      simp only
      omega

theorem removeEntry_covered {store : BoundedStateStore State} (covered : store.Covered)
    (key : ReplayKey) : (store.removeEntry key).Covered := by
  have stored := covered.stored
  have word := covered.word
  rw [removeEntry]
  cases found : store.entries[key]? with
  | none => exact covered
  | some existing =>
    have split := BTreeMap.sumBy_erase (fun _ stored => stored.sizeBytes) found
    rw [storedBytes] at stored
    constructor
    · rw [storedBytes]
      simp only
      omega
    · simp only
      omega

theorem storedBytes_removeEntry_le (store : BoundedStateStore State) (key : ReplayKey) :
    (store.removeEntry key).storedBytes ≤ store.storedBytes := by
  rw [removeEntry]
  cases found : store.entries[key]? with
  | none => exact le_rfl
  | some existing =>
    have split := BTreeMap.sumBy_erase (fun _ stored => stored.sizeBytes) found
    rw [storedBytes, storedBytes]
    simp only
    omega

@[simp] theorem markSuperseded_limits (store : BoundedStateStore State)
    (localKeyId candidateId : String) (superseding : State → Bool) :
    (store.markSuperseded localKeyId candidateId superseding).limits = store.limits := rfl

/-- Marking changes nothing but the eviction priority of an entry. -/
theorem lookup_markSuperseded {store : BoundedStateStore State} {localKeyId candidateId : String}
    {superseding : State → Bool} {key : ReplayKey} {stored : StoredState State}
    (found : (store.markSuperseded localKeyId candidateId superseding).entries[key]? = some stored) :
    ∃ before, store.entries[key]? = some before ∧
      stored = { before with superseded := stored.superseded } := by
  rw [markSuperseded, Std.ExtTreeMap.getElem?_map] at found
  obtain ⟨before, present, rfl⟩ := Option.map_eq_some_iff.mp found
  refine ⟨before, present, ?_⟩
  split <;> rfl

@[simp] theorem storedBytes_markSuperseded (store : BoundedStateStore State)
    (localKeyId candidateId : String) (superseding : State → Bool) :
    (store.markSuperseded localKeyId candidateId superseding).storedBytes =
      store.storedBytes := by
  rw [storedBytes, storedBytes, markSuperseded, BTreeMap.sumBy, BTreeMap.sumBy,
    Std.ExtTreeMap.toList_map, List.map_map]
  congr 1
  apply List.map_congr_left
  intro entry _
  simp only [Function.comp]
  split <;> rfl

theorem markSuperseded_accounted {store : BoundedStateStore State} (accounted : store.Accounted)
    (localKeyId candidateId : String) (superseding : State → Bool) :
    (store.markSuperseded localKeyId candidateId superseding).Accounted := by
  have same := storedBytes_markSuperseded store localKeyId candidateId superseding
  exact ⟨accounted.exact.trans same.symm, same ▸ accounted.bounded⟩

/-! ### Eviction -/

/-- `removed` goes before `kept`: it is superseded when `kept` is, and the older
of two alike. -/
structure EvictedBefore (removed kept : StoredState State) : Prop where
  superseded : kept.superseded = true → removed.superseded = true
  older : removed.superseded = kept.superseded → removed.observedAtMs ≤ kept.observedAtMs

private theorem evictionOrder_isLE {left right : ReplayKey × StoredState State}
    (before : (evictionOrder left right).isLE) : EvictedBefore left.2 right.2 := by
  rw [evictionOrder] at before
  constructor
  · intro marked
    cases own : left.2.superseded with
    | true => rfl
    | false => simp [own, marked, compare] at before
  · intro same
    simp only [same, Std.ReflCmp.compare_self, Ordering.then] at before
    exact Nat.isLE_compare.mp before

instance : Std.TransCmp (@evictionOrder State) :=
  inferInstanceAs (Std.TransCmp (compareLex
    (compareOn fun entry : ReplayKey × StoredState State => !entry.2.superseded)
    (compareOn fun entry : ReplayKey × StoredState State => entry.2.observedAtMs)))

private theorem oldest_before {store : BoundedStateStore State} {key : ReplayKey}
    (chosen : store.oldest = some key) {removed : StoredState State}
    (found : store.entries[key]? = some removed) {other : ReplayKey} {kept : StoredState State}
    (present : store.entries[other]? = some kept) : EvictedBefore removed kept := by
  obtain ⟨entry, picked, rfl⟩ := Option.map_eq_some_iff.mp chosen
  have own := BTreeMap.mem_toList_iff.mp (Selection.minBy_mem picked)
  rw [found] at own
  cases own
  exact evictionOrder_isLE
    (Selection.minBy_dominates picked (other, kept) (BTreeMap.mem_toList_iff.mpr present))

/-- What the eviction loop leaves of a store. -/
structure RoomMade (store : BoundedStateStore State) (sizeBytes : Nat)
    (room : BoundedStateStore State × Bool) : Prop where
  limits : room.1.limits = store.limits
  accounted : store.Accounted → room.1.Accounted
  covered : store.Covered → room.1.Covered
  bytes : room.1.storedBytes ≤ store.storedBytes
  subset : ∀ (key : ReplayKey) (kept : StoredState State),
    room.1.entries[key]? = some kept → store.entries[key]? = some kept
  ordered : ∀ (key other : ReplayKey) (removed kept : StoredState State),
    store.entries[key]? = some removed → room.1.entries[key]? = none →
      room.1.entries[other]? = some kept → EvictedBefore removed kept
  made : room.2 = true → ¬room.1.full sizeBytes
  exhausted : room.2 = false → room.1.entries = ∅ ∧ room.1.full sizeBytes

theorem makeRoom_spec (store : BoundedStateStore State) (sizeBytes : Nat) :
    RoomMade store sizeBytes (store.makeRoom sizeBytes) := by
  fun_induction makeRoom store sizeBytes with
  | case1 store full none =>
    have empty : store.entries = ∅ := by
      by_contra nonempty
      have present : store.entries.toList ≠ [] := by
        simpa [Std.ExtTreeMap.toList_eq_nil_iff] using nonempty
      obtain ⟨best, chosen⟩ := @Selection.minBy_isSome _ evictionOrder _ present
      simp [oldest, chosen] at none
    exact ⟨rfl, id, id, le_rfl, fun _ _ found => found,
      fun key _ removed _ found gone => absurd (found.symm.trans gone) (by simp),
      fun failed => absurd failed (by simp), fun _ => ⟨empty, full⟩⟩
  | case2 store full key chosen ih =>
    obtain ⟨evicted, found⟩ := oldest_mem chosen
    refine ⟨ih.limits.trans (removeEntry_limits store key),
      fun accounted => ih.accounted (removeEntry_accounted accounted key),
      fun covered => ih.covered (removeEntry_covered covered key),
      ih.bytes.trans (storedBytes_removeEntry_le store key), ?_, ?_, ih.made, ih.exhausted⟩
    · intro other kept present
      have before := ih.subset other kept present
      rw [lookup_removeEntry] at before
      split at before
      next => cases before
      next => exact before
    · intro other last removed kept present gone stays
      have before := ih.subset last kept stays
      rw [lookup_removeEntry] at before
      split at before
      next => cases before
      next =>
        by_cases same : other = key
        · subst same
          exact oldest_before chosen present before
        · refine ih.ordered other last removed kept ?_ gone stays
          rw [lookup_removeEntry, if_neg same]
          exact present
  | case3 store room =>
    exact ⟨rfl, id, id, le_rfl, fun _ _ found => found,
      fun key _ removed _ found gone => absurd (found.symm.trans gone) (by simp),
      fun _ => room, fun failed => absurd failed (by simp)⟩

/-- The loop makes room for every admissible size. -/
theorem makeRoom_succeeds {store : BoundedStateStore State} (covered : store.Covered)
    (entries : store.limits.maxEntries ≠ 0) {sizeBytes : Nat}
    (fits : sizeBytes ≤ store.limits.maxTotalBytes) : (store.makeRoom sizeBytes).2 = true := by
  have spec := makeRoom_spec store sizeBytes
  cases outcome : (store.makeRoom sizeBytes).2 with
  | true => rfl
  | false =>
    obtain ⟨empty, full⟩ := spec.exhausted outcome
    have nothing : (store.makeRoom sizeBytes).1.totalBytes = 0 := by
      have stored := (spec.covered covered).stored
      rw [storedBytes, empty, BTreeMap.sumBy_empty] at stored
      omega
    rw [BoundedStateStore.full, spec.limits, nothing, empty, saturatingAdd] at full
    have noEntry : (∅ : BTreeMap ReplayKey (StoredState State)).size = 0 := rfl
    omega

theorem makeRoom_free {store : BoundedStateStore State} {sizeBytes : Nat}
    (free : ¬store.full sizeBytes) : store.makeRoom sizeBytes = (store, true) := by
  rw [makeRoom, if_neg free]

theorem makeRoom_evicts {store : BoundedStateStore State} {sizeBytes : Nat} {key : ReplayKey}
    (full : store.full sizeBytes) (chosen : store.oldest = some key) :
    store.makeRoom sizeBytes = (store.removeEntry key).makeRoom sizeBytes := by
  rw [makeRoom, if_pos full]
  split
  next none => cases chosen.symm.trans none
  next found =>
    obtain rfl := Option.some.inj (chosen.symm.trans found)
    rfl

end BoundedStateStore

end ZenithRelay.Protocol.Adapter
