import ZenithRelay.Scheduler.Refresh.Operation

/-!
# Entry edits

Every operation acts on an entry by one of a few edits. The inversion is stated
once; what is true of an entry over a run is proved by cases on its edits.
-/

set_option autoImplicit false

namespace ZenithRelay.Scheduler.Refresh

/-- What an operation can do to a registered entry of a kind. -/
inductive RefreshEntry.Edits (kind : RefreshKind) (refreshEntry : RefreshEntry) :
    RefreshEntry → Prop where
  | same : Edits kind refreshEntry refreshEntry
  | joined (active : Bool) : refreshEntry.inFlight.isSome →
      Edits kind refreshEntry { refreshEntry with active := active }
  | scheduled (active : Bool) (due : Option Nat) :
      Edits kind refreshEntry ({ refreshEntry with active := active }.schedule due)
  | event (atMs : Nat) : refreshEntry.automatic = true → refreshEntry.unsupported = false →
      Edits kind refreshEntry
        ({ refreshEntry with eventDueMs := earliest refreshEntry.eventDueMs (some atMs) }.schedule
          (some atMs))
  | dirtied (nowMs : Nat) : refreshEntry.automatic = true → refreshEntry.unsupported = false →
      Edits kind refreshEntry (refreshEntry.markDirty nowMs)
  | observed (nowMs ageMs observedAtWallMs : Nat) : refreshEntry.automatic = true →
      refreshEntry.unsupported = false →
      Edits kind refreshEntry (refreshEntry.observePassiveQuota nowMs ageMs observedAtWallMs)
  | activity (active : Bool) (nowMs : Nat) :
      Edits kind refreshEntry (refreshEntry.setActive kind active nowMs)
  | requested (nowMs : Nat) : Edits kind refreshEntry (refreshEntry.requestNow nowMs)
  | deferred (untilMs : Nat) :
      Edits kind refreshEntry
        { refreshEntry with notBeforeMs := max refreshEntry.notBeforeMs untilMs }
  | switched (automatic : Bool) : Edits kind refreshEntry (refreshEntry.setAutomatic automatic)
  | started (jobId : RefreshJobId) (nowMs : Nat) : refreshEntry.inFlight = none →
      refreshEntry.unsupported = false → Edits kind refreshEntry (refreshEntry.start jobId nowMs)
  | settled (jobId : RefreshJobId) (minimumIntervalMs : Nat) (outcome : RefreshOutcome)
      (nowMs : Nat) : refreshEntry.inFlight = some jobId →
      Edits kind refreshEntry (refreshEntry.settle kind minimumIntervalMs outcome nowMs)

namespace RefreshCoordinator

/-- An entry after an operation: the edit of one that was there, or made of a new one. -/
inductive EntryChange (before : RefreshCoordinator) (key : RefreshKey) (after : RefreshEntry) :
    Prop where
  | edited (refreshEntry : RefreshEntry) : before.entries[key]? = some refreshEntry →
      refreshEntry.Edits key.kind after → EntryChange before key after
  | added (origin : String) (active : Bool) : before.entries[key]? = none →
      Relation.ReflTransGen (RefreshEntry.Edits key.kind) (.new origin active) after →
      after.inFlight = none → EntryChange before key after

variable {coordinator : RefreshCoordinator} {key : RefreshKey} {later : RefreshEntry}

/-- An entry that was there is the one that was edited. -/
theorem EntryChange.edits {before : RefreshCoordinator} {refreshEntry : RefreshEntry}
    (change : EntryChange before key later) (found : before.entries[key]? = some refreshEntry) :
    refreshEntry.Edits key.kind later := by
  cases change with
  | edited stored held edits =>
      obtain rfl := Option.some.inj (found.symm.trans held)
      exact edits
  | added origin active absent edits idle =>
      rw [found] at absent
      cases absent

theorem EntryChange.of_same {after : RefreshCoordinator}
    (same : after.entries = coordinator.entries) (found : after.entries[key]? = some later) :
    EntryChange coordinator key later :=
  .edited later (same ▸ found) .same

/-- One stored entry was edited, and no other. -/
theorem EntryChange.of_putEntry {edited : RefreshKey} {stored refreshEntry : RefreshEntry}
    (held : coordinator.entries[edited]? = some stored)
    (edits : stored.Edits edited.kind refreshEntry)
    (found : (coordinator.putEntry edited refreshEntry).entries[key]? = some later) :
    EntryChange coordinator key later := by
  unfold putEntry at found
  rw [BTreeMap.lookup_insert] at found
  split at found
  next own =>
    obtain rfl := own
    obtain rfl := Option.some.inj found
    exact .edited stored held edits
  next => exact .edited later found .same

/-- The entry that a registration makes or joins. -/
theorem registered_edits (refreshEntry : RefreshEntry) (kind : RefreshKind) (active : Bool)
    (due : Option Nat) :
    refreshEntry.Edits kind
      (if { refreshEntry with active := active }.inFlight.isNone then
        { refreshEntry with active := active }.schedule due
      else { refreshEntry with active := active }) := by
  split
  · exact .scheduled active due
  next busy => exact .joined active (by simpa [Option.isSome_iff_ne_none] using busy)

private theorem registered_idle (origin : String) (active : Bool) (due : Option Nat) :
    (if { RefreshEntry.new origin active with active := active }.inFlight.isNone then
      { RefreshEntry.new origin active with active := active }.schedule due
    else { RefreshEntry.new origin active with active := active }).inFlight = none := by
  split
  · rw [RefreshEntry.schedule_inFlight]
    rfl
  · rfl

theorem registerOrigin_entry {identity : RefreshIdentity} {kind : RefreshKind} {origin : String}
    {nowMs : Nat} {active dueNow : Bool}
    (found : (coordinator.registerOrigin identity kind origin nowMs active dueNow).1.entries[key]? =
      some later) : EntryChange coordinator key later := by
  unfold registerOrigin at found
  dsimp only at found
  split at found
  · exact .edited later found .same
  dsimp only at found
  unfold putEntry at found
  rw [BTreeMap.lookup_insert] at found
  split at found
  next own =>
    obtain rfl := own
    obtain rfl := Option.some.inj found
    cases held : coordinator.entries[RefreshKey.mk identity kind]? with
    | none => exact .added origin active held (.single (registered_edits ..)) (registered_idle ..)
    | some stored => exact .edited stored held (registered_edits stored kind active _)
  next => exact .edited later found .same

/-- Both ways through `scheduleAt` end with one edit of the stored entry. -/
theorem modified_entry {edited : RefreshKey} {update : RefreshEntry → RefreshEntry}
    (found : (coordinator.entries.modify edited update)[key]? = some later) :
    ∃ stored, coordinator.entries[key]? = some stored ∧
      later = if key = edited then update stored else stored := by
  rw [BTreeMap.lookup_modify] at found
  split at found
  next own =>
    obtain ⟨stored, held, rfl⟩ := Option.map_eq_some_iff.mp found
    exact ⟨stored, held, (if_pos own).symm⟩
  next other => exact ⟨later, found, (if_neg other).symm⟩

private theorem scheduleAt_entry {identity : RefreshIdentity} {kind : RefreshKind} {dueAtMs : Nat}
    {active : Bool}
    (found : (coordinator.scheduleAt identity kind dueAtMs active).1.entries[key]? = some later) :
    EntryChange coordinator key later := by
  unfold scheduleAt at found
  dsimp only at found
  by_cases present : coordinator.entries.contains ⟨identity, kind⟩
  · rw [if_pos present] at found
    obtain ⟨stored, held, rfl⟩ := modified_entry found
    refine .edited stored held ?_
    split
    · exact .scheduled active _
    · exact .same
  · rw [if_neg present] at found
    split at found
    · exact registerOrigin_entry found
    · obtain ⟨stored, held, rfl⟩ := modified_entry found
      cases registerOrigin_entry held with
      | edited before known edits =>
          have other : key ≠ ⟨identity, kind⟩ := by
            rintro rfl
            exact present (Std.ExtTreeMap.mem_iff_isSome_getElem?.mpr (by rw [known]; rfl))
          rw [if_neg other]
          exact .edited before known edits
      | added origin existed unknown edits idle =>
          refine .added origin existed unknown (edits.tail ?_) ?_
          · split
            · exact .scheduled active _
            · exact .same
          · split
            · rw [RefreshEntry.schedule_inFlight]
              exact idle
            · exact idle

private theorem setActive_entry {identity : RefreshIdentity} {active : Bool} {nowMs : Nat}
    (found : (coordinator.setActive identity active nowMs).1.entries[key]? = some later) :
    EntryChange coordinator key later := by
  unfold setActive at found
  rw [Std.ExtTreeMap.getElem?_map] at found
  obtain ⟨stored, held, rfl⟩ := Option.map_eq_some_iff.mp found
  refine .edited stored held ?_
  split
  · exact .activity active nowMs
  · exact .same

private theorem claimDue_entry {nowMs : Nat}
    (found : (coordinator.claimDue nowMs).1.entries[key]? = some later) :
    EntryChange coordinator key later := by
  unfold claimDue at found
  split at found
  · exact .edited later found .same
  next claimedKey refreshEntry next =>
    split at found
    · exact .edited later found .same
    obtain ⟨held, claimable⟩ := nextClaim_claimable next
    simp only [RefreshCoordinator.claimable, Bool.and_eq_true, Option.isNone_iff_eq_none,
      Bool.not_eq_true'] at claimable
    unfold startJob at found
    dsimp only at found
    rw [BTreeMap.lookup_insert] at found
    split at found
    next own =>
      obtain rfl := own
      obtain rfl := Option.some.inj found
      exact .edited refreshEntry held (.started _ nowMs claimable.1.1.1 claimable.1.1.2)
    next => exact .edited later found .same

private theorem complete_entry {job : RefreshJob} {outcome : RefreshOutcome} {nowMs : Nat}
    (found : (coordinator.complete job outcome nowMs).1.entries[key]? = some later) :
    EntryChange coordinator key later := by
  unfold complete at found
  split at found
  · exact .edited later found .same
  split at found
  · exact .edited later found .same
  next running runs own =>
    dsimp only at found
    split at found
    · exact .edited later found .same
    next refreshEntry held =>
      split at found
      · exact .edited later found .same
      next waits =>
        exact .of_putEntry held (.settled job.id _ outcome nowMs (not_ne_iff.mp waits)) found

/-- Each operation edits an entry once, makes it, or takes it away. -/
theorem apply_entry {operation : RefreshOperation}
    (found : (coordinator.apply operation).entries[key]? = some later) :
    EntryChange coordinator key later := by
  cases operation with
  | register identity kind nowMs active dueNow => exact registerOrigin_entry found
  | registerOrigin identity kind origin nowMs active dueNow => exact registerOrigin_entry found
  | scheduleAt identity kind dueAtMs active => exact scheduleAt_entry found
  | setActive identity active nowMs => exact setActive_entry found
  | claimDue nowMs => exact claimDue_entry found
  | complete job outcome nowMs => exact complete_entry found
  | scheduleEvent identity kind atMs =>
      rw [apply] at found
      unfold scheduleEvent at found
      split at found
      · exact .edited later found .same
      next refreshEntry held =>
        split at found
        · exact .edited later found .same
        next accepts =>
          simp only [Bool.or_eq_true, Bool.not_eq_true', not_or, Bool.not_eq_false,
            Bool.not_eq_true] at accepts
          exact .of_putEntry held (.event atMs accepts.1 accepts.2) found
  | requestNow identity kind nowMs =>
      rw [apply] at found
      unfold requestNow at found
      split at found
      · exact .edited later found .same
      next refreshEntry held => exact .of_putEntry held (.requested nowMs) found
  | markDirty identity kind nowMs =>
      rw [apply] at found
      unfold markDirty at found
      split at found
      · exact .edited later found .same
      next refreshEntry held =>
        split at found
        · exact .edited later found .same
        next accepts =>
          simp only [Bool.or_eq_true, Bool.not_eq_true', not_or, Bool.not_eq_false,
            Bool.not_eq_true] at accepts
          exact .of_putEntry held (.dirtied nowMs accepts.2 accepts.1) found
  | setAutomatic identity kind automatic =>
      rw [apply] at found
      unfold setAutomatic at found
      split at found
      · exact .edited later found .same
      next refreshEntry held => exact .of_putEntry held (.switched automatic) found
  | observePassiveQuota identity nowMs ageMs observedAtWallMs =>
      rw [apply] at found
      unfold observePassiveQuota at found
      split at found
      · exact .edited later found .same
      next refreshEntry held =>
        split at found
        · exact .edited later found .same
        next accepts =>
          split at found
          · exact .edited later found .same
          simp only [Bool.or_eq_true, Bool.not_eq_true', not_or, Bool.not_eq_false,
            Bool.not_eq_true] at accepts
          exact .of_putEntry held
            (.observed nowMs ageMs observedAtWallMs accepts.1.1 accepts.1.2) found
  | deferUntil identity kind untilMs =>
      rw [apply] at found
      unfold deferUntil at found
      split at found
      · exact .edited later found .same
      next refreshEntry held => exact .of_putEntry held (.deferred untilMs) found
  | invalidate identity =>
      rw [apply] at found
      unfold invalidate at found
      rw [BTreeMap.lookup_filter, Option.filter_eq_some_iff] at found
      exact .edited later found.1 .same
  | removeKind identity kind =>
      rw [apply] at found
      unfold removeKind at found
      rw [BTreeMap.lookup_erase] at found
      split at found
      · cases found
      · exact .edited later found .same

end RefreshCoordinator

end ZenithRelay.Scheduler.Refresh
