import ZenithRelay.Scheduler.Refresh.TrafficProperties

/-!
# Single flight

An entry is claimed only while it waits for no job. That keeps one job per key as
long as no entry is made for a key whose job is still running: a dropped entry
takes the mark of its running job with it.
-/

set_option autoImplicit false

namespace ZenithRelay.Scheduler.Refresh

namespace RefreshCoordinator

def runningFor (coordinator : RefreshCoordinator) (key : RefreshKey) : Nat :=
  coordinator.runningCount fun job => job.key = key

/-- One running job per key, and no claim returns a key that is running. -/
structure SingleFlight (coordinator : RefreshCoordinator) : Prop where
  running : ∀ key, coordinator.runningFor key ≤ 1
  claims : ∀ nowMs claimed, (coordinator.claimDue nowMs).2 = some claimed →
    coordinator.runningFor claimed.key = 0

/-- The operation makes no new entry for a key whose job is still running; a full table
refuses a key without an entry. -/
def keepsFence (coordinator : RefreshCoordinator) (operation : RefreshOperation) : Bool :=
  match operation.registered with
  | none => true
  | some key =>
    coordinator.entries.contains key ||
      coordinator.limits.maxEntries ≤ coordinator.entries.size || coordinator.runningFor key = 0

/-- Every running job is the one that the entry of its key waits for, if there is one. -/
structure FenceInvariant (coordinator : RefreshCoordinator) : Prop where
  traffic : coordinator.TrafficInvariant
  fenced : ∀ (jobId : RefreshJobId) (running : RunningJob),
    coordinator.jobs[jobId]? = some running → running.key ∈ coordinator.entries →
      coordinator.inFlightJob running.key = some jobId
  single : ∀ key, coordinator.runningFor key ≤ 1

variable {coordinator : RefreshCoordinator}

theorem runningFor_eq_zero {key : RefreshKey} :
    coordinator.runningFor key = 0 ↔ ∀ (jobId : RefreshJobId) (running : RunningJob),
      coordinator.jobs[jobId]? = some running → running.key ≠ key := by
  have positive := @BTreeMap.countValues_pos_iff _ _ _ _ _ (fun job => decide (job.key = key))
    coordinator.jobs
  constructor
  · intro noneRuns jobId running found same
    have counted := positive.mpr ⟨jobId, running, found, decide_eq_true same⟩
    exact absurd noneRuns (Nat.ne_of_gt counted)
  · intro other
    by_contra counted
    obtain ⟨jobId, running, found, same⟩ := positive.mp (Nat.pos_of_ne_zero counted)
    exact other jobId running found (of_decide_eq_true same)

/-- An idle entry has no running job. -/
theorem FenceInvariant.idle (invariant : coordinator.FenceInvariant) {key : RefreshKey}
    {refreshEntry : RefreshEntry} (found : coordinator.entries[key]? = some refreshEntry)
    (idle : refreshEntry.inFlight = none) : coordinator.runningFor key = 0 := by
  rw [runningFor_eq_zero]
  rintro jobId running runs rfl
  have waits := invariant.fenced jobId running runs (mem_entries_iff.mpr ⟨_, found⟩)
  rw [(inFlightJob_eq_none found).mpr idle] at waits
  cases waits

private theorem FenceInvariant.singleFlight (invariant : coordinator.FenceInvariant) :
    coordinator.SingleFlight where
  running := invariant.single
  claims nowMs claimed claims := by
    rcases claimDue_cases coordinator nowMs with
      same | ⟨key, refreshEntry, found, idle, -, -, same⟩
    · rw [same] at claims
      cases claims
    · rw [same] at claims
      cases claims
      exact invariant.idle found idle

/-! ## Runs -/

/-- No key gained an entry, or a marked one: the fence is as tight as before. -/
theorem FenceInvariant.keeps (invariant : coordinator.FenceInvariant) {after : RefreshCoordinator}
    (traffic : after.TrafficInvariant)
    (jobs : ∀ (jobId : RefreshJobId) (running : RunningJob), after.jobs[jobId]? = some running →
      coordinator.jobs[jobId]? = some running ∧
        (running.key ∈ after.entries → running.key ∈ coordinator.entries ∧
          after.inFlightJob running.key = coordinator.inFlightJob running.key))
    (fewer : ∀ key, after.runningFor key ≤ coordinator.runningFor key) :
    after.FenceInvariant where
  traffic := traffic
  fenced jobId running found member := by
    obtain ⟨before, same⟩ := jobs jobId running found
    obtain ⟨present, waits⟩ := same member
    rw [waits]
    exact invariant.fenced jobId running before present
  single key := Nat.le_trans (fewer key) (invariant.single key)

theorem FenceInvariant.startJob (invariant : coordinator.FenceInvariant) {key : RefreshKey}
    {refreshEntry : RefreshEntry} (nowMs : Nat)
    (found : coordinator.entries[key]? = some refreshEntry) (idle : refreshEntry.inFlight = none)
    (available : coordinator.capacityAvailable refreshEntry key.kind = true) :
    (coordinator.startJob key refreshEntry nowMs).1.FenceInvariant where
  traffic := invariant.traffic.startJob nowMs available
  fenced jobId running runs member := by
    have noneRuns := runningFor_eq_zero.mp (invariant.idle found idle)
    change (coordinator.jobs.insert (coordinator.nextJobId + 1) _)[jobId]? = _ at runs
    rw [startJob_inFlightJob]
    rw [BTreeMap.lookup_insert] at runs
    split at runs
    next own =>
      cases runs
      rw [if_pos rfl, own]
    next =>
      rw [if_neg (noneRuns jobId running runs)]
      refine invariant.fenced jobId running runs ?_
      rcases @putEntry_mem coordinator _ _ _ member with same | present
      · exact absurd same (noneRuns jobId running runs)
      · exact present
  single other := by
    have counted := startJob_runningCount invariant.traffic key refreshEntry nowMs
      fun job => job.key = other
    unfold runningFor
    rw [counted]
    by_cases same : key = other
    · subst same
      have noneRuns := invariant.idle found idle
      unfold runningFor at noneRuns
      rw [noneRuns]
      split <;> omega
    · simpa [same, runningFor] using invariant.single other

theorem FenceInvariant.complete (invariant : coordinator.FenceInvariant) (job : RefreshJob)
    (outcome : RefreshOutcome) (nowMs : Nat) :
    (coordinator.complete job outcome nowMs).1.FenceInvariant := by
  have traffic := invariant.traffic.complete job outcome nowMs
  have fewer (settledMs : Nat) (key : RefreshKey) :=
    freed_runningCount_le coordinator job.id settledMs fun other => other.key = key
  have remaining {jobId : RefreshJobId} {running : RunningJob}
      (found : (coordinator.jobs.erase job.id)[jobId]? = some running) :
      jobId ≠ job.id ∧ coordinator.jobs[jobId]? = some running := by
    rw [BTreeMap.lookup_erase] at found
    split at found
    · cases found
    next different => exact ⟨different, found⟩
  cases complete_cases coordinator job outcome nowMs with
  | unknown absent same =>
      rw [same]
      exact invariant
  | forged running found other same =>
      rw [same]
      exact invariant
  | retired running settledMs found own released same =>
      rw [same] at traffic ⊢
      exact invariant.keeps traffic
        (fun jobId other runs => ⟨(remaining runs).2, fun member => ⟨member, rfl⟩⟩) (fewer settledMs)
  | applied running settledMs nextDueMs refreshEntry found own waiting idle same =>
      rw [same] at traffic ⊢
      obtain ⟨stored, present, -⟩ := inFlightJob_eq_some.mp waiting
      refine invariant.keeps traffic ?_ (fewer settledMs)
      intro jobId other runs
      obtain ⟨different, ran⟩ := remaining runs
      refine ⟨ran, fun member => ?_⟩
      -- the settled entry is not the entry of another running job
      have elsewhere : other.key ≠ job.key := by
        intro sameKey
        have waits := invariant.fenced jobId other ran
          (sameKey ▸ mem_entries_iff.mpr ⟨stored, present⟩)
        rw [sameKey, waiting] at waits
        exact different (Option.some.inj waits).symm
      refine ⟨(putEntry_mem member).resolve_left elsewhere, ?_⟩
      rw [putEntry_inFlightJob, if_neg elsewhere, freed_inFlightJob]

/-- A full table makes no entry. -/
private theorem apply_refused {operation : RefreshOperation} {key : RefreshKey}
    (registers : operation.registered = some key) (absent : key ∉ coordinator.entries)
    (full : coordinator.limits.maxEntries ≤ coordinator.entries.size) :
    coordinator.apply operation = coordinator := by
  have refused (origin : String) (nowMs : Nat) (active dueNow : Bool) :
      coordinator.registerOrigin key.identity key.kind origin nowMs active dueNow =
        (coordinator, false) :=
    if_pos ⟨fun present => absent (Std.ExtTreeMap.contains_iff_mem.mp present), full⟩
  cases operation with
  | register identity kind nowMs active dueNow =>
      cases registers
      exact congrArg Prod.fst (refused identity.memberId nowMs active dueNow)
  | registerOrigin identity kind origin nowMs active dueNow =>
      cases registers
      exact congrArg Prod.fst (refused origin nowMs active dueNow)
  | scheduleAt identity kind dueAtMs active =>
      cases registers
      have missing : ¬coordinator.entries.contains (RefreshKey.mk identity kind) = true :=
        fun present => absent (Std.ExtTreeMap.contains_iff_mem.mp present)
      simp only [RefreshCoordinator.apply, scheduleAt, register, if_neg missing,
        refused identity.memberId dueAtMs active false, Bool.not_false, if_true]
  | _ => cases registers

theorem FenceInvariant.apply (invariant : coordinator.FenceInvariant)
    {operation : RefreshOperation} (keeps : coordinator.keepsFence operation = true) :
    (coordinator.apply operation).FenceInvariant := by
  have traffic := invariant.traffic.apply operation
  by_cases quiet : operation.movesTraffic = false
  · have scheduled := apply_schedules coordinator quiet
    refine invariant.keeps traffic ?_ ?_
    · intro jobId running found
      rw [scheduled.jobs] at found
      refine ⟨found, fun member => ⟨?_, scheduled.inFlight running.key⟩⟩
      rcases scheduled.added running.key member with registers | present
      · unfold keepsFence at keeps
        rw [registers, Bool.or_eq_true, Bool.or_eq_true, decide_eq_true_eq, decide_eq_true_eq,
          Std.ExtTreeMap.contains_iff_mem] at keeps
        rcases keeps with (present | full) | noneRuns
        · exact present
        · by_contra absent
          rw [apply_refused registers absent full] at member
          exact absent member
        · exact absurd rfl (runningFor_eq_zero.mp noneRuns jobId running found)
      · exact present
    · intro key
      rw [runningFor, runningCount, scheduled.jobs]
      exact Nat.le_refl _
  cases operation with
  | claimDue nowMs =>
      rcases claimDue_cases coordinator nowMs with
        same | ⟨key, refreshEntry, found, idle, room, -, same⟩
      · rw [RefreshCoordinator.apply, same]
        exact invariant
      · rw [RefreshCoordinator.apply, same]
        exact invariant.startJob nowMs found idle room
  | complete job outcome nowMs => exact invariant.complete job outcome nowMs
  | invalidate identity =>
      refine invariant.keeps traffic ?_ fun _ => Nat.le_refl _
      intro jobId running found
      refine ⟨found, fun member => ?_⟩
      obtain ⟨refreshEntry, stored⟩ := mem_entries_iff.mp member
      change (coordinator.entries.filter _)[running.key]? = some refreshEntry at stored
      rw [BTreeMap.lookup_filter, Option.filter_eq_some_iff, decide_eq_true_eq] at stored
      refine ⟨mem_entries_iff.mpr ⟨refreshEntry, stored.1⟩, ?_⟩
      rw [RefreshCoordinator.apply, invalidate_inFlightJob, if_neg stored.2]
  | removeKind identity kind =>
      refine invariant.keeps traffic ?_ fun _ => Nat.le_refl _
      intro jobId running found
      refine ⟨found, fun member => ?_⟩
      obtain ⟨refreshEntry, stored⟩ := mem_entries_iff.mp member
      change (coordinator.entries.erase _)[running.key]? = some refreshEntry at stored
      rw [BTreeMap.lookup_erase] at stored
      split at stored
      · cases stored
      next kept =>
        refine ⟨mem_entries_iff.mpr ⟨refreshEntry, stored⟩, ?_⟩
        rw [RefreshCoordinator.apply, removeKind_inFlightJob, if_neg kept]
  | _ => exact absurd rfl quiet

private theorem new_fence {limits : RefreshLimits} {start : RefreshCoordinator}
    (accepted : RefreshCoordinator.new limits = .ok start) : start.FenceInvariant := by
  have initial := (new_traffic accepted).2.1
  unfold RefreshCoordinator.new at accepted
  split at accepted
  · cases accepted
  cases accepted
  refine ⟨initial, ?_, fun _ => Nat.zero_le _⟩
  intro jobId running found
  simp at found

/-- Single flight holds in every state of a run that makes no new entry for a key
whose job is still running. -/
theorem single_flight_unless_registered_again {limits : RefreshLimits} {start : RefreshCoordinator}
    (accepted : RefreshCoordinator.new limits = .ok start) (operations : List RefreshOperation)
    (keeps : Execution.Along apply (fun state operation => state.keepsFence operation = true) start
      operations) :
    (start.run operations).SingleFlight :=
  FenceInvariant.singleFlight <| Execution.Along.run_invariant FenceInvariant
    (fun _ _ invariant allowed => invariant.apply allowed) (new_fence accepted) keeps

theorem single_flight_after_completion : ∃ start, RefreshCoordinator.new .default = .ok start ∧
    (start.run [.register ⟨"account:test", 1, 1⟩ .quota 0 true true, .claimDue 0,
      .removeKind ⟨"account:test", 1, 1⟩ .quota,
      .complete ⟨1, ⟨"account:test", 1, 1⟩, .quota, 0, false⟩ .success 1,
      .register ⟨"account:test", 1, 1⟩ .quota 2 true true, .claimDue 1000]).SingleFlight :=
  ⟨_, rfl, @single_flight_unless_registered_again .default _ rfl _ (by decide +kernel)⟩

/-- An entry dropped and made again while its job runs is claimed a second time. -/
theorem registered_again_runs_twice : ∃ start, RefreshCoordinator.new .default = .ok start ∧
    ¬(start.run [.register ⟨"account:test", 1, 1⟩ .quota 0 true true, .claimDue 0,
      .removeKind ⟨"account:test", 1, 1⟩ .quota,
      .register ⟨"account:test", 1, 1⟩ .quota 1 true true, .claimDue 1000]).SingleFlight := by
  refine ⟨_, rfl, fun single => ?_⟩
  have twice := single.running ⟨⟨"account:test", 1, 1⟩, .quota⟩
  revert twice
  decide +kernel

end RefreshCoordinator

end ZenithRelay.Scheduler.Refresh
