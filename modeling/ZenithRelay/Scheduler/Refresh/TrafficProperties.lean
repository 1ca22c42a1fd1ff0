import ZenithRelay.Scheduler.Refresh.Operation

/-!
# Refresh traffic

Running jobs stay within the limits, and a completion reaches only the entry that
started its job. Jobs outlive their entries, so the two tables are related by
what an entry waits for and by job ids that are never issued twice.
-/

set_option autoImplicit false

namespace ZenithRelay.Scheduler.Refresh

/-- Operations that drop the entry of `key`. -/
def RefreshOperation.retires (key : RefreshKey) : RefreshOperation → Bool
  | .invalidate identity => key.identity = identity
  | .removeKind identity kind => key = ⟨identity, kind⟩
  | _ => false

namespace RefreshCoordinator

/-- The capacity bounds that `limits` put on the running jobs. -/
structure WithinLimits (coordinator : RefreshCoordinator) (limits : RefreshLimits) : Prop where
  total : coordinator.pendingJobs ≤ limits.concurrent
  perOrigin : ∀ origin,
    (coordinator.runningCount fun job => job.origin = origin) ≤ limits.perOrigin
  ordinary : (coordinator.runningCount fun job => job.key.kind ≠ .auth) ≤
    limits.concurrent - limits.reservedAuth
  ordinaryPerOrigin : ∀ origin,
    (coordinator.runningCount fun job => job.origin = origin ∧ job.key.kind ≠ .auth) ≤
      limits.perOrigin - limits.reservedAuth

/-- The bounds, and how entries and jobs refer to each other. -/
structure TrafficInvariant (coordinator : RefreshCoordinator) : Prop where
  within : coordinator.WithinLimits coordinator.limits
  waiting : ∀ key jobId, coordinator.inFlightJob key = some jobId →
    ∃ running, coordinator.jobs[jobId]? = some running ∧ running.key = key
  issued : ∀ jobId running, coordinator.jobs[jobId]? = some running → jobId ≤ coordinator.nextJobId

variable {coordinator : RefreshCoordinator}

private theorem TrafficInvariant.schedules (invariant : coordinator.TrafficInvariant)
    {registered : Option RefreshKey} {after : RefreshCoordinator}
    (same : Schedules registered coordinator after) : after.TrafficInvariant where
  within := by
    obtain ⟨total, perOrigin, ordinary, ordinaryPerOrigin⟩ := invariant.within
    constructor <;> simpa only [pendingJobs, runningCount, same.jobs, same.limits]
  waiting key jobId waits := by
    rw [same.jobs]
    exact invariant.waiting key jobId (same.inFlight key ▸ waits)
  issued jobId running found := by
    rw [same.nextJobId]
    exact invariant.issued jobId running (same.jobs ▸ found)

/-- Dropping entries leaves the running jobs charged. -/
theorem TrafficInvariant.retire (invariant : coordinator.TrafficInvariant)
    {after : RefreshCoordinator} (jobs : after.jobs = coordinator.jobs)
    (limits : after.limits = coordinator.limits)
    (nextJobId : after.nextJobId = coordinator.nextJobId)
    (dropped : ∀ key jobId, after.inFlightJob key = some jobId →
      coordinator.inFlightJob key = some jobId) : after.TrafficInvariant where
  within := by
    obtain ⟨total, perOrigin, ordinary, ordinaryPerOrigin⟩ := invariant.within
    constructor <;> simpa only [pendingJobs, runningCount, jobs, limits]
  waiting key jobId waits := by
    rw [jobs]
    exact invariant.waiting key jobId (dropped key jobId waits)
  issued jobId running found := by
    rw [nextJobId]
    exact invariant.issued jobId running (jobs ▸ found)

/-! ## Starting a job -/

theorem TrafficInvariant.fresh_id (invariant : coordinator.TrafficInvariant) :
    coordinator.jobs[coordinator.nextJobId + 1]? = none := by
  cases found : coordinator.jobs[coordinator.nextJobId + 1]? with
  | none => rfl
  | some running => exact absurd (invariant.issued _ _ found) (Nat.not_succ_le_self _)

/-- A test that the new job fails is not charged, one that it passes is charged once. -/
theorem startJob_runningCount (invariant : coordinator.TrafficInvariant) (key : RefreshKey)
    (refreshEntry : RefreshEntry) (nowMs : Nat) (charged : RunningJob → Bool) :
    (coordinator.startJob key refreshEntry nowMs).1.runningCount charged =
      coordinator.runningCount charged +
        if charged ⟨key, refreshEntry.origin⟩ then 1 else 0 :=
  BTreeMap.countValues_insert_fresh charged invariant.fresh_id _

private theorem startJob_withinLimits (invariant : coordinator.TrafficInvariant) {key : RefreshKey}
    {refreshEntry : RefreshEntry} (nowMs : Nat)
    (available : coordinator.capacityAvailable refreshEntry key.kind = true) :
    (coordinator.startJob key refreshEntry nowMs).1.WithinLimits coordinator.limits := by
  obtain ⟨total, perOrigin, ordinary, ordinaryPerOrigin⟩ := invariant.within
  have counted := startJob_runningCount invariant key refreshEntry nowMs
  unfold capacityAvailable at available
  dsimp only at available
  by_cases full : coordinator.jobs.size ≥ coordinator.limits.concurrent ∨
      (coordinator.runningCount fun job => job.origin = refreshEntry.origin) ≥
        coordinator.limits.perOrigin
  · rw [if_pos full] at available
    cases available
  obtain ⟨room, originRoom⟩ := not_or.mp full
  rw [if_neg full] at available
  -- what the class of the job leaves: auth may use the reserve, ordinary work may not
  have classRoom : key.kind = .auth ∨
      (coordinator.runningCount fun job => job.key.kind ≠ .auth) <
          coordinator.limits.concurrent - coordinator.limits.reservedAuth ∧
        (coordinator.runningCount fun job =>
            job.origin = refreshEntry.origin ∧ job.key.kind ≠ .auth) <
          coordinator.limits.perOrigin - coordinator.limits.reservedAuth := by
    by_cases auth : key.kind = .auth
    · exact .inl auth
    · rw [if_neg auth] at available
      exact .inr (of_decide_eq_true available)
  constructor
  · have grown : (coordinator.startJob key refreshEntry nowMs).1.pendingJobs =
        coordinator.jobs.size + 1 := BTreeMap.size_insert_fresh invariant.fresh_id _
    rw [grown]
    exact Nat.lt_of_not_le room
  · intro origin
    rw [counted]
    by_cases same : refreshEntry.origin = origin
    · subst same
      rw [if_pos (decide_eq_true rfl)]
      exact Nat.lt_of_not_le originRoom
    · simpa [same] using perOrigin origin
  · rw [counted]
    by_cases auth : key.kind = .auth
    · simpa [auth] using ordinary
    · rw [if_pos (decide_eq_true auth)]
      exact (classRoom.resolve_left auth).1
  · intro origin
    rw [counted]
    by_cases same : refreshEntry.origin = origin ∧ key.kind ≠ .auth
    · rw [if_pos (decide_eq_true same)]
      obtain ⟨rfl, other⟩ := same
      exact (classRoom.resolve_left other).2
    · simpa [same] using ordinaryPerOrigin origin

theorem TrafficInvariant.startJob (invariant : coordinator.TrafficInvariant) {key : RefreshKey}
    {refreshEntry : RefreshEntry} (nowMs : Nat)
    (available : coordinator.capacityAvailable refreshEntry key.kind = true) :
    (coordinator.startJob key refreshEntry nowMs).1.TrafficInvariant where
  within := startJob_withinLimits invariant nowMs available
  waiting other jobId waits := by
    rw [startJob_inFlightJob] at waits
    change ∃ running, (coordinator.jobs.insert (coordinator.nextJobId + 1) _)[jobId]? = _ ∧ _
    by_cases own : other = key
    · subst own
      rw [if_pos rfl] at waits
      cases waits
      exact ⟨⟨other, refreshEntry.origin⟩, by rw [BTreeMap.lookup_insert, if_pos rfl], rfl⟩
    · rw [if_neg own] at waits
      obtain ⟨running, found, runs⟩ := invariant.waiting other jobId waits
      refine ⟨running, ?_, runs⟩
      rw [BTreeMap.lookup_insert, if_neg]
      · exact found
      · rintro rfl
        rw [invariant.fresh_id] at found
        cases found
  issued jobId running found := by
    change jobId ≤ coordinator.nextJobId + 1
    change (coordinator.jobs.insert (coordinator.nextJobId + 1) _)[jobId]? = _ at found
    rw [BTreeMap.lookup_insert] at found
    split at found
    next same => exact Nat.le_of_eq same
    next => exact Nat.le_succ_of_le (invariant.issued jobId running found)

/-! ## Settling a job -/

theorem freed_runningCount_le (coordinator : RefreshCoordinator) (jobId : RefreshJobId)
    (nowMs : Nat) (charged : RunningJob → Bool) :
    (coordinator.freed jobId nowMs).runningCount charged ≤ coordinator.runningCount charged := by
  change BTreeMap.countValues (coordinator.jobs.erase jobId) charged ≤ _
  cases found : coordinator.jobs[jobId]? with
  | none => rw [BTreeMap.erase_eq_self_of_lookup_none found, runningCount]
  | some running =>
      have split := BTreeMap.countValues_erase charged found
      unfold runningCount
      omega

private theorem freed_withinLimits (invariant : coordinator.TrafficInvariant) (jobId : RefreshJobId)
    (nowMs : Nat) : (coordinator.freed jobId nowMs).WithinLimits coordinator.limits := by
  obtain ⟨total, perOrigin, ordinary, ordinaryPerOrigin⟩ := invariant.within
  have fewer := freed_runningCount_le coordinator jobId nowMs
  constructor
  · exact Nat.le_trans Std.ExtTreeMap.size_erase_le total
  · exact fun origin => Nat.le_trans (fewer _) (perOrigin origin)
  · exact Nat.le_trans (fewer _) ordinary
  · exact fun origin => Nat.le_trans (fewer _) (ordinaryPerOrigin origin)

/-- Freeing a job that no entry waits for any more, as `settled` says. -/
theorem TrafficInvariant.free (invariant : coordinator.TrafficInvariant) {after : RefreshCoordinator}
    {jobId : RefreshJobId} (nowMs : Nat) (jobs : after.jobs = coordinator.jobs.erase jobId)
    (limits : after.limits = coordinator.limits)
    (nextJobId : after.nextJobId = coordinator.nextJobId)
    (settled : ∀ key other, after.inFlightJob key = some other →
      other ≠ jobId ∧ coordinator.inFlightJob key = some other) : after.TrafficInvariant where
  within := by
    obtain ⟨total, perOrigin, ordinary, ordinaryPerOrigin⟩ :=
      freed_withinLimits invariant jobId nowMs
    constructor <;> simpa only [pendingJobs, runningCount, jobs, limits]
  waiting key other waits := by
    obtain ⟨different, waited⟩ := settled key other waits
    obtain ⟨running, found, runs⟩ := invariant.waiting key other waited
    refine ⟨running, ?_, runs⟩
    rw [jobs, BTreeMap.lookup_erase, if_neg different, found]
  issued other running found := by
    rw [jobs, BTreeMap.lookup_erase] at found
    split at found
    · cases found
    · rw [nextJobId]
      exact invariant.issued other running found

theorem TrafficInvariant.complete (invariant : coordinator.TrafficInvariant) (job : RefreshJob)
    (outcome : RefreshOutcome) (nowMs : Nat) :
    (coordinator.complete job outcome nowMs).1.TrafficInvariant := by
  -- an entry waiting for the id is the entry of the job's key
  have owner : ∀ key running, coordinator.jobs[job.id]? = some running → running.key = job.key →
      coordinator.inFlightJob key = some job.id → key = job.key := by
    intro key running found own waits
    obtain ⟨holder, held, runs⟩ := invariant.waiting key job.id waits
    rw [found] at held
    cases held
    exact runs.symm.trans own
  cases complete_cases coordinator job outcome nowMs with
  | unknown absent same =>
      rw [same]
      exact invariant
  | forged running found other same =>
      rw [same]
      exact invariant
  | retired running settledMs found own released same =>
      rw [same]
      refine invariant.free settledMs rfl rfl rfl ?_
      intro key other waits
      refine ⟨?_, waits⟩
      rintro rfl
      exact released (owner key running found own waits ▸ waits)
  | applied running settledMs nextDueMs refreshEntry found own waiting idle same =>
      rw [same]
      refine invariant.free settledMs rfl rfl rfl ?_
      intro key other waits
      rw [putEntry_inFlightJob] at waits
      by_cases self : key = job.key
      · rw [if_pos self, idle] at waits
        cases waits
      · rw [if_neg self] at waits
        refine ⟨?_, waits⟩
        rintro rfl
        exact self (owner key running found own waits)

/-! ## Runs -/

theorem TrafficInvariant.apply (invariant : coordinator.TrafficInvariant)
    (operation : RefreshOperation) : (coordinator.apply operation).TrafficInvariant := by
  by_cases quiet : operation.movesTraffic = false
  · exact invariant.schedules (apply_schedules coordinator quiet)
  cases operation with
  | claimDue nowMs =>
      rcases claimDue_cases coordinator nowMs with same | ⟨key, refreshEntry, -, -, room, -, same⟩
      · rw [RefreshCoordinator.apply, same]
        exact invariant
      · rw [RefreshCoordinator.apply, same]
        exact invariant.startJob nowMs room
  | complete job outcome nowMs => exact invariant.complete job outcome nowMs
  | invalidate identity =>
      refine invariant.retire rfl rfl rfl ?_
      intro key jobId waits
      rw [RefreshCoordinator.apply, invalidate_inFlightJob] at waits
      split at waits
      · cases waits
      · exact waits
  | removeKind identity kind =>
      refine invariant.retire rfl rfl rfl ?_
      intro key jobId waits
      rw [RefreshCoordinator.apply, removeKind_inFlightJob] at waits
      split at waits
      · cases waits
      · exact waits
  | _ => exact absurd rfl quiet

private theorem apply_limits (coordinator : RefreshCoordinator) (operation : RefreshOperation) :
    (coordinator.apply operation).limits = coordinator.limits := by
  by_cases quiet : operation.movesTraffic = false
  · exact (apply_schedules coordinator quiet).limits
  cases operation with
  | claimDue nowMs =>
      rcases claimDue_cases coordinator nowMs with same | ⟨_, _, -, -, -, -, same⟩
      · rw [apply, same]
      · rw [apply, same]
        rfl
  | complete job outcome nowMs =>
      cases complete_cases coordinator job outcome nowMs with
      | unknown absent same => rw [apply, same]
      | forged running found other same => rw [apply, same]
      | retired running settledMs found own released same => rw [apply, same]; rfl
      | applied running settledMs nextDueMs refreshEntry found own waiting idle same =>
          rw [apply, same]; rfl
  | invalidate identity => rfl
  | removeKind identity kind => rfl
  | _ => exact absurd rfl quiet

/-- Only a claim makes an entry wait for a job, and it is the claim of that job. -/
theorem apply_inFlightJob {operation : RefreshOperation} {key : RefreshKey} {jobId : RefreshJobId}
    (waits : (coordinator.apply operation).inFlightJob key = some jobId) :
    coordinator.inFlightJob key = some jobId ∨
      ∃ nowMs claimed, operation = .claimDue nowMs ∧
        (coordinator.claimDue nowMs).2 = some claimed ∧ claimed.id = jobId ∧ claimed.key = key := by
  by_cases quiet : operation.movesTraffic = false
  · exact .inl ((apply_schedules coordinator quiet).inFlight key ▸ waits)
  cases operation with
  | claimDue nowMs =>
      rcases claimDue_cases coordinator nowMs with same | ⟨claimedKey, refreshEntry, -, -, -, -, same⟩
      · rw [apply, same] at waits
        exact .inl waits
      · rw [apply, same, startJob_inFlightJob] at waits
        split at waits
        next own =>
          cases waits
          refine .inr ⟨nowMs, _, rfl, by rw [same], rfl, ?_⟩
          rw [own]
          rfl
        next => exact .inl waits
  | complete job outcome nowMs =>
      cases complete_cases coordinator job outcome nowMs with
      | unknown absent same => exact .inl (by rwa [apply, same] at waits)
      | forged running found other same => exact .inl (by rwa [apply, same] at waits)
      | retired running settledMs found own released same => exact .inl (by rwa [apply, same] at waits)
      | applied running settledMs nextDueMs refreshEntry found own waiting idle same =>
          rw [apply, same, putEntry_inFlightJob] at waits
          split at waits
          · rw [idle] at waits
            cases waits
          · exact .inl waits
  | invalidate identity =>
      rw [apply, invalidate_inFlightJob] at waits
      split at waits
      · cases waits
      · exact .inl waits
  | removeKind identity kind =>
      rw [apply, removeKind_inFlightJob] at waits
      split at waits
      · cases waits
      · exact .inl waits
  | _ => exact absurd rfl quiet

/-- The id was issued, and no job runs under it. -/
structure SettledId (coordinator : RefreshCoordinator) (jobId : RefreshJobId) : Prop where
  issued : jobId ≤ coordinator.nextJobId
  absent : coordinator.jobs[jobId]? = none

theorem SettledId.apply {jobId : RefreshJobId} (settled : coordinator.SettledId jobId)
    (operation : RefreshOperation) : (coordinator.apply operation).SettledId jobId := by
  by_cases quiet : operation.movesTraffic = false
  · have same := apply_schedules coordinator quiet
    exact ⟨same.nextJobId ▸ settled.issued, same.jobs ▸ settled.absent⟩
  have freed (other : RefreshJobId) (nowMs : Nat) : (coordinator.freed other nowMs).SettledId jobId := by
    refine ⟨settled.issued, ?_⟩
    change (coordinator.jobs.erase other)[jobId]? = none
    rw [BTreeMap.lookup_erase, settled.absent, ite_self]
  cases operation with
  | claimDue nowMs =>
      rcases claimDue_cases coordinator nowMs with same | ⟨key, refreshEntry, -, -, -, -, same⟩
      · rw [RefreshCoordinator.apply, same]
        exact settled
      · rw [RefreshCoordinator.apply, same]
        refine ⟨Nat.le_succ_of_le settled.issued, ?_⟩
        change (coordinator.jobs.insert (coordinator.nextJobId + 1) _)[jobId]? = none
        rw [BTreeMap.lookup_insert, if_neg, settled.absent]
        rintro rfl
        exact Nat.not_succ_le_self _ settled.issued
  | complete job outcome nowMs =>
      cases complete_cases coordinator job outcome nowMs with
      | unknown absent same => rwa [RefreshCoordinator.apply, same]
      | forged running found other same => rwa [RefreshCoordinator.apply, same]
      | retired running settledMs found own released same =>
          rw [RefreshCoordinator.apply, same]
          exact freed job.id settledMs
      | applied running settledMs nextDueMs refreshEntry found own waiting idle same =>
          rw [RefreshCoordinator.apply, same]
          exact ⟨(freed job.id settledMs).issued, (freed job.id settledMs).absent⟩
  | invalidate identity => exact ⟨settled.issued, settled.absent⟩
  | removeKind identity kind => exact ⟨settled.issued, settled.absent⟩
  | _ => exact absurd rfl quiet

/-- A completion that changes anything takes its own job out, and no completion
with that id finds a job ever again. -/
def FreesOnce (coordinator : RefreshCoordinator) (job : RefreshJob) (outcome : RefreshOutcome)
    (nowMs : Nat) : Prop :=
  let next := (coordinator.complete job outcome nowMs).1
  next = coordinator ∨
    (∃ running, coordinator.jobs[job.id]? = some running ∧ running.key = job.key) ∧
      next.jobs = coordinator.jobs.erase job.id ∧
        ∀ (later : List RefreshOperation) (again : RefreshJob) (reported : RefreshOutcome)
          (laterMs : Nat), again.id = job.id →
            (next.run later).complete again reported laterMs = (next.run later, .unknownJob)

private theorem TrafficInvariant.freesOnce (invariant : coordinator.TrafficInvariant) (job : RefreshJob)
    (outcome : RefreshOutcome) (nowMs : Nat) : coordinator.FreesOnce job outcome nowMs := by
  -- the id of a removed job was issued before, so it stays settled
  have never {next : RefreshCoordinator} {running : RunningJob}
      (found : coordinator.jobs[job.id]? = some running)
      (jobs : next.jobs = coordinator.jobs.erase job.id)
      (nextJobId : next.nextJobId = coordinator.nextJobId) (later : List RefreshOperation)
      (again : RefreshJob) (reported : RefreshOutcome) (laterMs : Nat) (same : again.id = job.id) :
      (next.run later).complete again reported laterMs = (next.run later, .unknownJob) := by
    have settled : next.SettledId job.id := by
      refine ⟨nextJobId ▸ invariant.issued job.id running found, ?_⟩
      rw [jobs, BTreeMap.lookup_erase, if_pos rfl]
    have absent : (next.run later).SettledId job.id :=
      Execution.run_invariant (fun state : RefreshCoordinator => state.SettledId job.id)
        (fun state operation holds => holds.apply operation) settled later
    rw [RefreshCoordinator.complete, same, absent.absent]
  unfold FreesOnce
  cases complete_cases coordinator job outcome nowMs with
  | unknown absent same => exact .inl (by rw [same])
  | forged running found other same => exact .inl (by rw [same])
  | retired running settledMs found own released same =>
      rw [same]
      exact .inr ⟨⟨running, found, own⟩, rfl, never found rfl rfl⟩
  | applied running settledMs nextDueMs refreshEntry found own waiting idle same =>
      rw [same]
      exact .inr ⟨⟨running, found, own⟩, rfl, never found rfl rfl⟩

theorem new_traffic {limits : RefreshLimits} {start : RefreshCoordinator}
    (accepted : RefreshCoordinator.new limits = .ok start) :
    start.limits = limits ∧ start.TrafficInvariant ∧ ∀ key, start.inFlightJob key = none := by
  unfold RefreshCoordinator.new at accepted
  split at accepted
  · cases accepted
  cases accepted
  have idle : ∀ key : RefreshKey, (∅ : BTreeMap RefreshKey RefreshEntry)[key]? = none := by simp
  refine ⟨rfl, ⟨⟨Nat.zero_le _, ?_, Nat.zero_le _, ?_⟩, ?_, ?_⟩, ?_⟩
  · exact fun origin => Nat.zero_le _
  · exact fun origin => Nat.zero_le _
  · intro key jobId waits
    rw [inFlightJob, idle] at waits
    cases waits
  · intro jobId running found
    simp at found
  · intro key
    rw [inFlightJob, idle]
    rfl

theorem run_limits (coordinator : RefreshCoordinator) (operations : List RefreshOperation) :
    (coordinator.run operations).limits = coordinator.limits :=
  Execution.run_invariant (fun state => state.limits = coordinator.limits)
    (fun state operation same => (apply_limits state operation).trans same) rfl operations

/-- The completion was reported for the entry that its job was claimed for: since that
claim the entry has stayed registered and has waited for this job. -/
def ClaimedSince (start : RefreshCoordinator) (operations : List RefreshOperation)
    (job : RefreshJob) : Prop :=
  ∃ before claimMs after, operations = before ++ .claimDue claimMs :: after ∧
    (∃ claimed, ((start.run before).claimDue claimMs).2 = some claimed ∧
      claimed.id = job.id ∧ claimed.key = job.key) ∧
    (∀ middle, middle <+: after → ∃ refreshEntry,
      (start.run (before ++ .claimDue claimMs :: middle)).entries[job.key]? = some refreshEntry ∧
        refreshEntry.inFlight = some job.id) ∧
    ∀ operation ∈ after, operation.retires job.key = false

private theorem apply_retires {operation : RefreshOperation} {key : RefreshKey}
    (retires : operation.retires key = true) : (coordinator.apply operation).inFlightJob key = none := by
  cases operation with
  | invalidate identity =>
      rw [apply, invalidate_inFlightJob, if_pos (of_decide_eq_true retires)]
  | removeKind identity kind =>
      rw [apply, removeKind_inFlightJob, if_pos (of_decide_eq_true retires)]
  | _ => cases retires

theorem claimedSince_of_inFlightJob {start : RefreshCoordinator}
    {operations : List RefreshOperation} {job : RefreshJob}
    (idle : start.inFlightJob job.key = none)
    (waits : (start.run operations).inFlightJob job.key = some job.id) :
    start.ClaimedSince operations job := by
  obtain ⟨before, operation, after, split, ⟨claimMs, claimed, rfl, claims, sameId, sameKey⟩, since⟩ :=
    @Execution.run_since _ _ RefreshCoordinator.apply
      (fun state => state.inFlightJob job.key = some job.id) _
      (fun _ _ => apply_inFlightJob) _ (by rw [idle]; exact nofun) _ waits
  refine ⟨before, claimMs, after, split, ⟨claimed, claims, sameId, sameKey⟩, ?_, ?_⟩
  · exact fun middle initially => inFlightJob_eq_some.mp (since middle initially)
  · intro operation member
    obtain ⟨first, rest, rfl⟩ := List.append_of_mem member
    by_contra drops
    have waiting := since (first ++ [operation]) ⟨rest, by simp⟩
    rw [← List.cons_append, ← List.append_assoc, Execution.run_append] at waiting
    rw [Execution.run_cons, Execution.run_nil,
      apply_retires (Bool.eq_true_of_not_eq_false drops)] at waiting
    cases waiting

/-- Traffic bounds of every run: capacity, the link from entries to running jobs, and
what a completion may reach and free. -/
theorem traffic_within_limits {limits : RefreshLimits} {start : RefreshCoordinator}
    (accepted : RefreshCoordinator.new limits = .ok start) (operations : List RefreshOperation) :
    (start.run operations).WithinLimits limits ∧
    (∀ (key : RefreshKey) (refreshEntry : RefreshEntry) (jobId : RefreshJobId),
      (start.run operations).entries[key]? = some refreshEntry →
      refreshEntry.inFlight = some jobId →
        ∃ running, (start.run operations).jobs[jobId]? = some running ∧ running.key = key) ∧
    (∀ job outcome nowMs nextDueMs,
      ((start.run operations).complete job outcome nowMs).2 = .applied nextDueMs →
        start.ClaimedSince operations job) ∧
    ∀ job outcome nowMs, (start.run operations).FreesOnce job outcome nowMs := by
  obtain ⟨rfl, initial, idle⟩ := new_traffic accepted
  have invariant : (start.run operations).TrafficInvariant :=
    Execution.run_invariant TrafficInvariant (fun state operation holds => holds.apply operation)
      initial operations
  refine ⟨run_limits start operations ▸ invariant.within, ?_, ?_, ?_⟩
  · intro key refreshEntry jobId found waits
    exact invariant.waiting key jobId (inFlightJob_eq_some.mpr ⟨refreshEntry, found, waits⟩)
  · intro job outcome nowMs nextDueMs applied
    cases complete_cases (start.run operations) job outcome nowMs with
    | unknown absent same => rw [same] at applied; cases applied
    | forged running found other same => rw [same] at applied; cases applied
    | retired running settledMs found own released same => rw [same] at applied; cases applied
    | applied running settledMs nextDueMs refreshEntry found own waiting idleEntry same =>
        exact claimedSince_of_inFlightJob (idle job.key) waiting
  · exact invariant.freesOnce

theorem traffic_within_default_limits : ∃ start, RefreshCoordinator.new .default = .ok start ∧
    (start.run [.register ⟨"account:test", 1, 1⟩ .quota 0 true true, .claimDue 0]).WithinLimits
      .default :=
  ⟨_, rfl, (traffic_within_limits rfl _).1⟩

end RefreshCoordinator

end ZenithRelay.Scheduler.Refresh
