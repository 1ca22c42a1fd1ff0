import ZenithRelay.Foundations.Execution
import ZenithRelay.Scheduler.Refresh.Run

/-!
# Refresh operations

The coordinator as a state machine, and what each operation does to traffic: the
running jobs, and the job each entry waits for.
-/

set_option autoImplicit false

namespace ZenithRelay.Scheduler.Refresh

inductive RefreshOperation where
  | register (identity : RefreshIdentity) (kind : RefreshKind) (nowMs : Nat)
      (active dueNow : Bool)
  | registerOrigin (identity : RefreshIdentity) (kind : RefreshKind) (origin : String)
      (nowMs : Nat) (active dueNow : Bool)
  | scheduleAt (identity : RefreshIdentity) (kind : RefreshKind) (dueAtMs : Nat) (active : Bool)
  | scheduleEvent (identity : RefreshIdentity) (kind : RefreshKind) (atMs : Nat)
  | requestNow (identity : RefreshIdentity) (kind : RefreshKind) (nowMs : Nat)
  | markDirty (identity : RefreshIdentity) (kind : RefreshKind) (nowMs : Nat)
  | setActive (identity : RefreshIdentity) (active : Bool) (nowMs : Nat)
  | setAutomatic (identity : RefreshIdentity) (kind : RefreshKind) (automatic : Bool)
  | observePassiveQuota (identity : RefreshIdentity) (nowMs ageMs observedAtWallMs : Nat)
  | deferUntil (identity : RefreshIdentity) (kind : RefreshKind) (untilMs : Nat)
  | claimDue (nowMs : Nat)
  | complete (job : RefreshJob) (outcome : RefreshOutcome) (nowMs : Nat)
  | invalidate (identity : RefreshIdentity)
  | removeKind (identity : RefreshIdentity) (kind : RefreshKind)
  deriving DecidableEq, Repr

namespace RefreshEntry

@[simp] theorem schedule_inFlight (refreshEntry : RefreshEntry) (due : Option Nat) :
    (refreshEntry.schedule due).inFlight = refreshEntry.inFlight := by
  unfold schedule
  split
  · rfl
  · split <;> rfl

private theorem alignPassiveQuota_inFlight (refreshEntry : RefreshEntry) (active : Bool)
    (receivedMs ageMs nowMs : Nat) :
    (refreshEntry.alignPassiveQuota active receivedMs ageMs nowMs).inFlight =
      refreshEntry.inFlight := by
  unfold alignPassiveQuota
  dsimp only
  split
  · rfl
  · split <;> rfl

theorem accelerate_inFlight (refreshEntry : RefreshEntry) (kind : RefreshKind) (active : Bool)
    (nowMs : Nat) : (refreshEntry.accelerate kind active nowMs).inFlight = refreshEntry.inFlight := by
  unfold accelerate
  split
  · exact schedule_inFlight ..
  · rfl

private theorem setActive_inFlight (refreshEntry : RefreshEntry) (kind : RefreshKind) (active : Bool)
    (nowMs : Nat) : (refreshEntry.setActive kind active nowMs).inFlight = refreshEntry.inFlight := by
  unfold setActive
  split
  · rfl
  · split
    · split
      · exact alignPassiveQuota_inFlight ..
      · exact accelerate_inFlight ..
    · exact accelerate_inFlight ..

theorem markDirty_inFlight (refreshEntry : RefreshEntry) (nowMs : Nat) :
    (refreshEntry.markDirty nowMs).inFlight = refreshEntry.inFlight := by
  unfold markDirty
  split
  · rfl
  · rw [schedule_inFlight]

private theorem observePassiveQuota_inFlight (refreshEntry : RefreshEntry)
    (nowMs ageMs observedAtWallMs : Nat) :
    (refreshEntry.observePassiveQuota nowMs ageMs observedAtWallMs).inFlight =
      refreshEntry.inFlight := by
  unfold observePassiveQuota
  dsimp only
  split
  · rfl
  · split <;> rfl

private theorem requestNow_inFlight (refreshEntry : RefreshEntry) (nowMs : Nat) :
    (refreshEntry.requestNow nowMs).inFlight = refreshEntry.inFlight := by
  unfold requestNow
  dsimp only
  split
  · rw [schedule_inFlight]
  · rfl

private theorem setAutomatic_inFlight (refreshEntry : RefreshEntry) (automatic : Bool) :
    (refreshEntry.setAutomatic automatic).inFlight = refreshEntry.inFlight := by
  unfold setAutomatic
  dsimp only
  split
  · rfl
  · split <;> rfl

@[simp] theorem start_inFlight (refreshEntry : RefreshEntry) (jobId : RefreshJobId) (nowMs : Nat) :
    (refreshEntry.start jobId nowMs).inFlight = some jobId := by
  unfold start
  dsimp only
  split <;> rfl

@[simp] theorem settle_inFlight (refreshEntry : RefreshEntry) (kind : RefreshKind)
    (minimumIntervalMs : Nat) (outcome : RefreshOutcome) (nowMs : Nat) :
    (refreshEntry.settle kind minimumIntervalMs outcome nowMs).inFlight = none := by
  cases outcome with
  | success =>
      cases due : refreshEntry.passiveDuringJobDueMs with
      | none => simp [settle, due]
      | some dueMs => simp [settle, due]
  | failedRetryAt atMs =>
      simp only [settle]
      split <;> rfl
  | noProgress =>
      simp only [settle]
      split <;> rfl
  | unsupported => rfl

end RefreshEntry

namespace RefreshCoordinator

/-- The coordinator after one operation; its result is not part of the state. -/
def apply (coordinator : RefreshCoordinator) : RefreshOperation → RefreshCoordinator
  | .register identity kind nowMs active dueNow =>
    (coordinator.register identity kind nowMs active dueNow).1
  | .registerOrigin identity kind origin nowMs active dueNow =>
    (coordinator.registerOrigin identity kind origin nowMs active dueNow).1
  | .scheduleAt identity kind dueAtMs active =>
    (coordinator.scheduleAt identity kind dueAtMs active).1
  | .scheduleEvent identity kind atMs => (coordinator.scheduleEvent identity kind atMs).1
  | .requestNow identity kind nowMs => (coordinator.requestNow identity kind nowMs).1
  | .markDirty identity kind nowMs => (coordinator.markDirty identity kind nowMs).1
  | .setActive identity active nowMs => (coordinator.setActive identity active nowMs).1
  | .setAutomatic identity kind automatic => (coordinator.setAutomatic identity kind automatic).1
  | .observePassiveQuota identity nowMs ageMs observedAtWallMs =>
    (coordinator.observePassiveQuota identity nowMs ageMs observedAtWallMs).1
  | .deferUntil identity kind untilMs => coordinator.deferUntil identity kind untilMs
  | .claimDue nowMs => (coordinator.claimDue nowMs).1
  | .complete job outcome nowMs => (coordinator.complete job outcome nowMs).1
  | .invalidate identity => (coordinator.invalidate identity).1
  | .removeKind identity kind => (coordinator.removeKind identity kind).1

def run : RefreshCoordinator → List RefreshOperation → RefreshCoordinator := Execution.run apply

/-- The job that the entry of `key` waits for. -/
def inFlightJob (coordinator : RefreshCoordinator) (key : RefreshKey) : Option RefreshJobId :=
  coordinator.entries[key]?.bind RefreshEntry.inFlight

theorem inFlightJob_eq_some {coordinator : RefreshCoordinator} {key : RefreshKey}
    {jobId : RefreshJobId} :
    coordinator.inFlightJob key = some jobId ↔
      ∃ refreshEntry, coordinator.entries[key]? = some refreshEntry ∧
        refreshEntry.inFlight = some jobId := by
  rw [inFlightJob, Option.bind_eq_some_iff]

theorem inFlightJob_eq_none {coordinator : RefreshCoordinator} {key : RefreshKey}
    {refreshEntry : RefreshEntry} (found : coordinator.entries[key]? = some refreshEntry) :
    coordinator.inFlightJob key = none ↔ refreshEntry.inFlight = none := by
  rw [inFlightJob, found]
  rfl

end RefreshCoordinator

/-- Operations that start, settle or retire work. -/
def RefreshOperation.movesTraffic : RefreshOperation → Bool
  | .claimDue _ | .complete .. | .invalidate _ | .removeKind .. => true
  | _ => false

/-- The key that an operation makes an entry for when there is none. -/
def RefreshOperation.registered : RefreshOperation → Option RefreshKey
  | .register identity kind .. => some ⟨identity, kind⟩
  | .registerOrigin identity kind .. => some ⟨identity, kind⟩
  | .scheduleAt identity kind .. => some ⟨identity, kind⟩
  | _ => none

namespace RefreshCoordinator

theorem mem_entries_iff {coordinator : RefreshCoordinator} {key : RefreshKey} :
    key ∈ coordinator.entries ↔ ∃ refreshEntry, coordinator.entries[key]? = some refreshEntry := by
  rw [Std.ExtTreeMap.mem_iff_isSome_getElem?, Option.isSome_iff_exists]

/-- Due times moved: nothing was started, settled or retired, and no entry was made
for a key other than `registered`. -/
structure Schedules (registered : Option RefreshKey) (before after : RefreshCoordinator) :
    Prop where
  jobs : after.jobs = before.jobs
  limits : after.limits = before.limits
  nextJobId : after.nextJobId = before.nextJobId
  inFlight : ∀ key, after.inFlightJob key = before.inFlightJob key
  added : ∀ key, key ∈ after.entries → registered = some key ∨ key ∈ before.entries

variable {coordinator : RefreshCoordinator}

theorem Schedules.refl (registered : Option RefreshKey) (coordinator : RefreshCoordinator) :
    Schedules registered coordinator coordinator :=
  ⟨rfl, rfl, rfl, fun _ => rfl, fun _ => .inr⟩

theorem Schedules.trans {registered : Option RefreshKey} {first second third : RefreshCoordinator}
    (left : Schedules registered first second) (right : Schedules registered second third) :
    Schedules registered first third where
  jobs := right.jobs.trans left.jobs
  limits := right.limits.trans left.limits
  nextJobId := right.nextJobId.trans left.nextJobId
  inFlight key := (right.inFlight key).trans (left.inFlight key)
  added key member := (right.added key member).elim .inl (left.added key)

theorem putEntry_inFlightJob (coordinator : RefreshCoordinator) (key other : RefreshKey)
    (refreshEntry : RefreshEntry) :
    (coordinator.putEntry key refreshEntry).inFlightJob other =
      if other = key then refreshEntry.inFlight else coordinator.inFlightJob other := by
  unfold inFlightJob putEntry
  rw [BTreeMap.lookup_insert]
  split <;> rfl

theorem putEntry_mem {key other : RefreshKey} {refreshEntry : RefreshEntry}
    (member : other ∈ (coordinator.putEntry key refreshEntry).entries) :
    other = key ∨ other ∈ coordinator.entries := by
  unfold putEntry at member
  rw [Std.ExtTreeMap.mem_insert] at member
  exact member.imp (fun same => (Std.LawfulEqOrd.eq_of_compare same).symm) id

theorem putEntry_schedules {registered : Option RefreshKey} {key : RefreshKey}
    {refreshEntry : RefreshEntry} (same : refreshEntry.inFlight = coordinator.inFlightJob key)
    (allowed : registered = some key ∨ key ∈ coordinator.entries) :
    Schedules registered coordinator (coordinator.putEntry key refreshEntry) := by
  refine ⟨rfl, rfl, rfl, ?_, ?_⟩
  · intro other
    rw [putEntry_inFlightJob]
    split
    next equal => rw [equal, same]
    · rfl
  · intro other member
    rcases putEntry_mem member with rfl | present
    · exact allowed
    · exact .inr present

/-- Editing a stored entry without touching its running job. -/
theorem editEntry_schedules (registered : Option RefreshKey) {key : RefreshKey}
    {stored refreshEntry : RefreshEntry} (found : coordinator.entries[key]? = some stored)
    (same : refreshEntry.inFlight = stored.inFlight) :
    Schedules registered coordinator (coordinator.putEntry key refreshEntry) := by
  refine putEntry_schedules ?_ (.inr (mem_entries_iff.mpr ⟨stored, found⟩))
  rw [same, inFlightJob, found]
  rfl

theorem registerOrigin_schedules (coordinator : RefreshCoordinator) (identity : RefreshIdentity)
    (kind : RefreshKind) (origin : String) (nowMs : Nat) (active dueNow : Bool) :
    Schedules (some ⟨identity, kind⟩) coordinator
      (coordinator.registerOrigin identity kind origin nowMs active dueNow).1 := by
  unfold registerOrigin
  dsimp only
  split
  · exact .refl _ _
  · refine putEntry_schedules ?_ (.inl rfl)
    have stored : (coordinator.entries[RefreshKey.mk identity kind]?.getD
        (.new origin active)).inFlight = coordinator.inFlightJob ⟨identity, kind⟩ := by
      unfold inFlightJob
      cases coordinator.entries[RefreshKey.mk identity kind]? <;> rfl
    split
    · rw [RefreshEntry.schedule_inFlight]
      exact stored
    · exact stored

private theorem modify_schedules (registered : Option RefreshKey) (coordinator : RefreshCoordinator)
    (key : RefreshKey) (update : RefreshEntry → RefreshEntry)
    (same : ∀ refreshEntry, (update refreshEntry).inFlight = refreshEntry.inFlight) :
    Schedules registered coordinator
      { coordinator with entries := coordinator.entries.modify key update } := by
  refine ⟨rfl, rfl, rfl, ?_, fun _ member => .inr (Std.ExtTreeMap.mem_modify.mp member)⟩
  intro other
  unfold inFlightJob
  dsimp only
  rw [BTreeMap.lookup_modify]
  split
  · cases coordinator.entries[other]? with
    | none => rfl
    | some refreshEntry => exact same refreshEntry
  · rfl

private theorem scheduleAt_schedules (coordinator : RefreshCoordinator) (identity : RefreshIdentity)
    (kind : RefreshKind) (dueAtMs : Nat) (active : Bool) :
    Schedules (some ⟨identity, kind⟩) coordinator
      (coordinator.scheduleAt identity kind dueAtMs active).1 := by
  unfold scheduleAt
  dsimp only
  have registers : Schedules (some ⟨identity, kind⟩) coordinator
      (if coordinator.entries.contains ⟨identity, kind⟩ then (coordinator, true)
        else coordinator.register identity kind dueAtMs active false).1 := by
    split
    · exact .refl _ _
    · exact registerOrigin_schedules ..
  generalize (if coordinator.entries.contains ⟨identity, kind⟩ then (coordinator, true)
    else coordinator.register identity kind dueAtMs active false) = registration at registers ⊢
  split
  · exact registers
  · refine registers.trans (modify_schedules _ _ _ _ ?_)
    intro refreshEntry
    rw [RefreshEntry.schedule_inFlight]

private theorem setActive_schedules (registered : Option RefreshKey) (coordinator : RefreshCoordinator)
    (identity : RefreshIdentity) (active : Bool) (nowMs : Nat) :
    Schedules registered coordinator (coordinator.setActive identity active nowMs).1 := by
  refine ⟨rfl, rfl, rfl, ?_, fun _ member => .inr (Std.ExtTreeMap.mem_map.mp member)⟩
  intro key
  unfold inFlightJob setActive
  dsimp only
  rw [Std.ExtTreeMap.getElem?_map]
  cases coordinator.entries[key]? with
  | none => rfl
  | some refreshEntry =>
      simp only [Option.map_some, Option.bind_some]
      split
      · exact RefreshEntry.setActive_inFlight ..
      · rfl

theorem apply_schedules (coordinator : RefreshCoordinator) {operation : RefreshOperation}
    (quiet : operation.movesTraffic = false) :
    Schedules operation.registered coordinator (coordinator.apply operation) := by
  cases operation with
  | register identity kind nowMs active dueNow => exact registerOrigin_schedules ..
  | registerOrigin identity kind origin nowMs active dueNow => exact registerOrigin_schedules ..
  | scheduleAt identity kind dueAtMs active => exact scheduleAt_schedules ..
  | setActive identity active nowMs => exact setActive_schedules ..
  | scheduleEvent identity kind atMs =>
      rw [apply]
      unfold scheduleEvent
      split
      · exact .refl _ _
      next found =>
        split
        · exact .refl _ _
        · refine editEntry_schedules _ found ?_
          rw [RefreshEntry.schedule_inFlight]
  | requestNow identity kind nowMs =>
      rw [apply]
      unfold requestNow
      split
      · exact .refl _ _
      next found => exact editEntry_schedules _ found (RefreshEntry.requestNow_inFlight ..)
  | markDirty identity kind nowMs =>
      rw [apply]
      unfold markDirty
      split
      · exact .refl _ _
      next found =>
        split
        · exact .refl _ _
        · exact editEntry_schedules _ found (RefreshEntry.markDirty_inFlight ..)
  | setAutomatic identity kind automatic =>
      rw [apply]
      unfold setAutomatic
      split
      · exact .refl _ _
      next found => exact editEntry_schedules _ found (RefreshEntry.setAutomatic_inFlight ..)
  | observePassiveQuota identity nowMs ageMs observedAtWallMs =>
      rw [apply]
      unfold observePassiveQuota
      split
      · exact .refl _ _
      next found =>
        split
        · exact .refl _ _
        · split
          · exact .refl _ _
          · exact editEntry_schedules _ found (RefreshEntry.observePassiveQuota_inFlight ..)
  | deferUntil identity kind untilMs =>
      rw [apply]
      unfold deferUntil
      split
      · exact .refl _ _
      next found => exact editEntry_schedules _ found rfl
  | claimDue nowMs => cases quiet
  | complete job outcome nowMs => cases quiet
  | invalidate identity => cases quiet
  | removeKind identity kind => cases quiet

/-! ## Claims, completions and retirement -/

theorem nextClaim_claimable {coordinator : RefreshCoordinator} {nowMs : Nat} {key : RefreshKey}
    {refreshEntry : RefreshEntry} (next : coordinator.nextClaim nowMs = some (key, refreshEntry)) :
    coordinator.entries[key]? = some refreshEntry ∧
      coordinator.claimable key refreshEntry nowMs = true := by
  have member := Selection.minBy_mem next
  rw [List.mem_filter, BTreeMap.mem_toList_iff] at member
  exact member

/-- What a claim can do: nothing, or start a job for an idle entry within capacity. -/
theorem claimDue_cases (coordinator : RefreshCoordinator) (nowMs : Nat) :
    coordinator.claimDue nowMs = (coordinator, none) ∨
      ∃ key refreshEntry, coordinator.entries[key]? = some refreshEntry ∧
        refreshEntry.inFlight = none ∧
        coordinator.capacityAvailable refreshEntry key.kind = true ∧
        coordinator.nextJobId < u64Max ∧
        coordinator.claimDue nowMs =
          ((coordinator.startJob key refreshEntry nowMs).1,
            some (coordinator.startJob key refreshEntry nowMs).2) := by
  unfold claimDue
  split
  · exact .inl rfl
  next key refreshEntry next =>
    by_cases spent : coordinator.nextJobId ≥ u64Max
    · rw [if_pos spent]
      exact .inl rfl
    · obtain ⟨found, claimable⟩ := nextClaim_claimable next
      simp only [RefreshCoordinator.claimable, Bool.and_eq_true, Option.isNone_iff_eq_none]
        at claimable
      rw [if_neg spent]
      exact .inr ⟨key, refreshEntry, found, claimable.1.1.1, claimable.1.2, Nat.lt_of_not_le spent,
        rfl⟩

theorem startJob_inFlightJob (coordinator : RefreshCoordinator) (key other : RefreshKey)
    (refreshEntry : RefreshEntry) (nowMs : Nat) :
    (coordinator.startJob key refreshEntry nowMs).1.inFlightJob other =
      if other = key then some (coordinator.nextJobId + 1) else coordinator.inFlightJob other := by
  unfold inFlightJob startJob
  dsimp only
  rw [BTreeMap.lookup_insert]
  split
  · exact RefreshEntry.start_inFlight ..
  · rfl

/-- The state in which a settled job no longer charges capacity. -/
def freed (coordinator : RefreshCoordinator) (jobId : RefreshJobId) (nowMs : Nat) :
    RefreshCoordinator :=
  { coordinator with jobs := coordinator.jobs.erase jobId }.pruneOrigins nowMs

@[simp] theorem freed_inFlightJob (coordinator : RefreshCoordinator) (jobId : RefreshJobId)
    (nowMs : Nat) (key : RefreshKey) :
    (coordinator.freed jobId nowMs).inFlightJob key = coordinator.inFlightJob key := rfl

/-- What a completion can do. The two refusals leave the state as it was. -/
inductive CompletionCase (coordinator : RefreshCoordinator) (job : RefreshJob)
    (result : RefreshCoordinator × RefreshCompletion) : Prop where
  | unknown (absent : coordinator.jobs[job.id]? = none) (same : result = (coordinator, .unknownJob))
  | forged (running : RunningJob) (found : coordinator.jobs[job.id]? = some running)
      (other : running.key ≠ job.key) (same : result = (coordinator, .stale))
  | retired (running : RunningJob) (nowMs : Nat) (found : coordinator.jobs[job.id]? = some running)
      (own : running.key = job.key) (released : coordinator.inFlightJob job.key ≠ some job.id)
      (same : result = (coordinator.freed job.id nowMs, .stale))
  | applied (running : RunningJob) (nowMs : Nat) (nextDueMs : Option Nat)
      (refreshEntry : RefreshEntry) (found : coordinator.jobs[job.id]? = some running)
      (own : running.key = job.key) (waiting : coordinator.inFlightJob job.key = some job.id)
      (idle : refreshEntry.inFlight = none)
      (same : result =
        ((coordinator.freed job.id nowMs).putEntry job.key refreshEntry, .applied nextDueMs))

theorem complete_cases (coordinator : RefreshCoordinator) (job : RefreshJob)
    (outcome : RefreshOutcome) (nowMs : Nat) :
    coordinator.CompletionCase job (coordinator.complete job outcome nowMs) := by
  unfold complete
  split
  next absent => exact .unknown absent rfl
  next running found =>
    by_cases other : running.key ≠ job.key
    · rw [if_pos other]
      exact .forged running found other rfl
    · have own : running.key = job.key := not_ne_iff.mp other
      rw [if_neg other, own]
      dsimp only
      split
      next absent =>
        have absent : (coordinator.freed job.id nowMs).entries[job.key]? = none := absent
        refine .retired running nowMs found own ?_ rfl
        rw [← freed_inFlightJob coordinator job.id nowMs, inFlightJob, absent]
        rintro ⟨⟩
      next refreshEntry stored =>
        have stored : (coordinator.freed job.id nowMs).entries[job.key]? = some refreshEntry :=
          stored
        have waits : coordinator.inFlightJob job.key = refreshEntry.inFlight := by
          rw [← freed_inFlightJob coordinator job.id nowMs, inFlightJob, stored]
          rfl
        by_cases moved : refreshEntry.inFlight ≠ some job.id
        · rw [if_pos moved]
          exact .retired running nowMs found own (waits ▸ moved) rfl
        · rw [if_neg moved]
          exact .applied running nowMs _ _ found own (waits.trans (not_ne_iff.mp moved))
            (RefreshEntry.settle_inFlight ..) rfl

theorem invalidate_inFlightJob (coordinator : RefreshCoordinator) (identity : RefreshIdentity)
    (key : RefreshKey) :
    (coordinator.invalidate identity).1.inFlightJob key =
      if key.identity = identity then none else coordinator.inFlightJob key := by
  unfold inFlightJob invalidate
  dsimp only
  rw [BTreeMap.lookup_filter]
  split
  next retired => cases coordinator.entries[key]? <;> simp [retired, Option.filter]
  next kept => cases coordinator.entries[key]? <;> simp [kept, Option.filter]

theorem removeKind_inFlightJob (coordinator : RefreshCoordinator) (identity : RefreshIdentity)
    (kind : RefreshKind) (key : RefreshKey) :
    (coordinator.removeKind identity kind).1.inFlightJob key =
      if key = ⟨identity, kind⟩ then none else coordinator.inFlightJob key := by
  unfold inFlightJob removeKind
  dsimp only
  rw [BTreeMap.lookup_erase]
  split <;> rfl

end RefreshCoordinator

end ZenithRelay.Scheduler.Refresh
