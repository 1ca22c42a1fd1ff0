import ZenithRelay.Scheduler.Refresh.ObservationProperties

/-!
# Floors under claims

The provider's floor of an entry only rises while the entry stays registered, and
the start times of the coordinator and of each origin only rise while they are
kept. A claim respects all three.
-/

set_option autoImplicit false

namespace ZenithRelay.Scheduler.Refresh

namespace RefreshEntry

variable {refreshEntry later : RefreshEntry} {kind : RefreshKind}

@[simp] theorem schedule_notBeforeMs (refreshEntry : RefreshEntry) (due : Option Nat) :
    (refreshEntry.schedule due).notBeforeMs = refreshEntry.notBeforeMs := by
  unfold schedule
  split
  · rfl
  · split <;> rfl

@[simp] theorem start_notBeforeMs (refreshEntry : RefreshEntry) (jobId : RefreshJobId)
    (nowMs : Nat) : (refreshEntry.start jobId nowMs).notBeforeMs = refreshEntry.notBeforeMs := by
  unfold start
  dsimp only
  split <;> rfl

private theorem setActive_notBeforeMs (refreshEntry : RefreshEntry) (kind : RefreshKind) (active : Bool)
    (nowMs : Nat) :
    (refreshEntry.setActive kind active nowMs).notBeforeMs = refreshEntry.notBeforeMs := by
  have accelerated : (refreshEntry.accelerate kind active nowMs).notBeforeMs =
      refreshEntry.notBeforeMs := by
    unfold accelerate
    split
    · rw [schedule_notBeforeMs]
    · rfl
  unfold setActive
  split
  · rfl
  split
  · split
    · unfold alignPassiveQuota
      dsimp only
      split
      · rfl
      · split <;> rfl
    · exact accelerated
  · exact accelerated

/-- No edit lowers the floor, whatever it does to the due times. -/
theorem Edits.floor (edits : refreshEntry.Edits kind later) :
    refreshEntry.notBeforeMs ≤ later.notBeforeMs := by
  cases edits with
  | same => exact le_rfl
  | joined active busy => exact le_rfl
  | scheduled active due => rw [schedule_notBeforeMs]
  | event atMs automatic supported => rw [schedule_notBeforeMs]
  | dirtied nowMs automatic supported =>
      unfold RefreshEntry.markDirty
      split
      · exact le_rfl
      · rw [schedule_notBeforeMs]
  | observed nowMs ageMs observedAtWallMs automatic supported =>
      unfold RefreshEntry.observePassiveQuota
      dsimp only
      split
      · exact le_rfl
      · split <;> exact le_rfl
  | activity active nowMs => rw [setActive_notBeforeMs]
  | requested nowMs =>
      unfold RefreshEntry.requestNow
      dsimp only
      split
      · rw [schedule_notBeforeMs]
      · exact le_rfl
  | deferred untilMs => exact Nat.le_max_left _ _
  | switched automatic =>
      unfold RefreshEntry.setAutomatic
      dsimp only
      split
      · exact le_rfl
      · split <;> exact le_rfl
  | started jobId nowMs idle supported => rw [start_notBeforeMs]
  | settled jobId minimumIntervalMs outcome nowMs waits =>
      exact (Nat.le_max_left _ _).trans
        (settle_floor refreshEntry kind minimumIntervalMs nowMs outcome).1

end RefreshEntry

namespace RefreshCoordinator

variable {coordinator : RefreshCoordinator} {key : RefreshKey}

/-! ## The floor of an entry -/

theorem putEntry_keeps {other : RefreshKey} {refreshEntry : RefreshEntry}
    (member : key ∈ coordinator.entries) :
    key ∈ (coordinator.putEntry other refreshEntry).entries := by
  unfold putEntry
  rw [Std.ExtTreeMap.mem_insert]
  exact .inr member

theorem registerOrigin_keeps {identity : RefreshIdentity} {kind : RefreshKind} {origin : String}
    {nowMs : Nat} {active dueNow : Bool} (member : key ∈ coordinator.entries) :
    key ∈ (coordinator.registerOrigin identity kind origin nowMs active dueNow).1.entries := by
  unfold registerOrigin
  dsimp only
  split
  · exact member
  · exact putEntry_keeps member

/-- Only retirement takes an entry away. -/
theorem apply_keeps {operation : RefreshOperation} (kept : operation.retires key = false)
    (member : key ∈ coordinator.entries) : key ∈ (coordinator.apply operation).entries := by
  cases operation with
  | register identity kind nowMs active dueNow => exact registerOrigin_keeps member
  | registerOrigin identity kind origin nowMs active dueNow => exact registerOrigin_keeps member
  | scheduleAt identity kind dueAtMs active =>
      rw [apply]
      unfold scheduleAt
      dsimp only
      have registered : key ∈ (if coordinator.entries.contains ⟨identity, kind⟩ then
          (coordinator, true)
          else coordinator.register identity kind dueAtMs active false).1.entries := by
        split
        · exact member
        · exact registerOrigin_keeps member
      generalize (if coordinator.entries.contains ⟨identity, kind⟩ then (coordinator, true)
        else coordinator.register identity kind dueAtMs active false) = registration
        at registered ⊢
      split
      · exact registered
      · exact Std.ExtTreeMap.mem_modify.mpr registered
  | setActive identity active nowMs => exact Std.ExtTreeMap.mem_map.mpr member
  | scheduleEvent identity kind atMs =>
      rw [apply]
      unfold scheduleEvent
      split
      · exact member
      · split
        · exact member
        · exact putEntry_keeps member
  | requestNow identity kind nowMs =>
      rw [apply]
      unfold requestNow
      split
      · exact member
      · exact putEntry_keeps member
  | markDirty identity kind nowMs =>
      rw [apply]
      unfold markDirty
      split
      · exact member
      · split
        · exact member
        · exact putEntry_keeps member
  | setAutomatic identity kind automatic =>
      rw [apply]
      unfold setAutomatic
      split
      · exact member
      · exact putEntry_keeps member
  | observePassiveQuota identity nowMs ageMs observedAtWallMs =>
      rw [apply]
      unfold observePassiveQuota
      split
      · exact member
      · split
        · exact member
        · split
          · exact member
          · exact putEntry_keeps member
  | deferUntil identity kind untilMs =>
      rw [apply]
      unfold deferUntil
      split
      · exact member
      · exact putEntry_keeps member
  | claimDue nowMs =>
      rcases claimDue_cases coordinator nowMs with same | ⟨_, _, -, -, -, -, same⟩
      · rw [apply, same]
        exact member
      · rw [apply, same]
        exact Std.ExtTreeMap.mem_insert.mpr (.inr member)
  | complete job outcome nowMs =>
      cases complete_cases coordinator job outcome nowMs with
      | unknown absent same => rwa [apply, same]
      | forged running found other same => rwa [apply, same]
      | retired running settledMs found own released same =>
          rw [apply, same]
          exact member
      | applied running settledMs nextDueMs refreshEntry found own waiting idle same =>
          rw [apply, same]
          exact putEntry_keeps member
  | invalidate identity =>
      obtain ⟨refreshEntry, found⟩ := mem_entries_iff.mp member
      refine mem_entries_iff.mpr ⟨refreshEntry, ?_⟩
      rw [apply]
      unfold invalidate
      rw [BTreeMap.lookup_filter, found]
      simpa [Option.filter, RefreshOperation.retires] using kept
  | removeKind identity kind =>
      obtain ⟨refreshEntry, found⟩ := mem_entries_iff.mp member
      refine mem_entries_iff.mpr ⟨refreshEntry, ?_⟩
      rw [apply]
      unfold removeKind
      rw [BTreeMap.lookup_erase, if_neg (by simpa [RefreshOperation.retires] using kept), found]

/-- The entry of `key` is registered, and its floor is at least `floorMs`. -/
def FlooredAt (key : RefreshKey) (floorMs : Nat) (coordinator : RefreshCoordinator) : Prop :=
  ∃ refreshEntry, coordinator.entries[key]? = some refreshEntry ∧ floorMs ≤ refreshEntry.notBeforeMs

theorem FlooredAt.apply {floorMs : Nat} (floored : coordinator.FlooredAt key floorMs)
    {operation : RefreshOperation} (kept : operation.retires key = false) :
    (coordinator.apply operation).FlooredAt key floorMs := by
  obtain ⟨refreshEntry, found, floor⟩ := floored
  obtain ⟨later, stored⟩ :=
    mem_entries_iff.mp (apply_keeps kept (mem_entries_iff.mpr ⟨refreshEntry, found⟩))
  exact ⟨later, stored, floor.trans ((apply_entry stored).edits found).floor⟩

theorem FlooredAt.run {floorMs : Nat} {operations : List RefreshOperation}
    (floored : coordinator.FlooredAt key floorMs)
    (kept : ∀ operation ∈ operations, operation.retires key = false) :
    (coordinator.run operations).FlooredAt key floorMs := by
  induction operations generalizing coordinator with
  | nil => exact floored
  | cons operation operations ih =>
      exact ih (floored.apply (kept operation (by simp)))
        fun other member => kept other (by simp [member])

/-- The three floors that a claim waits for. -/
theorem claimable_floors {refreshEntry : RefreshEntry} {nowMs : Nat}
    (claimable : coordinator.claimable key refreshEntry nowMs = true) :
    refreshEntry.notBeforeMs ≤ nowMs ∧ coordinator.nextStartMs ≤ nowMs ∧
      coordinator.originNextStart[refreshEntry.origin]?.getD 0 ≤ nowMs := by
  simp only [RefreshCoordinator.claimable, eligibleAt, Bool.and_eq_true, Option.any_map,
    Option.any_eq_true_iff_get, decide_eq_true_eq] at claimable
  obtain ⟨-, due, early⟩ := claimable
  omega

theorem FlooredAt.claim {floorMs claimMs : Nat} {job : RefreshJob}
    (floored : coordinator.FlooredAt job.key floorMs)
    (claims : (coordinator.claimDue claimMs).2 = some job) : floorMs ≤ claimMs := by
  obtain ⟨refreshEntry, found, floor⟩ := floored
  obtain ⟨claimed, stored, claimable, -, -⟩ := claimDue_started claims
  obtain rfl := Option.some.inj (found.symm.trans stored)
  exact floor.trans (claimable_floors claimable).1

/-! ## The spacing of starts -/

/-- Only traffic moves the start times and the class cursor. -/
theorem apply_spacing {operation : RefreshOperation} (quiet : operation.movesTraffic = false) :
    (coordinator.apply operation).nextStartMs = coordinator.nextStartMs ∧
      (coordinator.apply operation).originNextStart = coordinator.originNextStart ∧
      (coordinator.apply operation).classCursor = coordinator.classCursor := by
  have registered (identity : RefreshIdentity) (kind : RefreshKind) (origin : String) (nowMs : Nat)
      (active dueNow : Bool) :
      (coordinator.registerOrigin identity kind origin nowMs active dueNow).1.nextStartMs =
          coordinator.nextStartMs ∧
        (coordinator.registerOrigin identity kind origin nowMs active dueNow).1.originNextStart =
          coordinator.originNextStart ∧
        (coordinator.registerOrigin identity kind origin nowMs active dueNow).1.classCursor =
          coordinator.classCursor := by
    unfold registerOrigin
    dsimp only
    split <;> exact ⟨rfl, rfl, rfl⟩
  cases operation with
  | register identity kind nowMs active dueNow => exact registered ..
  | registerOrigin identity kind origin nowMs active dueNow => exact registered ..
  | scheduleAt identity kind dueAtMs active =>
      rw [apply]
      unfold scheduleAt
      dsimp only
      split
      · split <;> exact ⟨rfl, rfl, rfl⟩
      · split <;> exact registered ..
  | setActive identity active nowMs => exact ⟨rfl, rfl, rfl⟩
  | scheduleEvent identity kind atMs =>
      rw [apply]
      unfold scheduleEvent
      split
      · exact ⟨rfl, rfl, rfl⟩
      · split <;> exact ⟨rfl, rfl, rfl⟩
  | requestNow identity kind nowMs =>
      rw [apply]
      unfold requestNow
      split <;> exact ⟨rfl, rfl, rfl⟩
  | markDirty identity kind nowMs =>
      rw [apply]
      unfold markDirty
      split
      · exact ⟨rfl, rfl, rfl⟩
      · split <;> exact ⟨rfl, rfl, rfl⟩
  | setAutomatic identity kind automatic =>
      rw [apply]
      unfold setAutomatic
      split <;> exact ⟨rfl, rfl, rfl⟩
  | observePassiveQuota identity nowMs ageMs observedAtWallMs =>
      rw [apply]
      unfold observePassiveQuota
      split
      · exact ⟨rfl, rfl, rfl⟩
      · split
        · exact ⟨rfl, rfl, rfl⟩
        · split <;> exact ⟨rfl, rfl, rfl⟩
  | deferUntil identity kind untilMs =>
      rw [apply]
      unfold deferUntil
      split <;> exact ⟨rfl, rfl, rfl⟩
  | claimDue nowMs => cases quiet
  | complete job outcome nowMs => cases quiet
  | invalidate identity => cases quiet
  | removeKind identity kind => cases quiet

/-- The earliest start that is still remembered for an origin. -/
def originStart (coordinator : RefreshCoordinator) (origin : String) : Nat :=
  coordinator.originNextStart[origin]?.getD 0

/-- What an operation does to the start times: nothing, forget those that have elapsed, or
set them for one claim. -/
inductive SpacingCase (before : RefreshCoordinator) (operation : RefreshOperation)
    (after : RefreshCoordinator) : Prop where
  | kept (start : after.nextStartMs = before.nextStartMs)
      (origins : after.originNextStart = before.originNextStart)
  | settled (job : RefreshJob) (outcome : RefreshOutcome) (nowMs : Nat)
      (same : operation = .complete job outcome nowMs)
      (start : after.nextStartMs = before.nextStartMs)
      (origins : ∀ origin, after.originStart origin = before.originStart origin ∨
        before.originStart origin ≤ nowMs)
  | claimed (key : RefreshKey) (refreshEntry : RefreshEntry) (nowMs : Nat)
      (same : operation = .claimDue nowMs)
      (claimable : before.claimable key refreshEntry nowMs = true)
      (start : after.nextStartMs = saturatingAdd u64Max nowMs before.limits.startSpacingMs)
      (origins : ∀ origin, after.originStart origin =
        if origin = refreshEntry.origin then
          saturatingAdd u64Max nowMs before.limits.originSpacingMs
        else before.originStart origin)

/-- A forgotten start has elapsed. -/
private theorem pruneOrigins_originStart (coordinator : RefreshCoordinator) (nowMs : Nat)
    (origin : String) :
    (coordinator.pruneOrigins nowMs).originStart origin = coordinator.originStart origin ∨
      coordinator.originStart origin ≤ nowMs := by
  unfold originStart pruneOrigins
  dsimp only
  rw [BTreeMap.lookup_filter]
  cases stored : coordinator.originNextStart[origin]? with
  | none => exact .inl rfl
  | some atMs =>
      by_cases elapsed : atMs ≤ nowMs
      · exact .inr elapsed
      · refine .inl ?_
        simp [Option.filter, Nat.lt_of_not_le elapsed]

theorem startJob_originStart (coordinator : RefreshCoordinator) (key : RefreshKey)
    (refreshEntry : RefreshEntry) (nowMs : Nat) (origin : String) :
    (coordinator.startJob key refreshEntry nowMs).1.originStart origin =
      if origin = refreshEntry.origin then
        saturatingAdd u64Max nowMs coordinator.limits.originSpacingMs
      else coordinator.originStart origin := by
  unfold originStart startJob
  dsimp only
  rw [BTreeMap.lookup_insert]
  split <;> rfl

theorem apply_spacingCase (coordinator : RefreshCoordinator) (operation : RefreshOperation) :
    SpacingCase coordinator operation (coordinator.apply operation) := by
  by_cases quiet : operation.movesTraffic = false
  · exact .kept (apply_spacing quiet).1 (apply_spacing quiet).2.1
  cases operation with
  | claimDue nowMs =>
      cases claims : (coordinator.claimDue nowMs).2 with
      | none =>
          rcases claimDue_cases coordinator nowMs with same | ⟨_, _, -, -, -, -, same⟩
          · rw [apply, same]
            exact .kept rfl rfl
          · rw [same] at claims
            cases claims
      | some job =>
          obtain ⟨refreshEntry, -, claimable, same, -⟩ := claimDue_started claims
          rw [apply, same]
          exact .claimed job.key refreshEntry nowMs rfl claimable rfl
            (startJob_originStart coordinator job.key refreshEntry nowMs)
  | complete job outcome nowMs =>
      rw [apply]
      have pruned := pruneOrigins_originStart
        { coordinator with jobs := coordinator.jobs.erase job.id } nowMs
      unfold complete
      split
      · exact .kept rfl rfl
      split
      · exact .kept rfl rfl
      dsimp only
      split
      · exact .settled job outcome nowMs rfl rfl pruned
      · split
        · exact .settled job outcome nowMs rfl rfl pruned
        · exact .settled job outcome nowMs rfl rfl pruned
  | invalidate identity => exact .kept rfl rfl
  | removeKind identity kind => exact .kept rfl rfl
  | _ => exact absurd rfl quiet

/-- Each claim waits for the start time it raises. -/
private theorem SpacingCase.start_kept {operation : RefreshOperation} {later : RefreshCoordinator}
    {floorMs : Nat} (spacing : SpacingCase coordinator operation later) (bounded : floorMs ≤ u64Max)
    (floored : floorMs ≤ coordinator.nextStartMs) : floorMs ≤ later.nextStartMs := by
  cases spacing with
  | kept start origins => rwa [start]
  | settled job outcome nowMs same start origins => rwa [start]
  | claimed key refreshEntry nowMs same claimable start origins =>
      have waited := floored.trans (claimable_floors claimable).2.1
      rw [start]
      exact Nat.le_min.mpr ⟨waited.trans (Nat.le_add_right _ _), bounded⟩

private theorem run_start_kept {floorMs : Nat} (bounded : floorMs ≤ u64Max)
    (floored : floorMs ≤ coordinator.nextStartMs) (operations : List RefreshOperation) :
    floorMs ≤ (coordinator.run operations).nextStartMs :=
  Execution.run_invariant (fun state : RefreshCoordinator => floorMs ≤ state.nextStartMs)
    (fun state operation kept => (apply_spacingCase state operation).start_kept bounded kept)
    floored operations

end RefreshCoordinator

/-- The clock reading by which an operation forgets or waits for elapsed starts. -/
def RefreshOperation.clockMs : RefreshOperation → Option Nat
  | .claimDue nowMs => some nowMs
  | .complete _ _ nowMs => some nowMs
  | _ => none

namespace RefreshCoordinator

variable {coordinator : RefreshCoordinator} {key : RefreshKey}

/-- The start time of an origin is kept until a reading of the clock has passed it, so a
later claim of that origin is no earlier. -/
private theorem origin_claim {operations : List RefreshOperation} {origin : String}
    {floorMs claimMs : Nat} {job : RefreshJob} {refreshEntry : RefreshEntry}
    (bounded : floorMs ≤ u64Max) (floored : floorMs ≤ coordinator.originStart origin)
    (ordered : (operations.filterMap RefreshOperation.clockMs ++ [claimMs]).Pairwise (· ≤ ·))
    (claims : ((coordinator.run operations).claimDue claimMs).2 = some job)
    (found : (coordinator.run operations).entries[job.key]? = some refreshEntry)
    (own : refreshEntry.origin = origin) : floorMs ≤ claimMs := by
  induction operations generalizing coordinator with
  | nil =>
      obtain ⟨claimed, stored, claimable, -, -⟩ := claimDue_started claims
      obtain rfl := Option.some.inj (Eq.trans (Eq.symm found) stored)
      subst own
      exact floored.trans (claimable_floors claimable).2.2
  | cons operation operations ih =>
      have rest : (operations.filterMap RefreshOperation.clockMs ++ [claimMs]).Pairwise (· ≤ ·) := by
        rw [List.filterMap_cons] at ordered
        split at ordered
        · exact ordered
        · exact (List.pairwise_cons.mp ordered).2
      have continues (kept : floorMs ≤ (coordinator.apply operation).originStart origin) :=
        ih kept rest claims found
      cases apply_spacingCase coordinator operation with
      | kept start origins =>
          refine continues ?_
          rwa [originStart, origins]
      | settled settledJob outcome nowMs same start origins =>
          rcases origins origin with kept | elapsed
          · exact continues (kept ▸ floored)
          · subst same
            have readings := (List.pairwise_cons.mp ordered).1 claimMs (by simp)
            exact floored.trans (elapsed.trans readings)
      | claimed claimedKey started nowMs same claimable start origins =>
          refine continues ?_
          rw [origins]
          split
          next shared =>
            subst shared
            have waited := floored.trans (claimable_floors claimable).2.2
            exact Nat.le_min.mpr ⟨waited.trans (Nat.le_add_right _ _), bounded⟩
          · exact floored

/-! ## What a claim respects -/

/-- The floors under a claim that ends a run. `later startMs gapMs` is the first time that
counts as `gapMs` after `startMs`. -/
structure FloorsHold (later : Nat → Nat → Nat) (start : RefreshCoordinator)
    (operations : List RefreshOperation) (claimMs : Nat) (claimed : RefreshJob) : Prop where
  deferred : ∀ before untilMs during,
    operations = before ++ .deferUntil claimed.identity claimed.kind untilMs :: during →
    claimed.key ∈ (start.run before).entries →
    (∀ operation ∈ during, operation.retires claimed.key = false) → untilMs ≤ claimMs
  retried : ∀ before job atMs nowMs nextDueMs during,
    operations = before ++ .complete job (.failedRetryAt atMs) nowMs :: during →
    job.key = claimed.key →
    ((start.run before).complete job (.failedRetryAt atMs) nowMs).2 = .applied nextDueMs →
    (∀ operation ∈ during, operation.retires claimed.key = false) → atMs ≤ claimMs
  completed : ∀ before job outcome nowMs nextDueMs during,
    operations = before ++ .complete job outcome nowMs :: during → job.key = claimed.key →
    ((start.run before).complete job outcome nowMs).2 = .applied nextDueMs →
    (∀ operation ∈ during, operation.retires claimed.key = false) →
      later nowMs start.limits.minimumIntervalMs ≤ claimMs
  started : ∀ before firstMs first during, operations = before ++ .claimDue firstMs :: during →
    ((start.run before).claimDue firstMs).2 = some first →
      later firstMs start.limits.startSpacingMs ≤ claimMs
  origin : ∀ before firstMs first during firstEntry claimedEntry,
    operations = before ++ .claimDue firstMs :: during →
    ((start.run before).claimDue firstMs).2 = some first →
    (start.run before).entries[first.key]? = some firstEntry →
    (start.run operations).entries[claimed.key]? = some claimedEntry →
    firstEntry.origin = claimedEntry.origin →
    (during.filterMap RefreshOperation.clockMs ++ [claimMs]).Pairwise (· ≤ ·) →
      later firstMs start.limits.originSpacingMs ≤ claimMs

private theorem deferUntil_floored {identity : RefreshIdentity} {kind : RefreshKind} {untilMs : Nat}
    (member : RefreshKey.mk identity kind ∈ coordinator.entries) :
    (coordinator.apply (.deferUntil identity kind untilMs)).FlooredAt ⟨identity, kind⟩ untilMs := by
  obtain ⟨refreshEntry, found⟩ := mem_entries_iff.mp member
  refine ⟨{ refreshEntry with notBeforeMs := max refreshEntry.notBeforeMs untilMs }, ?_,
    Nat.le_max_right _ _⟩
  rw [apply, deferUntil, found]
  unfold putEntry
  rw [BTreeMap.lookup_insert, if_pos rfl]

theorem complete_floored (invariant : coordinator.TrafficInvariant) {job : RefreshJob}
    {outcome : RefreshOutcome} {nowMs : Nat} {nextDueMs : Option Nat}
    (applied : (coordinator.complete job outcome nowMs).2 = .applied nextDueMs) :
    (coordinator.apply (.complete job outcome nowMs)).FlooredAt job.key
        (saturatingAdd u64Max nowMs coordinator.limits.minimumIntervalMs) ∧
      ∀ atMs, outcome = .failedRetryAt atMs →
        (coordinator.apply (.complete job outcome nowMs)).FlooredAt job.key atMs := by
  cases complete_cases coordinator job outcome nowMs with
  | unknown absent same => rw [same] at applied; cases applied
  | forged running found other same => rw [same] at applied; cases applied
  | retired running settledMs found own released same => rw [same] at applied; cases applied
  | applied running settledMs dueMs later found own waiting idle same =>
      obtain ⟨refreshEntry, stored, waits⟩ := inFlightJob_eq_some.mp waiting
      have settled := (complete_waiting invariant stored waits outcome nowMs).2
      have floor := RefreshEntry.settle_floor refreshEntry job.kind
        coordinator.limits.minimumIntervalMs nowMs outcome
      exact ⟨⟨_, settled, (Nat.le_max_right _ _).trans floor.1⟩,
        fun atMs retry => ⟨_, settled, floor.2 atMs retry⟩⟩

/-- A provider floor is never bypassed, and neither is the spacing of claims. -/
theorem floors_hold {limits : RefreshLimits} {start : RefreshCoordinator}
    (accepted : RefreshCoordinator.new limits = .ok start) (operations : List RefreshOperation)
    (claimMs : Nat) (claimed : RefreshJob)
    (claims : ((start.run operations).claimDue claimMs).2 = some claimed) :
    FloorsHold (saturatingAdd u64Max) start operations claimMs claimed := by
  have invariant (before : List RefreshOperation) : (start.run before).TrafficInvariant :=
    Execution.run_invariant TrafficInvariant (fun _ operation holds => holds.apply operation)
      (new_traffic accepted).2.1 before
  have splits (before during : List RefreshOperation) (operation : RefreshOperation) :
      start.run (before ++ operation :: during) = ((start.run before).apply operation).run during :=
    Execution.run_append ..
  have spaced (before : List RefreshOperation) (firstMs : Nat) (first : RefreshJob)
      (starts : ((start.run before).claimDue firstMs).2 = some first) :
      ∃ refreshEntry, (start.run before).entries[first.key]? = some refreshEntry ∧
        ((start.run before).apply (.claimDue firstMs)).nextStartMs =
          saturatingAdd u64Max firstMs start.limits.startSpacingMs ∧
        ((start.run before).apply (.claimDue firstMs)).originStart refreshEntry.origin =
          saturatingAdd u64Max firstMs start.limits.originSpacingMs := by
    obtain ⟨refreshEntry, found, -, same, -⟩ := claimDue_started starts
    refine ⟨refreshEntry, found, ?_, ?_⟩
    · rw [apply, same, ← run_limits start before]
      rfl
    · rw [apply, same, startJob_originStart, if_pos rfl, run_limits]
  constructor
  · rintro before untilMs during rfl member kept
    rw [splits] at claims
    exact ((deferUntil_floored member).run kept).claim claims
  · rintro before job atMs nowMs nextDueMs during rfl own applied kept
    rw [splits] at claims
    have floored := (complete_floored (invariant before) applied).2 atMs rfl
    rw [own] at floored
    exact (floored.run kept).claim claims
  · rintro before job outcome nowMs nextDueMs during rfl own applied kept
    rw [splits] at claims
    have floored := (complete_floored (invariant before) applied).1
    rw [own, run_limits] at floored
    exact (floored.run kept).claim claims
  · rintro before firstMs first during rfl starts
    obtain ⟨_, -, nextStart, -⟩ := spaced before firstMs first starts
    rw [splits] at claims
    obtain ⟨_, -, claimable, -, -⟩ := claimDue_started claims
    exact (run_start_kept (saturatingAdd_le _ _ _) nextStart.ge during).trans
      (claimable_floors claimable).2.1
  · rintro before firstMs first during firstEntry claimedEntry rfl starts found stored shared ordered
    obtain ⟨refreshEntry, held, -, originStart⟩ := spaced before firstMs first starts
    obtain rfl := Option.some.inj (Eq.trans (Eq.symm held) found)
    rw [splits] at claims stored
    exact origin_claim (saturatingAdd_le _ _ _) originStart.ge ordered claims stored shared.symm

theorem floors_hold_after_deferral : ∃ start, RefreshCoordinator.new .default = .ok start ∧
    start.FloorsHold (saturatingAdd u64Max)
      [.register ⟨"account:test", 1, 1⟩ .quota 0 true true, .claimDue 0,
        .deferUntil ⟨"account:test", 1, 1⟩ .quota 5000,
        .complete ⟨1, ⟨"account:test", 1, 1⟩, .quota, 0, false⟩ .success 10,
        .requestNow ⟨"account:test", 1, 1⟩ .quota 20] 6000
      ⟨2, ⟨"account:test", 1, 1⟩, .quota, 5000, true⟩ :=
  ⟨_, rfl, @floors_hold .default _ rfl _ _ _ (by decide +kernel)⟩

/-- At the end of the clock's range the floors saturate, and a claim follows a completion by
less than the minimum interval. -/
theorem saturated_interval_bypassed : ∃ start operations claimMs claimed,
    RefreshCoordinator.new .default = .ok start ∧
    ((start.run operations).claimDue claimMs).2 = some claimed ∧
    ¬start.FloorsHold (· + ·) operations claimMs claimed := by
  refine ⟨_, [.register ⟨"account:test", 1, 1⟩ .quota 0 true true, .claimDue 0,
    .complete ⟨1, ⟨"account:test", 1, 1⟩, .quota, 0, false⟩ .success (u64Max - 1),
    .requestNow ⟨"account:test", 1, 1⟩ .quota (u64Max - 1)], u64Max,
    ⟨2, ⟨"account:test", 1, 1⟩, .quota, u64Max, true⟩, rfl, by decide +kernel, fun holds => ?_⟩
  have applied := holds.completed
    [.register ⟨"account:test", 1, 1⟩ .quota 0 true true, .claimDue 0]
    ⟨1, ⟨"account:test", 1, 1⟩, .quota, 0, false⟩ .success (u64Max - 1) (some u64Max)
    [.requestNow ⟨"account:test", 1, 1⟩ .quota (u64Max - 1)] rfl rfl (by decide +kernel)
    (by decide)
  revert applied
  decide

end RefreshCoordinator

end ZenithRelay.Scheduler.Refresh
