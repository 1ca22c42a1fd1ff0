import ZenithRelay.Scheduler.Refresh.FloorProperties

/-!
# No class starves

The class order is a weighted round robin: a served class moves the cursor past the
first of its slots, so the distance of every other class that was also due shrinks.
-/

set_option autoImplicit false

namespace ZenithRelay.Scheduler.Refresh

theorem mem_classOrder (kind : RefreshKind) : kind ∈ classOrder := by
  cases kind <;> decide

/-- `classDistance` as a function of the cursor alone. -/
def distanceFrom (cursor : Nat) (kind : RefreshKind) : Nat :=
  ((List.range classOrder.length).find? fun offset =>
    classOrder[(cursor + offset) % classOrder.length]? = some kind).getD classOrder.length

theorem distanceFrom_mod (cursor : Nat) (kind : RefreshKind) :
    distanceFrom cursor kind = distanceFrom (cursor % classOrder.length) kind := by
  unfold distanceFrom
  simp only [Nat.mod_add_mod]

/-- Every class has a slot within one turn of the order. -/
private theorem distanceFrom_lt (cursor : Nat) (kind : RefreshKind) :
    distanceFrom cursor kind < classOrder.length := by
  have table : ∀ place ∈ List.range classOrder.length, ∀ kind ∈ classOrder,
      distanceFrom place kind < classOrder.length := by decide +kernel
  rw [distanceFrom_mod]
  exact table _ (List.mem_range.mpr (Nat.mod_lt _ (by decide))) kind (mem_classOrder kind)

/-- Serving one class brings every other that was not nearer strictly closer. -/
private theorem distanceFrom_served (cursor : Nat) {served kind : RefreshKind} (other : served ≠ kind)
    (nearest : distanceFrom cursor served ≤ distanceFrom cursor kind) :
    distanceFrom ((cursor + distanceFrom cursor served + 1) % classOrder.length) kind <
      distanceFrom cursor kind := by
  have table : ∀ place ∈ List.range classOrder.length, ∀ served ∈ classOrder, ∀ kind ∈ classOrder,
      served ≠ kind → distanceFrom place served ≤ distanceFrom place kind →
        distanceFrom ((place + distanceFrom place served + 1) % classOrder.length) kind <
          distanceFrom place kind := by decide +kernel
  rw [distanceFrom_mod cursor served, distanceFrom_mod cursor kind] at nearest ⊢
  have moved := table (cursor % classOrder.length)
    (List.mem_range.mpr (Nat.mod_lt _ (by decide))) served (mem_classOrder served) kind
    (mem_classOrder kind) other nearest
  rwa [Nat.add_assoc, Nat.mod_add_mod, ← Nat.add_assoc] at moved

namespace RefreshCoordinator

variable {coordinator : RefreshCoordinator}

theorem classDistance_eq (coordinator : RefreshCoordinator) (kind : RefreshKind) :
    coordinator.classDistance kind = distanceFrom coordinator.classCursor kind := rfl

/-- The claimed class is the nearest of those that could have been claimed. -/
private theorem claimDue_nearest {nowMs : Nat} {job : RefreshJob}
    (claims : (coordinator.claimDue nowMs).2 = some job) {key : RefreshKey}
    {refreshEntry : RefreshEntry} (found : coordinator.entries[key]? = some refreshEntry)
    (claimable : coordinator.claimable key refreshEntry nowMs = true) :
    coordinator.classDistance job.kind ≤ coordinator.classDistance key.kind := by
  unfold claimDue at claims
  split at claims
  · cases claims
  next claimedKey claimed next =>
    split at claims
    · cases claims
    obtain rfl := Option.some.inj claims
    have member : (key, refreshEntry) ∈ coordinator.entries.toList.filter fun entry =>
        coordinator.claimable entry.1 entry.2 nowMs :=
      List.mem_filter.mpr ⟨BTreeMap.mem_toList_iff.mpr found, claimable⟩
    have ranked := Selection.minBy_dominates next _ member
    have first : (compare (coordinator.classDistance claimedKey.kind)
        (coordinator.classDistance key.kind)).isLE := by
      revert ranked
      simp only [compareOn, claimRank]
      generalize coordinator.classDistance claimedKey.kind = left
      generalize coordinator.classDistance key.kind = right
      intro ranked
      change ((compare left right).then _).isLE at ranked
      cases order : compare left right <;> simp_all
    exact Nat.isLE_compare.mp first

/-- The class of the job that an operation returns. -/
def served (coordinator : RefreshCoordinator) : RefreshOperation → Option RefreshKind
  | .claimDue nowMs => (coordinator.claimDue nowMs).2.map RefreshJob.kind
  | _ => none

theorem served_eq_some {operation : RefreshOperation} {kind : RefreshKind}
    (serves : coordinator.served operation = some kind) :
    ∃ nowMs job, operation = .claimDue nowMs ∧ (coordinator.claimDue nowMs).2 = some job ∧
      job.kind = kind := by
  cases operation with
  | claimDue nowMs =>
      obtain ⟨job, claims, same⟩ := Option.map_eq_some_iff.mp serves
      exact ⟨nowMs, job, rfl, claims, same⟩
  | _ => cases serves

/-- An entry of the class could be claimed whenever a claim returns a job. -/
def Offered (kind : RefreshKind) (coordinator : RefreshCoordinator) (operation : RefreshOperation) :
    Prop :=
  ∀ nowMs job, operation = .claimDue nowMs → (coordinator.claimDue nowMs).2 = some job →
    ∃ key refreshEntry, coordinator.entries[key]? = some refreshEntry ∧ key.kind = kind ∧
      coordinator.claimable key refreshEntry nowMs = true

private theorem apply_classCursor {operation : RefreshOperation}
    (silent : coordinator.served operation = none) :
    (coordinator.apply operation).classCursor = coordinator.classCursor := by
  by_cases quiet : operation.movesTraffic = false
  · exact (apply_spacing quiet).2.2
  cases operation with
  | claimDue nowMs =>
      rcases claimDue_cases coordinator nowMs with same | ⟨_, _, -, -, -, -, same⟩
      · rw [apply, same]
      · rw [served, same] at silent
        cases silent
  | complete job outcome nowMs =>
      cases complete_cases coordinator job outcome nowMs with
      | unknown absent same => rw [apply, same]
      | forged running found other same => rw [apply, same]
      | retired running settledMs found own released same => rw [apply, same]; rfl
      | applied running settledMs nextDueMs refreshEntry found own waiting idle same =>
          rw [apply, same]; rfl
  | invalidate identity => rfl
  | removeKind identity kind => rfl
  | _ => exact absurd rfl quiet

/-- What serving a class does to the distance of another. -/
private theorem apply_classDistance {operation : RefreshOperation} {kind other : RefreshKind}
    (serves : coordinator.served operation = some other) (different : other ≠ kind)
    (offered : coordinator.Offered kind operation) :
    (coordinator.apply operation).classDistance kind < coordinator.classDistance kind := by
  obtain ⟨nowMs, job, rfl, claims, rfl⟩ := served_eq_some serves
  obtain ⟨key, refreshEntry, found, rfl, claimable⟩ := offered nowMs job rfl claims
  have nearest := claimDue_nearest claims found claimable
  obtain ⟨_, -, -, same, -⟩ := claimDue_started claims
  rw [apply, same]
  exact distanceFrom_served coordinator.classCursor different nearest

/-- The classes that the claims of a run serve, in order. -/
def servedKinds : RefreshCoordinator → List RefreshOperation → List RefreshKind :=
  Execution.trace apply served

private theorem served_within {kind : RefreshKind} {operations : List RefreshOperation}
    (offered : Execution.Along apply (Offered kind) coordinator operations)
    (enough : coordinator.classDistance kind < (coordinator.servedKinds operations).length) :
    kind ∈ (coordinator.servedKinds operations).take (coordinator.classDistance kind + 1) := by
  induction operations generalizing coordinator with
  | nil => cases enough
  | cons operation operations ih =>
      rw [servedKinds, Execution.trace] at enough ⊢
      cases serves : coordinator.served operation with
      | none =>
          rw [serves] at enough
          have same : (coordinator.apply operation).classDistance kind =
              coordinator.classDistance kind := by
            rw [classDistance_eq, classDistance_eq, apply_classCursor serves]
          rw [← same] at enough ⊢
          exact ih offered.2 enough
      | some other =>
          rw [serves] at enough
          by_cases own : other = kind
          · subst own
            exact List.mem_cons_self ..
          · have closer := apply_classDistance serves own offered.1
            simp only [Option.toList_some, List.cons_append, List.nil_append,
              List.length_cons] at enough
            have later := ih offered.2 (by unfold servedKinds; omega)
            refine List.mem_cons_of_mem _ ?_
            exact (List.take_subset_take_left _ closer) later

/-! ## When the next job can be claimed -/

/-- The entries that only a time still keeps from being claimed. -/
def Startable (coordinator : RefreshCoordinator) (key : RefreshKey) (refreshEntry : RefreshEntry) :
    Prop :=
  refreshEntry.inFlight = none ∧ refreshEntry.unsupported = false ∧
    coordinator.capacityAvailable refreshEntry key.kind = true

theorem claimable_iff {key : RefreshKey} {refreshEntry : RefreshEntry} {nowMs : Nat} :
    coordinator.claimable key refreshEntry nowMs = true ↔
      coordinator.Startable key refreshEntry ∧
        ∃ atMs, coordinator.eligibleAt refreshEntry = some atMs ∧ atMs ≤ nowMs := by
  unfold claimable Startable
  cases coordinator.eligibleAt refreshEntry with
  | none => simp
  | some atMs => simp [and_assoc]

private theorem claimDue_isSome_iff (available : coordinator.nextJobId < u64Max) {nowMs : Nat} :
    (∃ job, (coordinator.claimDue nowMs).2 = some job) ↔
      ∃ (key : RefreshKey) (refreshEntry : RefreshEntry),
        coordinator.entries[key]? = some refreshEntry ∧
          coordinator.claimable key refreshEntry nowMs = true := by
  constructor
  · rintro ⟨job, claims⟩
    obtain ⟨refreshEntry, found, claimable, -, -⟩ := claimDue_started claims
    exact ⟨job.key, refreshEntry, found, claimable⟩
  · rintro ⟨key, refreshEntry, found, claimable⟩
    have member : (key, refreshEntry) ∈ coordinator.entries.toList.filter fun entry =>
        coordinator.claimable entry.1 entry.2 nowMs :=
      List.mem_filter.mpr ⟨BTreeMap.mem_toList_iff.mpr found, claimable⟩
    obtain ⟨⟨claimedKey, claimed⟩, next⟩ : ∃ entry, coordinator.nextClaim nowMs = some entry :=
      Selection.minBy_isSome (List.ne_nil_of_mem member)
    refine ⟨(coordinator.startJob claimedKey claimed nowMs).2, ?_⟩
    unfold claimDue
    rw [next]
    dsimp only
    rw [if_neg (Nat.not_le_of_lt available)]

theorem mem_wakes_iff {atMs : Nat} :
    atMs ∈ ((coordinator.entries.toList.filter fun entry =>
        entry.2.inFlight.isNone && !entry.2.unsupported &&
          coordinator.capacityAvailable entry.2 entry.1.kind).filterMap fun entry =>
      coordinator.eligibleAt entry.2) ↔
      ∃ (key : RefreshKey) (refreshEntry : RefreshEntry),
        coordinator.entries[key]? = some refreshEntry ∧
          coordinator.Startable key refreshEntry ∧
            coordinator.eligibleAt refreshEntry = some atMs := by
  simp only [List.mem_filterMap, List.mem_filter, Prod.exists, BTreeMap.mem_toList_iff, Startable,
    Bool.and_eq_true, Option.isNone_iff_eq_none, Bool.not_eq_true', and_assoc]

/-- The wake time is the first time at which a claim returns a job. -/
private theorem claimDue_iff_nextWake (available : coordinator.nextJobId < u64Max) (nowMs : Nat) :
    (∃ job, (coordinator.claimDue nowMs).2 = some job) ↔
      ∃ wakeMs, coordinator.nextWake = some wakeMs ∧ wakeMs ≤ nowMs := by
  rw [claimDue_isSome_iff available]
  unfold nextWake
  constructor
  · rintro ⟨key, refreshEntry, found, claimable⟩
    obtain ⟨startable, atMs, eligible, early⟩ := claimable_iff.mp claimable
    have member := mem_wakes_iff.mpr ⟨key, refreshEntry, found, startable, eligible⟩
    obtain ⟨wakeMs, first⟩ := Option.isSome_iff_exists.mp (List.isSome_min?_of_mem member)
    exact ⟨wakeMs, first, ((List.min?_eq_some_iff.mp first).2 atMs member).trans early⟩
  · rintro ⟨wakeMs, first, early⟩
    obtain ⟨key, refreshEntry, found, startable, eligible⟩ :=
      mem_wakes_iff.mp (List.min?_mem first)
    exact ⟨key, refreshEntry, found, claimable_iff.mpr ⟨startable, wakeMs, eligible, early⟩⟩

/-- Limits that leave capacity for ordinary work. -/
structure ValidLimits (limits : RefreshLimits) : Prop where
  concurrent : limits.reservedAuth < limits.concurrent
  perOrigin : limits.reservedAuth < limits.perOrigin

private theorem new_validLimits {limits : RefreshLimits} {start : RefreshCoordinator}
    (accepted : RefreshCoordinator.new limits = .ok start) : ValidLimits start.limits := by
  rw [(new_traffic accepted).1]
  unfold RefreshCoordinator.new at accepted
  split at accepted
  · cases accepted
  next valid =>
    constructor <;> omega

/-- With nothing running there is room for every entry. -/
private theorem capacityAvailable_of_idle (valid : ValidLimits coordinator.limits)
    (idle : ∀ jobId : RefreshJobId, coordinator.jobs[jobId]? = none) (refreshEntry : RefreshEntry)
    (kind : RefreshKind) : coordinator.capacityAvailable refreshEntry kind = true := by
  have empty : coordinator.jobs = ∅ := by
    refine Std.ExtTreeMap.ext_getElem? fun jobId => ?_
    rw [idle jobId, Std.ExtTreeMap.getElem?_empty]
  have none (charged : RunningJob → Bool) : coordinator.runningCount charged = 0 := by
    rw [runningCount, empty]
    rfl
  have size : coordinator.jobs.size = 0 := by
    rw [empty]
    rfl
  obtain ⟨concurrent, perOrigin⟩ := valid
  unfold capacityAvailable
  simp only [none, size]
  rw [if_neg (by omega)]
  split
  · rfl
  · simp only [decide_eq_true_eq]
    omega

private theorem running_of_no_wake (valid : ValidLimits coordinator.limits)
    (asleep : coordinator.nextWake = none) {key : RefreshKey} {refreshEntry : RefreshEntry}
    (found : coordinator.entries[key]? = some refreshEntry)
    (idle : refreshEntry.inFlight = none) (supported : refreshEntry.unsupported = false)
    (due : refreshEntry.nextDueMs.isSome) :
    ∃ (jobId : RefreshJobId) (running : RunningJob), coordinator.jobs[jobId]? = some running := by
  by_contra unused
  have room := capacityAvailable_of_idle valid (fun jobId => by
    cases runs : coordinator.jobs[jobId]? with
    | none => rfl
    | some running => exact absurd ⟨jobId, running, runs⟩ unused) refreshEntry key.kind
  obtain ⟨dueMs, same⟩ := Option.isSome_iff_exists.mp due
  have member := mem_wakes_iff.mpr
    ⟨key, refreshEntry, found, ⟨idle, supported, room⟩, by rw [eligibleAt, same]; rfl⟩
  unfold nextWake at asleep
  rw [List.min?_eq_none_iff] at asleep
  rw [asleep] at member
  cases member

/-- No class starves, and the wake time says when a claim returns a job. -/
theorem no_class_starves {limits : RefreshLimits} {start : RefreshCoordinator}
    (accepted : RefreshCoordinator.new limits = .ok start) (before : List RefreshOperation) :
    (∀ kind operations, Execution.Along apply (Offered kind) (start.run before) operations →
      8 ≤ ((start.run before).servedKinds operations).length →
        kind ∈ ((start.run before).servedKinds operations).take 8) ∧
    ((start.run before).nextJobId < u64Max → ∀ nowMs,
      (∃ job, ((start.run before).claimDue nowMs).2 = some job) ↔
        ∃ wakeMs, (start.run before).nextWake = some wakeMs ∧ wakeMs ≤ nowMs) ∧
    ∀ (key : RefreshKey) (refreshEntry : RefreshEntry),
      (start.run before).entries[key]? = some refreshEntry → refreshEntry.inFlight = none →
      refreshEntry.unsupported = false → refreshEntry.nextDueMs.isSome →
      (start.run before).nextWake = none →
        ∃ (jobId : RefreshJobId) (running : RunningJob),
          (start.run before).jobs[jobId]? = some running := by
  refine ⟨fun kind operations offered eight => ?_, claimDue_iff_nextWake, ?_⟩
  · have near : (start.run before).classDistance kind < 8 := distanceFrom_lt _ kind
    exact List.take_subset_take_left _ near (served_within offered (by omega))
  · intro key refreshEntry found idle supported due asleep
    have valid := new_validLimits accepted
    rw [← run_limits start before] at valid
    exact running_of_no_wake valid asleep found idle supported due

/-- The classes of which an entry could be claimed. -/
def claimableKinds (coordinator : RefreshCoordinator) (nowMs : Nat) : List RefreshKind :=
  (coordinator.entries.toList.filter fun entry =>
    coordinator.claimable entry.1 entry.2 nowMs).map (·.1.kind)

private theorem mem_claimableKinds_iff {kind : RefreshKind} {nowMs : Nat} :
    kind ∈ coordinator.claimableKinds nowMs ↔
      ∃ (key : RefreshKey) (refreshEntry : RefreshEntry),
        coordinator.entries[key]? = some refreshEntry ∧ key.kind = kind ∧
          coordinator.claimable key refreshEntry nowMs = true := by
  simp only [claimableKinds, List.mem_map, List.mem_filter, Prod.exists, BTreeMap.mem_toList_iff]
  constructor
  · rintro ⟨key, refreshEntry, ⟨found, claimable⟩, same⟩
    exact ⟨key, refreshEntry, found, same, claimable⟩
  · rintro ⟨key, refreshEntry, found, same, claimable⟩
    exact ⟨key, refreshEntry, ⟨found, claimable⟩, same⟩

def claimTime : RefreshOperation → Option Nat
  | .claimDue nowMs => some nowMs
  | _ => none

private theorem offered_iff {kind : RefreshKind} {operation : RefreshOperation} :
    coordinator.Offered kind operation ↔
      ∀ nowMs ∈ claimTime operation, (coordinator.served operation).isSome →
        kind ∈ coordinator.claimableKinds nowMs := by
  constructor
  · intro offered nowMs claims serves
    obtain ⟨served, serves⟩ := Option.isSome_iff_exists.mp serves
    obtain ⟨claimedMs, job, rfl, returns, -⟩ := served_eq_some serves
    obtain rfl := Option.some.inj claims
    exact mem_claimableKinds_iff.mpr (offered claimedMs job rfl returns)
  · rintro offers nowMs job rfl returns
    refine mem_claimableKinds_iff.mp (offers nowMs rfl ?_)
    rw [served, returns]
    rfl

instance decidableOffered (kind : RefreshKind) (operation : RefreshOperation) :
    Decidable (coordinator.Offered kind operation) :=
  decidable_of_iff _ offered_iff.symm

/-- Three classes of one account compete for every claim: the one with a single slot is
served in its turn. -/
theorem no_class_starves_competing :
    let identity : RefreshIdentity := ⟨"account:test", 1, 1⟩
    let classes : List RefreshKind := [.auth, .quota, .prices]
    let turns : List RefreshKind := [.auth, .quota, .auth, .quota, .prices, .auth, .quota, .auth]
    let operations : List RefreshOperation := turns.zipIdx.flatMap fun turn =>
      classes.map (.requestNow identity · (600000 * turn.2)) ++
        [.claimDue (600000 * turn.2),
          .complete ⟨turn.2 + 1, identity, turn.1, 0, false⟩ .success (600000 * turn.2)]
    ∃ start, RefreshCoordinator.new .default = .ok start ∧
      let registered := start.run (classes.map (.register identity · 0 true true))
      registered.servedKinds operations = turns ∧
        .prices ∈ (registered.servedKinds operations).take 8 := by
  refine ⟨_, rfl, by decide +kernel,
    (@no_class_starves .default _ rfl _).1 .prices _ (by decide +kernel) (by decide +kernel)⟩

end RefreshCoordinator

end ZenithRelay.Scheduler.Refresh
