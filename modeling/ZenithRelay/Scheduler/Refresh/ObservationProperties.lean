import ZenithRelay.Scheduler.Refresh.EntryEdits
import ZenithRelay.Scheduler.Refresh.TrafficProperties

/-!
# Pending observations

An event and a dirty mark stay recorded until the work they ask for is scheduled
no later than they asked. The record moves between four fields of the entry.
-/

set_option autoImplicit false

namespace ZenithRelay.Scheduler.Refresh

/-- A due time is set, and it is no later than `limit`. -/
def DueBy (due : Option Nat) (limit : Nat) : Prop := ∃ atMs, due = some atMs ∧ atMs ≤ limit

namespace DueBy

variable {left right : Option Nat} {limit later : Nat}

theorem of_le {atMs : Nat} (early : atMs ≤ limit) : DueBy (some atMs) limit := ⟨atMs, rfl, early⟩

theorem mono (due : DueBy left limit) (weaker : limit ≤ later) : DueBy left later := by
  obtain ⟨atMs, same, early⟩ := due
  exact ⟨atMs, same, early.trans weaker⟩

theorem earliest_left (due : DueBy left limit) (right : Option Nat) :
    DueBy (earliest left right) limit := by
  obtain ⟨atMs, rfl, early⟩ := due
  cases right with
  | none => exact of_le early
  | some other => exact of_le ((Nat.min_le_left _ _).trans early)

theorem earliest_right (left : Option Nat) (due : DueBy right limit) :
    DueBy (earliest left right) limit := by
  obtain ⟨atMs, rfl, early⟩ := due
  cases left with
  | none => exact of_le early
  | some other => exact of_le ((Nat.min_le_right _ _).trans early)

/-- The floor is applied to the chosen due time last. -/
theorem floored (due : DueBy left limit) (floor : Nat) :
    DueBy (left.map fun atMs => max atMs floor) (max limit floor) := by
  obtain ⟨atMs, rfl, early⟩ := due
  exact of_le (max_le_max_right floor early)

end DueBy

theorem earliest_eq_some {left right : Option Nat} {atMs : Nat}
    (chosen : earliest left right = some atMs) :
    left = some atMs ∨ right = some atMs := by
  cases left with
  | none =>
      cases right with
      | none => cases chosen
      | some value => exact .inr chosen
  | some value =>
      cases right with
      | none => exact .inl chosen
      | some other =>
          obtain rfl := Option.some.inj chosen
          rcases Nat.le_total value other with early | late
          · exact .inl (congrArg some (Nat.min_eq_left early).symm)
          · exact .inr (congrArg some (Nat.min_eq_right late).symm)

/-! ## One entry -/

namespace RefreshEntry

/-- A recorded event is scheduled: by the due time of an idle entry, by the follow-up of
one that waits for a job. -/
structure EventsKept (refreshEntry : RefreshEntry) : Prop where
  wanted : ∀ atMs, refreshEntry.eventDueMs = some atMs →
    refreshEntry.automatic = true ∧ refreshEntry.unsupported = false
  supported : refreshEntry.inFlight.isSome → refreshEntry.unsupported = false
  idle : ∀ atMs, refreshEntry.eventDueMs = some atMs → refreshEntry.inFlight = none →
    DueBy refreshEntry.nextDueMs (max atMs refreshEntry.notBeforeMs)
  waiting : ∀ atMs, refreshEntry.eventDueMs = some atMs → refreshEntry.inFlight.isSome →
    DueBy refreshEntry.rescheduleDueMs atMs

/-- What an entry owes once its running job has settled is not given up meanwhile. -/
structure Carries (before after : RefreshEntry) : Prop where
  rescheduled : ∀ limit, DueBy before.rescheduleDueMs limit → DueBy after.rescheduleDueMs limit
  dirty : before.dirty = true → after.dirty = true

variable {refreshEntry later : RefreshEntry} {kind : RefreshKind}

theorem Carries.of_eq {before after : RefreshEntry}
    (rescheduled : after.rescheduleDueMs = before.rescheduleDueMs)
    (dirty : after.dirty = before.dirty) : Carries before after :=
  ⟨fun _ due => rescheduled ▸ due, fun mark => dirty ▸ mark⟩

theorem schedule_carries (refreshEntry : RefreshEntry) (due : Option Nat) :
    refreshEntry.Carries (refreshEntry.schedule due) := by
  unfold schedule
  split
  · exact .of_eq rfl rfl
  split
  · exact ⟨fun limit owed => owed.earliest_left due, id⟩
  · exact .of_eq rfl rfl

/-- Scheduling moves the two due times that events are kept in, and only to earlier ones. -/
theorem EventsKept.schedule (kept : refreshEntry.EventsKept) (due : Option Nat) :
    (refreshEntry.schedule due).EventsKept := by
  unfold RefreshEntry.schedule
  split
  · exact kept
  split
  · exact ⟨kept.wanted, kept.supported, kept.idle,
      fun atMs event busy => (kept.waiting atMs event busy).earliest_left due⟩
  · exact ⟨kept.wanted, kept.supported,
      fun atMs event idle => (kept.idle atMs event idle).earliest_left due, kept.waiting⟩

theorem EventsKept.withActive (kept : refreshEntry.EventsKept) (active : Bool) :
    EventsKept { refreshEntry with active := active } :=
  ⟨kept.wanted, kept.supported, kept.idle, kept.waiting⟩

/-- A new event is recorded and scheduled in one step. -/
theorem EventsKept.event (kept : refreshEntry.EventsKept) (atMs : Nat)
    (automatic : refreshEntry.automatic = true) (supported : refreshEntry.unsupported = false) :
    EventsKept ({ refreshEntry with
      eventDueMs := earliest refreshEntry.eventDueMs (some atMs) }.schedule (some atMs)) := by
  unfold RefreshEntry.schedule
  rw [if_neg (by simp [supported])]
  split
  next busy =>
    refine ⟨fun _ _ => ⟨automatic, supported⟩, fun _ => supported, ?_, ?_⟩
    · intro recorded event idle
      rw [show refreshEntry.inFlight = none from idle] at busy
      cases busy
    · intro recorded event _
      rcases earliest_eq_some event with before | now
      · exact (kept.waiting recorded before busy).earliest_left _
      · obtain rfl := Option.some.inj now
        exact .earliest_right _ (.of_le le_rfl)
  next idle =>
    refine ⟨fun _ _ => ⟨automatic, supported⟩, fun _ => supported, ?_, ?_⟩
    · intro recorded event still
      rcases earliest_eq_some event with before | now
      · exact (kept.idle recorded before still).earliest_left _
      · obtain rfl := Option.some.inj now
        exact .earliest_right _ (.of_le (Nat.le_max_left _ _))
    · intro recorded event busy
      exact absurd busy idle

/-- A passive reading that replaces the due time leaves the recorded event in it. -/
theorem EventsKept.replaceDue (kept : refreshEntry.EventsKept) (dueMs : Nat) :
    EventsKept { refreshEntry with
      nextDueMs := earliest refreshEntry.eventDueMs (some dueMs) } := by
  refine ⟨kept.wanted, kept.supported, fun atMs event _ => ?_, kept.waiting⟩
  have recorded : DueBy refreshEntry.eventDueMs (max atMs refreshEntry.notBeforeMs) :=
    event ▸ .of_le (Nat.le_max_left _ _)
  exact recorded.earliest_left _

/-- The due time that a settled job chooses, before automatic work and the floor are applied:
no outcome but `unsupported` chooses one later than the follow-up. -/
theorem settle_chosen (refreshEntry : RefreshEntry) (kind : RefreshKind)
    (minimumIntervalMs nowMs : Nat) (outcome : RefreshOutcome) :
    ∃ chosen : Option Nat,
      (refreshEntry.settle kind minimumIntervalMs outcome nowMs).nextDueMs =
        (chosen.filter fun _ => refreshEntry.automatic).map (fun atMs => max atMs
          (refreshEntry.settle kind minimumIntervalMs outcome nowMs).notBeforeMs) ∧
      (outcome ≠ .unsupported → ∀ limit, DueBy refreshEntry.rescheduleDueMs limit →
        DueBy chosen
          (max limit (refreshEntry.settle kind minimumIntervalMs outcome nowMs).notBeforeMs)) ∧
      (outcome = .success → refreshEntry.dirty = true → DueBy chosen nowMs) := by
  cases outcome with
  | unsupported => exact ⟨none, rfl, fun supported => absurd rfl supported, (by rintro ⟨⟩)⟩
  | success =>
      cases passive : refreshEntry.passiveDuringJobDueMs with
      | none =>
          simp only [settle, passive]
          refine ⟨_, rfl, fun _ limit owed => ?_, fun _ dirty => ?_⟩
          · split
            · exact ((owed.earliest_right _).earliest_left _).mono (Nat.le_max_left _ _)
            · exact (owed.earliest_right _).mono (Nat.le_max_left _ _)
          · rw [if_pos dirty]
            exact .earliest_right _ (.of_le le_rfl)
      | some dueMs =>
          simp only [settle, passive]
          refine ⟨_, rfl, fun _ limit owed => ?_, fun _ dirty => ?_⟩
          · split
            · exact ((owed.earliest_right _).earliest_left _).mono (Nat.le_max_left _ _)
            · exact (owed.earliest_right _).mono (Nat.le_max_left _ _)
          · rw [if_pos dirty]
            exact .earliest_right _ (.of_le le_rfl)
  | failedRetryAt atMs =>
      simp only [settle]
      split
      · exact ⟨_, rfl, fun _ limit owed => (owed.earliest_right _).mono (Nat.le_max_left _ _), (by rintro ⟨⟩)⟩
      · exact ⟨_, rfl, fun _ limit _ => .of_le (Nat.le_max_right _ _), (by rintro ⟨⟩)⟩
  | noProgress =>
      simp only [settle]
      split
      · exact ⟨_, rfl, fun _ limit owed => (owed.earliest_right _).mono (Nat.le_max_left _ _), (by rintro ⟨⟩)⟩
      · exact ⟨_, rfl, fun _ limit _ => .of_le (Nat.le_max_right _ _), (by rintro ⟨⟩)⟩

/-- A settled job schedules what it owes, whatever it reported. -/
theorem settle_dueBy {minimumIntervalMs nowMs : Nat} {outcome : RefreshOutcome}
    (supported : outcome ≠ .unsupported) (automatic : refreshEntry.automatic = true) {limit : Nat}
    (owed : DueBy refreshEntry.rescheduleDueMs limit) :
    DueBy (refreshEntry.settle kind minimumIntervalMs outcome nowMs).nextDueMs
      (max limit (refreshEntry.settle kind minimumIntervalMs outcome nowMs).notBeforeMs) := by
  obtain ⟨chosen, same, due, -⟩ := settle_chosen refreshEntry kind minimumIntervalMs nowMs outcome
  have floored := (due supported limit owed).floored
    (refreshEntry.settle kind minimumIntervalMs outcome nowMs).notBeforeMs
  rw [Nat.max_assoc, Nat.max_self] at floored
  have kept : (chosen.filter fun _ => refreshEntry.automatic) = chosen := by
    cases chosen <;> simp [Option.filter, automatic]
  rwa [same, kept]

/-- The floor that a settled job leaves behind. -/
theorem settle_floor (refreshEntry : RefreshEntry) (kind : RefreshKind)
    (minimumIntervalMs nowMs : Nat) (outcome : RefreshOutcome) :
    max refreshEntry.notBeforeMs (saturatingAdd u64Max nowMs minimumIntervalMs) ≤
        (refreshEntry.settle kind minimumIntervalMs outcome nowMs).notBeforeMs ∧
      ∀ atMs, outcome = .failedRetryAt atMs →
        atMs ≤ (refreshEntry.settle kind minimumIntervalMs outcome nowMs).notBeforeMs := by
  cases outcome with
  | success => cases passive : refreshEntry.passiveDuringJobDueMs <;> simp [settle, passive]
  | failedRetryAt atMs =>
      simp only [settle]
      split <;> exact ⟨Nat.le_max_left _ _, fun _ same => by cases same; exact Nat.le_max_right _ _⟩
  | noProgress =>
      simp only [settle]
      split
      · exact ⟨le_rfl, (by rintro _ ⟨⟩)⟩
      · exact ⟨Nat.le_max_left _ _, (by rintro _ ⟨⟩)⟩
  | unsupported => exact ⟨le_rfl, (by rintro _ ⟨⟩)⟩

/-- A change seen while the job ran is read again as soon as the floor allows. -/
private theorem settle_dirty {minimumIntervalMs nowMs : Nat} (bounded : nowMs ≤ u64Max)
    (automatic : refreshEntry.automatic = true) (dirty : refreshEntry.dirty = true) :
    (refreshEntry.settle kind minimumIntervalMs .success nowMs).nextDueMs =
      some (max nowMs
        (refreshEntry.settle kind minimumIntervalMs .success nowMs).notBeforeMs) := by
  obtain ⟨chosen, same, -, owed⟩ := settle_chosen refreshEntry kind minimumIntervalMs nowMs .success
  obtain ⟨atMs, rfl, early⟩ := owed rfl dirty
  have floor := (settle_floor refreshEntry kind minimumIntervalMs nowMs .success).1
  have after : nowMs ≤ saturatingAdd u64Max nowMs minimumIntervalMs := le_saturatingAdd bounded
  rw [same]
  simp only [Option.filter, automatic, if_true, Option.map_some]
  congr 1
  omega

@[simp] theorem settle_automatic (refreshEntry : RefreshEntry) (kind : RefreshKind)
    (minimumIntervalMs nowMs : Nat) (outcome : RefreshOutcome) :
    (refreshEntry.settle kind minimumIntervalMs outcome nowMs).automatic =
      refreshEntry.automatic := by
  cases outcome with
  | success => cases passive : refreshEntry.passiveDuringJobDueMs <;> simp [settle, passive]
  | failedRetryAt atMs =>
      simp only [settle]
      split <;> rfl
  | noProgress =>
      simp only [settle]
      split <;> rfl
  | unsupported => rfl

/-- Only an unsupported kind drops what was recorded. -/
private theorem settle_event (refreshEntry : RefreshEntry) (kind : RefreshKind)
    (minimumIntervalMs nowMs : Nat) (outcome : RefreshOutcome) :
    outcome = .unsupported ∧
        (refreshEntry.settle kind minimumIntervalMs outcome nowMs).eventDueMs = none ∨
      outcome ≠ .unsupported ∧
        (refreshEntry.settle kind minimumIntervalMs outcome nowMs).eventDueMs =
          refreshEntry.eventDueMs ∧
        (refreshEntry.settle kind minimumIntervalMs outcome nowMs).unsupported =
          refreshEntry.unsupported := by
  cases outcome with
  | success => cases passive : refreshEntry.passiveDuringJobDueMs <;> simp [settle, passive]
  | failedRetryAt atMs =>
      simp only [settle]
      split <;> exact .inr ⟨(by rintro ⟨⟩), rfl, rfl⟩
  | noProgress =>
      simp only [settle]
      split <;> exact .inr ⟨(by rintro ⟨⟩), rfl, rfl⟩
  | unsupported => exact .inl ⟨rfl, rfl⟩

theorem EventsKept.settle (kept : refreshEntry.EventsKept) (busy : refreshEntry.inFlight.isSome)
    (minimumIntervalMs nowMs : Nat) (outcome : RefreshOutcome) :
    (refreshEntry.settle kind minimumIntervalMs outcome nowMs).EventsKept := by
  have idle := settle_inFlight refreshEntry kind minimumIntervalMs outcome nowMs
  rcases settle_event refreshEntry kind minimumIntervalMs nowMs outcome with
    ⟨-, dropped⟩ | ⟨supported, event, same⟩
  · exact ⟨by rw [dropped]; rintro _ ⟨⟩, by rw [idle]; rintro ⟨⟩, by rw [dropped]; rintro _ ⟨⟩,
      by rw [dropped]; rintro _ ⟨⟩⟩
  · refine ⟨?_, by rw [idle]; rintro ⟨⟩, ?_, fun _ _ => by rw [idle]; rintro ⟨⟩⟩
    · intro atMs recorded
      rw [settle_automatic, same]
      exact kept.wanted atMs (event ▸ recorded)
    · intro atMs recorded _
      rw [event] at recorded
      exact settle_dueBy supported (kept.wanted atMs recorded).1 (kept.waiting atMs recorded busy)

theorem EventsKept.start (kept : refreshEntry.EventsKept)
    (supported : refreshEntry.unsupported = false) (jobId : RefreshJobId) (nowMs : Nat) :
    (refreshEntry.start jobId nowMs).EventsKept := by
  unfold RefreshEntry.start
  dsimp only
  split
  · exact ⟨(by rintro _ ⟨⟩), fun _ => supported, (by rintro _ ⟨⟩), (by rintro _ ⟨⟩)⟩
  · refine ⟨kept.wanted, fun _ => supported, (by rintro _ _ ⟨⟩), ?_⟩
    intro atMs recorded _
    dsimp only at recorded ⊢
    rw [recorded]
    exact .earliest_right _ (.of_le le_rfl)

theorem EventsKept.setActive (kept : refreshEntry.EventsKept) (kind : RefreshKind) (active : Bool)
    (nowMs : Nat) : (refreshEntry.setActive kind active nowMs).EventsKept := by
  have accelerated : (refreshEntry.accelerate kind active nowMs).EventsKept := by
    unfold accelerate
    split
    · exact kept.schedule _
    · exact kept
  unfold RefreshEntry.setActive
  split
  · exact kept
  split
  next receivedMs ageMs received =>
    split
    · have replaced := kept.replaceDue (saturatingAdd u64Max nowMs (quotaInterval active -
        saturatingAdd u64Max ageMs (nowMs - receivedMs)))
      unfold alignPassiveQuota
      dsimp only
      split
      · exact ⟨kept.wanted, kept.supported, kept.idle, kept.waiting⟩
      · split
        · exact ⟨replaced.wanted, replaced.supported, replaced.idle, replaced.waiting⟩
        · exact ⟨kept.wanted, kept.supported, kept.idle, kept.waiting⟩
    · exact accelerated.withActive active
  · exact accelerated.withActive active

theorem EventsKept.observePassiveQuota (kept : refreshEntry.EventsKept)
    (nowMs ageMs observedAtWallMs : Nat) :
    (refreshEntry.observePassiveQuota nowMs ageMs observedAtWallMs).EventsKept := by
  unfold RefreshEntry.observePassiveQuota
  dsimp only
  split
  · exact ⟨kept.wanted, kept.supported, kept.idle, kept.waiting⟩
  split
  · have replaced := kept.replaceDue
      (saturatingAdd u64Max nowMs (quotaInterval refreshEntry.active - ageMs))
    exact ⟨replaced.wanted, replaced.supported, replaced.idle, replaced.waiting⟩
  · exact ⟨kept.wanted, kept.supported, kept.idle, kept.waiting⟩

theorem EventsKept.requestNow (kept : refreshEntry.EventsKept) (nowMs : Nat) :
    (refreshEntry.requestNow nowMs).EventsKept := by
  have supported : EventsKept { refreshEntry with unsupported := false } :=
    ⟨fun atMs event => ⟨(kept.wanted atMs event).1, rfl⟩, fun _ => rfl, kept.idle, kept.waiting⟩
  unfold RefreshEntry.requestNow
  dsimp only
  split
  · have manual : EventsKept { refreshEntry with unsupported := false, manual := true } :=
      ⟨supported.wanted, supported.supported, supported.idle, supported.waiting⟩
    exact manual.schedule _
  · exact supported

theorem EventsKept.setAutomatic (kept : refreshEntry.EventsKept) (automatic : Bool) :
    (refreshEntry.setAutomatic automatic).EventsKept := by
  unfold RefreshEntry.setAutomatic
  dsimp only
  split
  next on =>
    exact ⟨fun atMs event => ⟨on, (kept.wanted atMs event).2⟩, kept.supported, kept.idle,
      kept.waiting⟩
  · split <;> exact ⟨(by rintro _ ⟨⟩), kept.supported, (by rintro _ ⟨⟩), (by rintro _ ⟨⟩)⟩

theorem EventsKept.edits (kept : refreshEntry.EventsKept) (edits : refreshEntry.Edits kind later) :
    later.EventsKept := by
  cases edits with
  | same => exact kept
  | joined active busy => exact kept.withActive active
  | scheduled active due => exact (kept.withActive active).schedule due
  | event atMs automatic supported => exact kept.event atMs automatic supported
  | dirtied nowMs automatic supported =>
      unfold RefreshEntry.markDirty
      split
      · exact ⟨kept.wanted, kept.supported, kept.idle, kept.waiting⟩
      · exact kept.event nowMs automatic supported
  | observed nowMs ageMs observedAtWallMs automatic supported =>
      exact kept.observePassiveQuota nowMs ageMs observedAtWallMs
  | activity active nowMs => exact kept.setActive kind active nowMs
  | requested nowMs => exact kept.requestNow nowMs
  | deferred untilMs =>
      refine ⟨kept.wanted, kept.supported, fun atMs event idle => ?_, kept.waiting⟩
      exact (kept.idle atMs event idle).mono (max_le_max_left atMs (Nat.le_max_left _ _))
  | switched automatic => exact kept.setAutomatic automatic
  | started jobId nowMs idle supported => exact kept.start supported jobId nowMs
  | settled jobId minimumIntervalMs outcome nowMs waits =>
      exact kept.settle (by rw [waits]; rfl) minimumIntervalMs nowMs outcome

theorem EventsKept.chain (kept : refreshEntry.EventsKept)
    (edits : Relation.ReflTransGen (Edits kind) refreshEntry later) : later.EventsKept := by
  induction edits with
  | refl => exact kept
  | tail _ edit ih => exact ih.edits edit

private theorem new_eventsKept (origin : String) (active : Bool) :
    (RefreshEntry.new origin active).EventsKept :=
  ⟨(by rintro _ ⟨⟩), fun _ => rfl, (by rintro _ ⟨⟩), (by rintro _ ⟨⟩)⟩

/-- While one job runs, no edit gives up its follow-up or its dirty mark. -/
theorem Edits.carries {jobId : RefreshJobId} (edits : refreshEntry.Edits kind later)
    (busy : refreshEntry.inFlight = some jobId) (still : later.inFlight = some jobId) :
    refreshEntry.Carries later := by
  have running : refreshEntry.inFlight.isSome := by rw [busy]; rfl
  cases edits with
  | same => exact .of_eq rfl rfl
  | joined active _ => exact .of_eq rfl rfl
  | scheduled active due =>
      have moved := schedule_carries { refreshEntry with active := active } due
      exact ⟨moved.rescheduled, moved.dirty⟩
  | event atMs automatic supported =>
      have moved := schedule_carries
        { refreshEntry with eventDueMs := earliest refreshEntry.eventDueMs (some atMs) } (some atMs)
      exact ⟨moved.rescheduled, moved.dirty⟩
  | dirtied nowMs automatic supported =>
      unfold RefreshEntry.markDirty
      rw [if_pos running]
      exact ⟨fun _ owed => owed, fun _ => rfl⟩
  | observed nowMs ageMs observedAtWallMs automatic supported =>
      unfold RefreshEntry.observePassiveQuota
      dsimp only
      rw [if_pos running]
      exact .of_eq rfl rfl
  | activity active nowMs =>
      have accelerated : refreshEntry.Carries (refreshEntry.accelerate kind active nowMs) := by
        unfold accelerate
        split
        · exact schedule_carries refreshEntry _
        · exact .of_eq rfl rfl
      unfold RefreshEntry.setActive
      split
      · exact .of_eq rfl rfl
      split
      · split
        · unfold alignPassiveQuota
          dsimp only
          rw [if_pos running]
          exact .of_eq rfl rfl
        · exact ⟨accelerated.rescheduled, accelerated.dirty⟩
      · exact ⟨accelerated.rescheduled, accelerated.dirty⟩
  | requested nowMs =>
      unfold RefreshEntry.requestNow
      dsimp only
      rw [if_neg (by simp [busy])]
      exact .of_eq rfl rfl
  | deferred untilMs => exact .of_eq rfl rfl
  | switched automatic =>
      unfold RefreshEntry.setAutomatic
      dsimp only
      split
      · exact .of_eq rfl rfl
      · split <;> exact .of_eq rfl rfl
  | started other nowMs idle supported =>
      rw [idle] at busy
      cases busy
  | settled other minimumIntervalMs outcome nowMs waits =>
      rw [settle_inFlight] at still
      cases still

end RefreshEntry

/-! ## The entry of one running job -/

namespace RefreshCoordinator

variable {coordinator : RefreshCoordinator}

/-- What a claim that returns a job has done. -/
theorem claimDue_started {nowMs : Nat} {job : RefreshJob}
    (claims : (coordinator.claimDue nowMs).2 = some job) :
    ∃ refreshEntry, coordinator.entries[job.key]? = some refreshEntry ∧
      coordinator.claimable job.key refreshEntry nowMs = true ∧
      coordinator.claimDue nowMs =
        ((coordinator.startJob job.key refreshEntry nowMs).1, some job) ∧
      job = (coordinator.startJob job.key refreshEntry nowMs).2 := by
  unfold claimDue at claims ⊢
  split at claims
  · cases claims
  next key refreshEntry next =>
    by_cases spent : coordinator.nextJobId ≥ u64Max
    · rw [if_pos spent] at claims
      cases claims
    · rw [if_neg spent] at claims
      obtain ⟨found, claimable⟩ := nextClaim_claimable next
      obtain rfl := Option.some.inj claims
      exact ⟨refreshEntry, found, claimable, by rw [if_neg spent]; rfl, rfl⟩

theorem nextJobId_le_apply (coordinator : RefreshCoordinator) (operation : RefreshOperation) :
    coordinator.nextJobId ≤ (coordinator.apply operation).nextJobId := by
  by_cases quiet : operation.movesTraffic = false
  · exact (apply_schedules coordinator quiet).nextJobId.ge
  cases operation with
  | claimDue nowMs =>
      rcases claimDue_cases coordinator nowMs with same | ⟨_, _, -, -, -, -, same⟩
      · rw [apply, same]
      · rw [apply, same]
        exact Nat.le_succ _
  | complete job outcome nowMs =>
      cases complete_cases coordinator job outcome nowMs with
      | unknown absent same => rw [apply, same]
      | forged running found other same => rw [apply, same]
      | retired running settledMs found own released same => rw [apply, same]; rfl
      | applied running settledMs nextDueMs refreshEntry found own waiting idle same =>
          rw [apply, same]; rfl
  | invalidate identity => exact le_rfl
  | removeKind identity kind => exact le_rfl
  | _ => exact absurd rfl quiet

/-- The job was issued, and `holds` is true of the entry of `key` while it waits for it. -/
structure WhileWaiting (key : RefreshKey) (jobId : RefreshJobId) (holds : RefreshEntry → Prop)
    (coordinator : RefreshCoordinator) : Prop where
  issued : jobId ≤ coordinator.nextJobId
  waiting : ∀ refreshEntry, coordinator.entries[key]? = some refreshEntry →
    refreshEntry.inFlight = some jobId → holds refreshEntry

variable {key : RefreshKey} {jobId : RefreshJobId} {holds : RefreshEntry → Prop}

/-- An entry that waits for an issued job waited for it before. -/
private theorem waited_before {operation : RefreshOperation} (issued : jobId ≤ coordinator.nextJobId)
    {refreshEntry : RefreshEntry}
    (found : (coordinator.apply operation).entries[key]? = some refreshEntry)
    (waits : refreshEntry.inFlight = some jobId) :
    ∃ before, coordinator.entries[key]? = some before ∧ before.inFlight = some jobId ∧
      before.Edits key.kind refreshEntry := by
  have waiting := inFlightJob_eq_some.mpr ⟨refreshEntry, found, waits⟩
  rcases apply_inFlightJob waiting with earlier | ⟨nowMs, claimed, -, claims, same, -⟩
  · obtain ⟨before, held, busy⟩ := inFlightJob_eq_some.mp earlier
    exact ⟨before, held, busy, (apply_entry found).edits held⟩
  · obtain ⟨_, -, -, -, job⟩ := claimDue_started claims
    have fresh : claimed.id = coordinator.nextJobId + 1 := congrArg RefreshJob.id job
    rw [← same, fresh] at issued
    exact absurd issued (Nat.not_succ_le_self _)

theorem WhileWaiting.apply (kept : coordinator.WhileWaiting key jobId holds)
    (carried : ∀ before after : RefreshEntry, before.Carries after → holds before → holds after)
    (operation : RefreshOperation) :
    (coordinator.apply operation).WhileWaiting key jobId holds where
  issued := kept.issued.trans (nextJobId_le_apply coordinator operation)
  waiting refreshEntry found waits := by
    obtain ⟨before, held, busy, edits⟩ := waited_before kept.issued found waits
    exact carried before refreshEntry (edits.carries busy waits) (kept.waiting before held busy)

theorem WhileWaiting.run (kept : coordinator.WhileWaiting key jobId holds)
    (carried : ∀ before after : RefreshEntry, before.Carries after → holds before → holds after)
    (operations : List RefreshOperation) :
    (coordinator.run operations).WhileWaiting key jobId holds :=
  Execution.run_invariant (WhileWaiting key jobId holds)
    (fun _ operation kept => kept.apply carried operation) kept operations

/-- The completion of a running job settles the entry that waits for it. -/
theorem complete_waiting (invariant : coordinator.TrafficInvariant) {job : RefreshJob}
    {refreshEntry : RefreshEntry} (found : coordinator.entries[job.key]? = some refreshEntry)
    (waits : refreshEntry.inFlight = some job.id) (outcome : RefreshOutcome) (nowMs : Nat) :
    let settled :=
      refreshEntry.settle job.kind coordinator.limits.minimumIntervalMs outcome nowMs
    (coordinator.complete job outcome nowMs).2 = .applied settled.nextDueMs ∧
      (coordinator.complete job outcome nowMs).1.entries[job.key]? = some settled := by
  obtain ⟨running, runs, own⟩ :=
    invariant.waiting job.key job.id (inFlightJob_eq_some.mpr ⟨refreshEntry, found, waits⟩)
  have kept : ({ coordinator with
      jobs := coordinator.jobs.erase job.id }.pruneOrigins nowMs).entries = coordinator.entries := rfl
  unfold complete
  simp only [runs, own, kept, found, waits, ne_eq, not_true_eq_false, if_false]
  refine ⟨rfl, ?_⟩
  unfold putEntry
  rw [BTreeMap.lookup_insert, if_pos rfl]
  rfl

/-! ## Runs -/

private theorem new_entries {limits : RefreshLimits} {start : RefreshCoordinator}
    (accepted : RefreshCoordinator.new limits = .ok start) (key : RefreshKey) :
    start.entries[key]? = none := by
  unfold RefreshCoordinator.new at accepted
  split at accepted
  · cases accepted
  · cases accepted
    exact Std.ExtTreeMap.getElem?_empty

private theorem run_eventsKept {start : RefreshCoordinator}
    (initial : ∀ (key : RefreshKey) (refreshEntry : RefreshEntry),
      start.entries[key]? = some refreshEntry → refreshEntry.EventsKept)
    (operations : List RefreshOperation) {key : RefreshKey} {refreshEntry : RefreshEntry}
    (found : (start.run operations).entries[key]? = some refreshEntry) :
    refreshEntry.EventsKept := by
  refine Execution.run_invariant (fun state : RefreshCoordinator =>
    ∀ (key : RefreshKey) (refreshEntry : RefreshEntry),
      state.entries[key]? = some refreshEntry → refreshEntry.EventsKept) ?_ initial operations key
    refreshEntry found
  intro state operation kept key later stored
  cases apply_entry stored with
  | edited before held edits => exact (kept key before held).edits edits
  | added origin active absent edits idle =>
      exact (RefreshEntry.new_eventsKept origin active).chain edits

/-- What a claim left pending is owed by the job it started. -/
private theorem claimDue_owes {claimMs atMs : Nat} {job : RefreshJob} {held : RefreshEntry}
    (claims : (coordinator.claimDue claimMs).2 = some job)
    (found : coordinator.entries[job.key]? = some held) (event : held.eventDueMs = some atMs)
    (later : claimMs < atMs) :
    (coordinator.apply (.claimDue claimMs)).WhileWaiting job.key job.id
      fun refreshEntry => DueBy refreshEntry.rescheduleDueMs atMs := by
  obtain ⟨claimed, stored, -, same, fresh⟩ := claimDue_started claims
  obtain rfl := Option.some.inj (found.symm.trans stored)
  rw [apply, same]
  refine ⟨by rw [fresh]; exact le_rfl, fun refreshEntry after _ => ?_⟩
  unfold startJob at after
  dsimp only at after
  rw [BTreeMap.lookup_insert, if_pos rfl] at after
  obtain rfl := Option.some.inj after
  unfold RefreshEntry.start
  dsimp only
  rw [event, if_neg (by simpa using later)]
  exact .earliest_right _ (.of_le le_rfl)

/-- An accepted event is owed by the job that runs for the entry. -/
private theorem scheduleEvent_owes {identity : RefreshIdentity} {kind : RefreshKind} {atMs : Nat}
    (issued : jobId ≤ coordinator.nextJobId)
    (accepts : (coordinator.scheduleEvent identity kind atMs).2 = true) :
    (coordinator.apply (.scheduleEvent identity kind atMs)).WhileWaiting ⟨identity, kind⟩ jobId
      fun refreshEntry => DueBy refreshEntry.rescheduleDueMs atMs := by
  refine ⟨issued.trans (nextJobId_le_apply _ _), fun refreshEntry after waits => ?_⟩
  rw [apply] at after
  unfold scheduleEvent at accepts after
  split at accepts
  · cases accepts
  next stored held =>
    split at accepts
    · cases accepts
    next wanted =>
      simp only [Bool.or_eq_true, Bool.not_eq_true', not_or, Bool.not_eq_false,
        Bool.not_eq_true] at wanted
      simp only [held] at after
      rw [if_neg (by simp [wanted])] at after
      unfold putEntry at after
      rw [BTreeMap.lookup_insert, if_pos rfl] at after
      obtain rfl := Option.some.inj after
      rw [RefreshEntry.schedule_inFlight] at waits
      unfold RefreshEntry.schedule
      rw [if_neg (by simp [wanted]), if_pos (by simpa using waits ▸ rfl)]
      exact .earliest_right _ (.of_le le_rfl)

private theorem markDirty_owes {identity : RefreshIdentity} {kind : RefreshKind} {atMs : Nat}
    (issued : jobId ≤ coordinator.nextJobId)
    (accepts : (coordinator.markDirty identity kind atMs).2 = true) :
    (coordinator.apply (.markDirty identity kind atMs)).WhileWaiting ⟨identity, kind⟩ jobId
      fun refreshEntry => refreshEntry.dirty = true := by
  refine ⟨issued.trans (nextJobId_le_apply _ _), fun refreshEntry after waits => ?_⟩
  rw [apply] at after
  unfold markDirty at accepts after
  split at accepts
  · cases accepts
  next stored held =>
    split at accepts
    · cases accepts
    next wanted =>
      simp only [held] at after
      rw [if_neg wanted] at after
      unfold putEntry at after
      rw [BTreeMap.lookup_insert, if_pos rfl] at after
      obtain rfl := Option.some.inj after
      rw [RefreshEntry.markDirty_inFlight] at waits
      unfold RefreshEntry.markDirty
      rw [if_pos (by rw [waits]; rfl)]

/-- What the completion of the job claimed at `claimMs` makes of the observations that were
pending at that claim, or accepted while the job ran. -/
structure ObservationsKept (claimed : RefreshCoordinator) (claimMs : Nat)
    (during : List RefreshOperation) (job : RefreshJob) (outcome : RefreshOutcome) (nowMs : Nat)
    (settled : RefreshEntry) : Prop where
  pending : ∀ held atMs, claimed.entries[job.key]? = some held → held.eventDueMs = some atMs →
    claimMs < atMs → outcome ≠ .unsupported →
      DueBy settled.nextDueMs (max atMs settled.notBeforeMs)
  event : ∀ first atMs rest, during = first ++ .scheduleEvent job.identity job.kind atMs :: rest →
    ((claimed.run (.claimDue claimMs :: first)).scheduleEvent job.identity job.kind atMs).2 = true →
    outcome ≠ .unsupported → DueBy settled.nextDueMs (max atMs settled.notBeforeMs)
  dirty : ∀ first atMs rest, during = first ++ .markDirty job.identity job.kind atMs :: rest →
    ((claimed.run (.claimDue claimMs :: first)).markDirty job.identity job.kind atMs).2 = true →
    outcome = .success → settled.nextDueMs = some (max nowMs settled.notBeforeMs)

private theorem observationsKept_of_waiting {claimed : RefreshCoordinator} {claimMs : Nat}
    {during : List RefreshOperation} {job : RefreshJob}
    (claims : (claimed.claimDue claimMs).2 = some job) {refreshEntry : RefreshEntry}
    (found : (claimed.run (.claimDue claimMs :: during)).entries[job.key]? = some refreshEntry)
    (waits : refreshEntry.inFlight = some job.id) (automatic : refreshEntry.automatic = true)
    (minimumIntervalMs : Nat) (outcome : RefreshOutcome) {nowMs : Nat} (bounded : nowMs ≤ u64Max) :
    claimed.ObservationsKept claimMs during job outcome nowMs
      (refreshEntry.settle job.kind minimumIntervalMs outcome nowMs) := by
  have issued : job.id ≤ (claimed.apply (.claimDue claimMs)).nextJobId := by
    obtain ⟨_, -, -, same, fresh⟩ := claimDue_started claims
    rw [apply, same, fresh]
    exact le_rfl
  have issuedAfter (first : List RefreshOperation) :
      job.id ≤ (claimed.run (.claimDue claimMs :: first)).nextJobId :=
    Execution.run_invariant (fun state : RefreshCoordinator => job.id ≤ state.nextJobId)
      (fun state operation known => known.trans (nextJobId_le_apply state operation)) issued first
  have splits (first rest : List RefreshOperation) (operation : RefreshOperation) :
      claimed.run (.claimDue claimMs :: (first ++ operation :: rest)) =
        ((claimed.run (.claimDue claimMs :: first)).apply operation).run rest := by
    rw [← List.cons_append]
    exact Execution.run_append ..
  constructor
  · intro held atMs stored event later supported
    have owed := (claimDue_owes claims stored event later).run
      (fun _ _ carries due => carries.rescheduled atMs due) during
    exact RefreshEntry.settle_dueBy supported automatic (owed.waiting refreshEntry found waits)
  · rintro first atMs rest rfl accepts supported
    have owed := (scheduleEvent_owes (issuedAfter first) accepts).run
      (fun _ _ carries due => carries.rescheduled atMs due) rest
    rw [splits] at found
    exact RefreshEntry.settle_dueBy supported automatic (owed.waiting refreshEntry found waits)
  · rintro first atMs rest rfl accepts rfl
    have owed := (markDirty_owes (issuedAfter first) accepts).run
      (fun _ _ carries mark => carries.dirty mark) rest
    rw [splits] at found
    exact RefreshEntry.settle_dirty bounded automatic (owed.waiting refreshEntry found waits)

/-- No observation is lost: in every state the due time of an idle entry covers its recorded
event, and the job that an entry waits for schedules what was pending when it was claimed or
was asked for since. -/
theorem observations_kept {limits : RefreshLimits} {start : RefreshCoordinator}
    (accepted : RefreshCoordinator.new limits = .ok start) (operations : List RefreshOperation)
    (key : RefreshKey) (refreshEntry : RefreshEntry)
    (found : (start.run operations).entries[key]? = some refreshEntry) :
    (refreshEntry.inFlight = none → ∀ atMs, refreshEntry.eventDueMs = some atMs →
      DueBy refreshEntry.nextDueMs (max atMs refreshEntry.notBeforeMs)) ∧
    ∀ jobId, refreshEntry.inFlight = some jobId → refreshEntry.automatic = true →
      ∃ before claimMs during job, operations = before ++ .claimDue claimMs :: during ∧
        ((start.run before).claimDue claimMs).2 = some job ∧ job.id = jobId ∧ job.key = key ∧
        ∀ outcome nowMs, nowMs ≤ u64Max → ∃ settled,
          ((start.run operations).complete job outcome nowMs).2 = .applied settled.nextDueMs ∧
          ((start.run operations).complete job outcome nowMs).1.entries[key]? = some settled ∧
          (start.run before).ObservationsKept claimMs during job outcome nowMs settled := by
  obtain ⟨-, traffic, idleStart⟩ := new_traffic accepted
  constructor
  · intro idle atMs event
    have kept := run_eventsKept (fun key _ stored => by
      rw [new_entries accepted key] at stored
      cases stored) operations found
    exact kept.idle atMs event idle
  · intro jobId waits automatic
    obtain ⟨before, claimMs, during, rfl, ⟨job, claims, rfl, own⟩, -, -⟩ :=
      @claimedSince_of_inFlightJob start operations ⟨jobId, key.identity, key.kind, 0, false⟩
        (idleStart key) (inFlightJob_eq_some.mpr ⟨refreshEntry, found, waits⟩)
    obtain rfl : job.key = key := own
    refine ⟨before, claimMs, during, job, rfl, claims, rfl, rfl, fun outcome nowMs bounded => ?_⟩
    have invariant : (start.run (before ++ .claimDue claimMs :: during)).TrafficInvariant :=
      Execution.run_invariant TrafficInvariant (fun _ operation holds => holds.apply operation)
        traffic _
    have settles := complete_waiting invariant found waits outcome nowMs
    refine ⟨_, settles.1, settles.2, ?_⟩
    have split : start.run (before ++ .claimDue claimMs :: during) =
        (start.run before).run (.claimDue claimMs :: during) := Execution.run_append ..
    rw [split] at found
    exact observationsKept_of_waiting claims found waits automatic _ outcome bounded

theorem observations_kept_event : ∃ start refreshEntry,
    RefreshCoordinator.new .default = .ok start ∧
    (start.run [.register ⟨"account:test", 1, 1⟩ .quota 0 true true, .claimDue 0,
      .scheduleEvent ⟨"account:test", 1, 1⟩ .quota 10]).entries[RefreshKey.mk
        ⟨"account:test", 1, 1⟩ .quota]? = some refreshEntry ∧
    ∃ before claimMs during job,
      [RefreshOperation.register ⟨"account:test", 1, 1⟩ .quota 0 true true, .claimDue 0,
        .scheduleEvent ⟨"account:test", 1, 1⟩ .quota 10] =
          before ++ .claimDue claimMs :: during ∧
      ((start.run before).claimDue claimMs).2 = some job ∧ job.id = 1 := by
  have waits : ∃ start, RefreshCoordinator.new .default = .ok start ∧
      ((start.run [.register ⟨"account:test", 1, 1⟩ .quota 0 true true, .claimDue 0,
        .scheduleEvent ⟨"account:test", 1, 1⟩ .quota 10]).entries[RefreshKey.mk
          ⟨"account:test", 1, 1⟩ .quota]?.map fun refreshEntry =>
            (refreshEntry.inFlight, refreshEntry.automatic)) = some (some 1, true) :=
    ⟨_, rfl, by decide +kernel⟩
  obtain ⟨start, accepted, waits⟩ := waits
  obtain ⟨refreshEntry, found, same⟩ := Option.map_eq_some_iff.mp waits
  obtain ⟨busy, automatic⟩ := Prod.mk.inj same
  obtain ⟨before, claimMs, during, job, split, claims, own, -, -⟩ :=
    (observations_kept accepted _ _ refreshEntry found).2 1 busy automatic
  exact ⟨start, refreshEntry, accepted, found, before, claimMs, during, job, split, claims, own⟩

/-- Of two accepted events only the earlier one is recorded: the job claimed in between
clears it, and its success schedules nothing by the time of the later one. -/
theorem later_event_coalesced : ∃ start,
    RefreshCoordinator.new .default = .ok start ∧
    let registered := start.run [.register ⟨"account:test", 1, 1⟩ .quota 0 true true]
    let first := registered.scheduleEvent ⟨"account:test", 1, 1⟩ .quota 10
    let second := first.1.scheduleEvent ⟨"account:test", 1, 1⟩ .quota 1000
    let claimed := second.1.claimDue 20
    first.2 = true ∧ second.2 = true ∧
      ∃ job, claimed.2 = some job ∧
        (claimed.1.complete job .success 30).2 = .applied (some 300030) ∧
        ((claimed.1.complete job .success 30).1.entries[RefreshKey.mk ⟨"account:test", 1, 1⟩
          .quota]?.map (·.notBeforeMs)) = some 1030 := by
  refine ⟨_, rfl, by decide +kernel, by decide +kernel, _, rfl, ?_, ?_⟩
  · decide +kernel
  · decide +kernel

end RefreshCoordinator

end ZenithRelay.Scheduler.Refresh
