import ZenithRelay.Foundations.Selection
import ZenithRelay.Scheduler.Refresh.Coordinator

/-!
# Running refreshes

Claiming due work, settling a job, retiring entries, and the readings a host
takes. A running job outlives its entry and charges capacity until it settles.
-/

set_option autoImplicit false

namespace ZenithRelay.Scheduler.Refresh

namespace RefreshEntry

/-- The entry once `jobId` was started for it. -/
def start (refreshEntry : RefreshEntry) (jobId : RefreshJobId) (nowMs : Nat) : RefreshEntry :=
  let taken :=
    { refreshEntry with
      nextDueMs := none, dirty := false, inFlight := some jobId, manual := false }
  if refreshEntry.eventDueMs.any fun atMs => atMs ≤ nowMs then { taken with eventDueMs := none }
  else
    { taken with
      rescheduleDueMs := earliest refreshEntry.rescheduleDueMs refreshEntry.eventDueMs }

/-- Delay before an attempt without progress is repeated. -/
def noProgressDelay (noProgressCount : Nat) : Nat :=
  min (5000 <<< min (noProgressCount - 1) 6) 300000

/-- The entry once its running job reported `outcome`. -/
def settle (refreshEntry : RefreshEntry) (kind : RefreshKind) (minimumIntervalMs : Nat)
    (outcome : RefreshOutcome) (nowMs : Nat) : RefreshEntry :=
  let rescheduled := refreshEntry.rescheduleDueMs
  let passiveDue := refreshEntry.passiveDuringJobDueMs
  let passiveReplacedFailure :=
    passiveDue.isSome && !refreshEntry.dirty &&
      outcome != RefreshOutcome.success && outcome != RefreshOutcome.unsupported
  let settled :=
    { refreshEntry with
      inFlight := none
      rescheduleDueMs := none
      passiveDuringJobDueMs := none
      notBeforeMs :=
        max refreshEntry.notBeforeMs (saturatingAdd u64Max nowMs minimumIntervalMs)
      failed := outcome != RefreshOutcome.success && !passiveReplacedFailure }
  let (settled, nextDueAtMs) : RefreshEntry × Option Nat :=
    match outcome with
    | .success =>
      let progressed := { settled with noProgressCount := 0 }
      let (observed, periodic) :=
        match passiveDue with
        | some due => (progressed, some due)
        | none =>
          ({ progressed with
              lastSuccessMs := some nowMs
              passiveAgeAtReceive := none
              passiveFreshUntilMs := none },
            (kind.intervalMs refreshEntry.active).map (saturatingAdd u64Max nowMs))
      let scheduled := earliest (periodic.filter fun _ => refreshEntry.automatic) rescheduled
      (observed, if refreshEntry.dirty then earliest scheduled (some nowMs) else scheduled)
    | .failedRetryAt atMs =>
      let delayed := { settled with notBeforeMs := max settled.notBeforeMs atMs }
      if passiveReplacedFailure then
        ({ delayed with noProgressCount := 0 }, earliest passiveDue rescheduled)
      else (delayed, some delayed.notBeforeMs)
    | .noProgress =>
      if passiveReplacedFailure then
        ({ settled with noProgressCount := 0 }, earliest passiveDue rescheduled)
      else
        let noProgressCount := saturatingAdd u32Max settled.noProgressCount 1
        let notBeforeMs := max settled.notBeforeMs
          (saturatingAdd u64Max nowMs (noProgressDelay noProgressCount))
        ({ settled with noProgressCount := noProgressCount, notBeforeMs := notBeforeMs },
          some notBeforeMs)
    | .unsupported => ({ settled with unsupported := true, eventDueMs := none }, none)
  { settled with
    dirty := false
    nextDueMs := (nextDueAtMs.filter fun _ => refreshEntry.automatic).map fun atMs =>
      max atMs settled.notBeforeMs }

end RefreshEntry

namespace RefreshCoordinator

/-- The entries that could start now, and how `claimDue` ranks them. -/
def claimable (coordinator : RefreshCoordinator) (key : RefreshKey) (refreshEntry : RefreshEntry)
    (nowMs : Nat) : Bool :=
  refreshEntry.inFlight.isNone && !refreshEntry.unsupported &&
    coordinator.capacityAvailable refreshEntry key.kind &&
    (coordinator.eligibleAt refreshEntry).any fun atMs => atMs ≤ nowMs

def claimRank (coordinator : RefreshCoordinator) (entry : RefreshKey × RefreshEntry) :
    Nat × Option Nat × RefreshKey :=
  (coordinator.classDistance entry.1.kind, entry.2.nextDueMs, entry.1)

def nextClaim (coordinator : RefreshCoordinator) (nowMs : Nat) :
    Option (RefreshKey × RefreshEntry) :=
  Selection.minBy (compareOn coordinator.claimRank)
    (coordinator.entries.toList.filter fun entry =>
      coordinator.claimable entry.1 entry.2 nowMs)

def startJob (coordinator : RefreshCoordinator) (key : RefreshKey) (refreshEntry : RefreshEntry)
    (nowMs : Nat) : RefreshCoordinator × RefreshJob :=
  let jobId : RefreshJobId := coordinator.nextJobId + 1
  let limits := coordinator.limits
  ({ coordinator.advanceClass key.kind with
      nextJobId := jobId
      entries := coordinator.entries.insert key (refreshEntry.start jobId nowMs)
      nextStartMs := saturatingAdd u64Max nowMs limits.startSpacingMs
      originNextStart := coordinator.originNextStart.insert refreshEntry.origin
        (saturatingAdd u64Max nowMs limits.originSpacingMs)
      jobs := coordinator.jobs.insert jobId ⟨key, refreshEntry.origin⟩ },
    { id := jobId
      identity := key.identity
      kind := key.kind
      dueAtMs := max (refreshEntry.nextDueMs.getD nowMs) refreshEntry.notBeforeMs
      manual := refreshEntry.manual })

def claimDue (coordinator : RefreshCoordinator) (nowMs : Nat) :
    RefreshCoordinator × Option RefreshJob :=
  match coordinator.nextClaim nowMs with
  | none => (coordinator, none)
  | some (key, refreshEntry) =>
    -- `checked_add` on the job counter gives up before anything has changed
    if coordinator.nextJobId ≥ u64Max then (coordinator, none)
    else
      let (started, job) := coordinator.startJob key refreshEntry nowMs
      (started, some job)

/-- Forgets spacing that has elapsed and that no entry or job refers to. -/
def pruneOrigins (coordinator : RefreshCoordinator) (nowMs : Nat) : RefreshCoordinator :=
  { coordinator with
    originNextStart := coordinator.originNextStart.filter fun origin atMs =>
      atMs > nowMs || (coordinator.entries.any fun _ refreshEntry => refreshEntry.origin = origin) ||
        coordinator.jobs.any fun _ job => job.origin = origin }

def complete (coordinator : RefreshCoordinator) (job : RefreshJob) (outcome : RefreshOutcome)
    (nowMs : Nat) : RefreshCoordinator × RefreshCompletion :=
  match coordinator.jobs[job.id]? with
  | none => (coordinator, .unknownJob)
  | some running =>
    -- an invalid completion must not take capacity from the real job
    if running.key ≠ job.key then (coordinator, .stale)
    else
      let freed :=
        { coordinator with jobs := coordinator.jobs.erase job.id }.pruneOrigins nowMs
      match freed.entries[running.key]? with
      | none => (freed, .stale)
      | some refreshEntry =>
        if refreshEntry.inFlight ≠ some job.id then (freed, .stale)
        else
          let settled := refreshEntry.settle running.key.kind freed.limits.minimumIntervalMs
            outcome nowMs
          (freed.putEntry running.key settled, .applied settled.nextDueMs)

def invalidate (coordinator : RefreshCoordinator) (identity : RefreshIdentity) :
    RefreshCoordinator × Nat :=
  let kept := coordinator.entries.filter fun key _ => key.identity ≠ identity
  ({ coordinator with entries := kept }, coordinator.entries.size - kept.size)

def removeKind (coordinator : RefreshCoordinator) (identity : RefreshIdentity)
    (kind : RefreshKind) : RefreshCoordinator × Bool :=
  ({ coordinator with entries := coordinator.entries.erase ⟨identity, kind⟩ },
    coordinator.entries.contains ⟨identity, kind⟩)

def pendingJobs (coordinator : RefreshCoordinator) : Nat := coordinator.jobs.size

def isInFlight (coordinator : RefreshCoordinator) (identity : RefreshIdentity)
    (kind : RefreshKind) : Bool :=
  coordinator.entries[RefreshKey.mk identity kind]?.any fun refreshEntry =>
    refreshEntry.inFlight.isSome

def nextDue (coordinator : RefreshCoordinator) (identity : RefreshIdentity) (kind : RefreshKind) :
    Option Nat :=
  coordinator.entries[RefreshKey.mk identity kind]?.bind fun refreshEntry =>
    refreshEntry.nextDueMs.map fun due => max due refreshEntry.notBeforeMs

/-- `none` when only a running job can unblock the next start. -/
def nextWake (coordinator : RefreshCoordinator) : Option Nat :=
  ((coordinator.entries.toList.filter fun entry =>
      entry.2.inFlight.isNone && !entry.2.unsupported &&
        coordinator.capacityAvailable entry.2 entry.1.kind).filterMap fun entry =>
    coordinator.eligibleAt entry.2).min?

def freshness (coordinator : RefreshCoordinator) (identity : RefreshIdentity) (kind : RefreshKind)
    (nowMs : Nat) : RefreshFreshness :=
  match coordinator.entries[RefreshKey.mk identity kind]? with
  | none => .unknown
  | some refreshEntry =>
    if refreshEntry.unsupported then .unsupported
    else
      match refreshEntry.lastSuccessMs with
      | none => .unknown
      | some asOfMs =>
        if refreshEntry.failed ||
            (refreshEntry.passiveFreshUntilMs.any fun freshUntilMs => freshUntilMs ≤ nowMs) ||
            ((kind.intervalMs refreshEntry.active).any fun interval =>
              saturatingAdd u64Max asOfMs interval ≤ nowMs) then .stale asOfMs
        else .fresh asOfMs

end RefreshCoordinator

end ZenithRelay.Scheduler.Refresh
