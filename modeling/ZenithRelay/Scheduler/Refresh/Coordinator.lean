import ZenithRelay.Scheduler.Refresh.Limits

/-!
# Scheduling refreshes

Registration and the operations that move the due times of registered work.
None of them starts or settles a job.
-/

set_option autoImplicit false

namespace ZenithRelay.Scheduler.Refresh

namespace RefreshEntry

/-- The cadence that `expect("quota has a cadence")` reads. -/
def quotaInterval (active : Bool) : Nat := (RefreshKind.quota.intervalMs active).getD 0

/-- A passive observation keeps its age when the cadence around it changes. -/
def alignPassiveQuota (refreshEntry : RefreshEntry) (active : Bool) (receivedMs ageMs nowMs : Nat) :
    RefreshEntry :=
  let ageMs := saturatingAdd u64Max ageMs (nowMs - receivedMs)
  let dueMs := saturatingAdd u64Max nowMs (quotaInterval active - ageMs)
  let refreshed := { refreshEntry with passiveFreshUntilMs := some dueMs }
  if refreshEntry.inFlight.isSome then { refreshed with passiveDuringJobDueMs := some dueMs }
  else if !refreshEntry.manual then
    { refreshed with nextDueMs := earliest refreshEntry.eventDueMs (some dueMs) }
  else refreshed

/-- Only the idle to active transition can accelerate periodic work. -/
def accelerate (refreshEntry : RefreshEntry) (kind : RefreshKind) (active : Bool) (nowMs : Nat) :
    RefreshEntry :=
  if active && !refreshEntry.active && refreshEntry.automatic then
    refreshEntry.schedule ((kind.intervalMs true).map fun interval =>
      max (saturatingAdd u64Max (refreshEntry.lastSuccessMs.getD nowMs) interval) nowMs)
  else refreshEntry

def setActive (refreshEntry : RefreshEntry) (kind : RefreshKind) (active : Bool) (nowMs : Nat) :
    RefreshEntry :=
  if refreshEntry.active = active then refreshEntry
  else
    match refreshEntry.passiveAgeAtReceive with
    | some (receivedMs, ageMs) =>
      if kind = .quota ∧ refreshEntry.automatic ∧ !refreshEntry.unsupported then
        { refreshEntry.alignPassiveQuota active receivedMs ageMs nowMs with active := active }
      else { refreshEntry.accelerate kind active nowMs with active := active }
    | none => { refreshEntry.accelerate kind active nowMs with active := active }

def markDirty (refreshEntry : RefreshEntry) (nowMs : Nat) : RefreshEntry :=
  if refreshEntry.inFlight.isSome then { refreshEntry with dirty := true }
  else
    { refreshEntry with eventDueMs := earliest refreshEntry.eventDueMs (some nowMs) }.schedule
      (some nowMs)

/-- A fresh inference header replaces the next automatic quota poll. -/
def observePassiveQuota (refreshEntry : RefreshEntry) (nowMs ageMs observedAtWallMs : Nat) :
    RefreshEntry :=
  let dueMs := saturatingAdd u64Max nowMs (quotaInterval refreshEntry.active - ageMs)
  let observed :=
    { refreshEntry with
      passiveObservationWallMs := some observedAtWallMs
      passiveAgeAtReceive := some (nowMs, ageMs)
      passiveFreshUntilMs := some dueMs
      lastSuccessMs := some (nowMs - ageMs)
      failed := false }
  if refreshEntry.inFlight.isSome then { observed with passiveDuringJobDueMs := some dueMs }
  else if !refreshEntry.manual then
    { observed with nextDueMs := earliest refreshEntry.eventDueMs (some dueMs) }
  else observed

/-- An explicit recheck may retry an unsupported kind, but it joins a running job. -/
def requestNow (refreshEntry : RefreshEntry) (nowMs : Nat) : RefreshEntry :=
  let supported := { refreshEntry with unsupported := false }
  if refreshEntry.inFlight.isNone then { supported with manual := true }.schedule (some nowMs)
  else supported

def setAutomatic (refreshEntry : RefreshEntry) (automatic : Bool) : RefreshEntry :=
  let switched := { refreshEntry with automatic := automatic }
  if automatic then switched
  else
    let cleared := { switched with eventDueMs := none }
    if refreshEntry.inFlight.isNone then { cleared with nextDueMs := none } else cleared

end RefreshEntry

namespace RefreshCoordinator

def new (limits : RefreshLimits) : Except String RefreshCoordinator :=
  if limits.maxEntries = 0 ∨ limits.concurrent = 0 ∨ limits.perOrigin = 0 ∨
      limits.reservedAuth ≥ limits.concurrent ∨ limits.reservedAuth ≥ limits.perOrigin then
    .error "refresh limits must leave capacity for ordinary work"
  else
    .ok
      { entries := ∅
        jobs := ∅
        nextJobId := 0
        limits := limits
        nextStartMs := 0
        originNextStart := ∅
        classCursor := 0 }

def putEntry (coordinator : RefreshCoordinator) (key : RefreshKey) (refreshEntry : RefreshEntry) :
    RefreshCoordinator :=
  { coordinator with entries := coordinator.entries.insert key refreshEntry }

/-- Registration is reconciliation: a repeated one joins existing work. -/
def registerOrigin (coordinator : RefreshCoordinator) (identity : RefreshIdentity)
    (kind : RefreshKind) (origin : String) (nowMs : Nat) (active dueNow : Bool) :
    RefreshCoordinator × Bool :=
  let key : RefreshKey := ⟨identity, kind⟩
  if ¬coordinator.entries.contains key ∧
      coordinator.entries.size ≥ coordinator.limits.maxEntries then (coordinator, false)
  else
    let refreshEntry :=
      { coordinator.entries[key]?.getD (.new origin active) with active := active }
    let due :=
      if dueNow then some nowMs
      else (kind.intervalMs active).map fun interval => saturatingAdd u64Max nowMs interval
    let scheduled :=
      if refreshEntry.inFlight.isNone then refreshEntry.schedule due else refreshEntry
    (coordinator.putEntry key scheduled, true)

def register (coordinator : RefreshCoordinator) (identity : RefreshIdentity) (kind : RefreshKind)
    (nowMs : Nat) (active dueNow : Bool) : RefreshCoordinator × Bool :=
  coordinator.registerOrigin identity kind identity.memberId nowMs active dueNow

def scheduleAt (coordinator : RefreshCoordinator) (identity : RefreshIdentity) (kind : RefreshKind)
    (dueAtMs : Nat) (active : Bool) : RefreshCoordinator × Bool :=
  let key : RefreshKey := ⟨identity, kind⟩
  let registered :=
    if coordinator.entries.contains key then (coordinator, true)
    else coordinator.register identity kind dueAtMs active false
  if !registered.2 then (registered.1, false)
  else
    ({ registered.1 with
        entries := registered.1.entries.modify key fun refreshEntry =>
          { refreshEntry with active := active }.schedule (some dueAtMs) }, true)

def setActive (coordinator : RefreshCoordinator) (identity : RefreshIdentity) (active : Bool)
    (nowMs : Nat) : RefreshCoordinator × Bool :=
  ({ coordinator with
      entries := coordinator.entries.map fun key refreshEntry =>
        if key.identity = identity then refreshEntry.setActive key.kind active nowMs
        else refreshEntry },
    coordinator.entries.any fun key refreshEntry =>
      key.identity = identity && refreshEntry.active != active)

def markDirty (coordinator : RefreshCoordinator) (identity : RefreshIdentity) (kind : RefreshKind)
    (nowMs : Nat) : RefreshCoordinator × Bool :=
  match coordinator.entries[RefreshKey.mk identity kind]? with
  | none => (coordinator, false)
  | some refreshEntry =>
    if refreshEntry.unsupported || !refreshEntry.automatic then (coordinator, false)
    else (coordinator.putEntry ⟨identity, kind⟩ (refreshEntry.markDirty nowMs), true)

def observePassiveQuota (coordinator : RefreshCoordinator) (identity : RefreshIdentity)
    (nowMs ageMs observedAtWallMs : Nat) : RefreshCoordinator × Bool :=
  match coordinator.entries[RefreshKey.mk identity .quota]? with
  | none => (coordinator, false)
  | some refreshEntry =>
    if !refreshEntry.automatic || refreshEntry.unsupported ||
        RefreshEntry.quotaInterval refreshEntry.active ≤ ageMs then
      (coordinator, false)
    else if refreshEntry.passiveObservationWallMs.any fun previous => observedAtWallMs ≤ previous then
      (coordinator, false)
    else
      (coordinator.putEntry ⟨identity, .quota⟩
        (refreshEntry.observePassiveQuota nowMs ageMs observedAtWallMs), true)

def requestNow (coordinator : RefreshCoordinator) (identity : RefreshIdentity) (kind : RefreshKind)
    (nowMs : Nat) : RefreshCoordinator × Bool :=
  match coordinator.entries[RefreshKey.mk identity kind]? with
  | none => (coordinator, false)
  | some refreshEntry =>
    (coordinator.putEntry ⟨identity, kind⟩ (refreshEntry.requestNow nowMs), true)

/-- Records the provider's floor before the job it was read by has settled. -/
def deferUntil (coordinator : RefreshCoordinator) (identity : RefreshIdentity) (kind : RefreshKind)
    (untilMs : Nat) : RefreshCoordinator :=
  match coordinator.entries[RefreshKey.mk identity kind]? with
  | none => coordinator
  | some refreshEntry =>
    coordinator.putEntry ⟨identity, kind⟩
      { refreshEntry with notBeforeMs := max refreshEntry.notBeforeMs untilMs }

def setAutomatic (coordinator : RefreshCoordinator) (identity : RefreshIdentity)
    (kind : RefreshKind) (automatic : Bool) : RefreshCoordinator × Bool :=
  match coordinator.entries[RefreshKey.mk identity kind]? with
  | none => (coordinator, false)
  | some refreshEntry =>
    (coordinator.putEntry ⟨identity, kind⟩ (refreshEntry.setAutomatic automatic),
      !refreshEntry.automatic && automatic)

def scheduleEvent (coordinator : RefreshCoordinator) (identity : RefreshIdentity)
    (kind : RefreshKind) (atMs : Nat) : RefreshCoordinator × Bool :=
  match coordinator.entries[RefreshKey.mk identity kind]? with
  | none => (coordinator, false)
  | some refreshEntry =>
    if !refreshEntry.automatic || refreshEntry.unsupported then (coordinator, false)
    else
      (coordinator.putEntry ⟨identity, kind⟩
        ({ refreshEntry with eventDueMs := earliest refreshEntry.eventDueMs (some atMs) }.schedule
          (some atMs)), true)

end RefreshCoordinator

end ZenithRelay.Scheduler.Refresh
