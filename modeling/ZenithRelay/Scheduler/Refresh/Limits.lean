import ZenithRelay.Scheduler.Refresh.Types

/-!
# Refresh limits

The coordinator's state, the traffic limits it was built with, and the weighted
class order that picks between due kinds.
-/

set_option autoImplicit false

namespace ZenithRelay.Scheduler.Refresh

structure RefreshLimits where
  maxEntries : Nat
  concurrent : Nat
  perOrigin : Nat
  reservedAuth : Nat
  startSpacingMs : Nat
  originSpacingMs : Nat
  minimumIntervalMs : Nat
  deriving DecidableEq, Repr

def RefreshLimits.default : RefreshLimits where
  maxEntries := 8192
  concurrent := 8
  perOrigin := 3
  reservedAuth := 1
  startSpacingMs := 50
  originSpacingMs := 250
  minimumIntervalMs := 1000

structure RefreshCoordinator where
  entries : BTreeMap RefreshKey RefreshEntry
  jobs : BTreeMap RefreshJobId RunningJob
  nextJobId : Nat
  limits : RefreshLimits
  nextStartMs : Nat
  originNextStart : BTreeMap String Nat
  classCursor : Nat

/-- Auth has a larger share, but continuously due work of it starves no other class. -/
def classOrder : List RefreshKind :=
  [.auth, .quota, .auth, .models, .quota, .balance, .metadata, .prices]

namespace RefreshCoordinator

def classDistance (coordinator : RefreshCoordinator) (kind : RefreshKind) : Nat :=
  ((List.range classOrder.length).find? fun offset =>
    classOrder[(coordinator.classCursor + offset) % classOrder.length]? = some kind).getD
      classOrder.length

def advanceClass (coordinator : RefreshCoordinator) (kind : RefreshKind) : RefreshCoordinator :=
  { coordinator with
    classCursor :=
      (coordinator.classCursor + coordinator.classDistance kind + 1) % classOrder.length }

/-- Running jobs that `charged` holds of. -/
def runningCount (coordinator : RefreshCoordinator) (charged : RunningJob → Bool) : Nat :=
  BTreeMap.countValues coordinator.jobs charged

def capacityAvailable (coordinator : RefreshCoordinator) (refreshEntry : RefreshEntry)
    (kind : RefreshKind) : Bool :=
  let limits := coordinator.limits
  let total := coordinator.jobs.size
  let originTotal := coordinator.runningCount fun job => job.origin = refreshEntry.origin
  if total ≥ limits.concurrent ∨ originTotal ≥ limits.perOrigin then false
  else if kind = .auth then true
  else
    let ordinary := coordinator.runningCount fun job => job.key.kind ≠ .auth
    let originOrdinary := coordinator.runningCount fun job =>
      job.origin = refreshEntry.origin ∧ job.key.kind ≠ .auth
    ordinary < limits.concurrent - limits.reservedAuth ∧
      originOrdinary < limits.perOrigin - limits.reservedAuth

def eligibleAt (coordinator : RefreshCoordinator) (refreshEntry : RefreshEntry) : Option Nat :=
  refreshEntry.nextDueMs.map fun due =>
    max (max (max due refreshEntry.notBeforeMs) coordinator.nextStartMs)
      (coordinator.originNextStart[refreshEntry.origin]?.getD 0)

end RefreshCoordinator

end ZenithRelay.Scheduler.Refresh
