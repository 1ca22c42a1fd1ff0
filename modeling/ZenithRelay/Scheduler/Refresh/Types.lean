import ZenithRelay.Foundations.BTreeMap
import ZenithRelay.Foundations.Integers

/-!
# Refresh types

Kinds of observations, the identities they are fenced by, and the schedule kept
for each. Times are readings of one monotonic clock in milliseconds.
-/

set_option autoImplicit false

namespace ZenithRelay.Scheduler.Refresh

inductive RefreshKind where
  | auth
  | quota
  | models
  | balance
  | metadata
  | prices
  deriving DecidableEq, Repr

namespace RefreshKind

instance : Ord RefreshKind := ⟨fun left right => compare left.ctorIdx right.ctorIdx⟩

instance : Std.TransOrd RefreshKind := inferInstanceAs (Std.TransCmp (compareOn RefreshKind.ctorIdx))

instance : Std.LawfulEqOrd RefreshKind where
  eq_of_compare {left right} same := by
    cases left <;> cases right <;> first | rfl | (revert same; decide)

/-- The periodic cadence; `auth` is driven by expiry and events and has none. -/
def intervalMs : RefreshKind → Bool → Option Nat
  | .auth, _ => none
  | .quota, true => some (5 * 60 * 1000)
  | .quota, false => some (15 * 60 * 1000)
  | .models, true => some (8 * 60 * 60 * 1000)
  | .models, false => some (24 * 60 * 60 * 1000)
  | .balance, true => some (5 * 60 * 1000)
  | .balance, false => some (30 * 60 * 1000)
  | .metadata, true => some (60 * 60 * 1000)
  | .metadata, false => some (24 * 60 * 60 * 1000)
  | .prices, _ => some (24 * 60 * 60 * 1000)

end RefreshKind

/-- Revisions are monotonic counters of the host, not hashes or timestamps. -/
structure RefreshIdentity where
  memberId : String
  authRevision : Nat
  configRevision : Nat
  deriving DecidableEq, Repr

namespace RefreshIdentity

def fields (identity : RefreshIdentity) : String × Nat × Nat :=
  (identity.memberId, identity.authRevision, identity.configRevision)

instance : Ord RefreshIdentity := ⟨fun left right => compare left.fields right.fields⟩

instance : Std.TransOrd RefreshIdentity :=
  inferInstanceAs (Std.TransCmp (compareOn RefreshIdentity.fields))

instance : Std.LawfulEqOrd RefreshIdentity where
  eq_of_compare {left right} same := by
    have equal : left.fields = right.fields := Std.LawfulEqOrd.eq_of_compare same
    cases left
    cases right
    simpa [fields] using equal

end RefreshIdentity

structure RefreshKey where
  identity : RefreshIdentity
  kind : RefreshKind
  deriving DecidableEq, Repr

namespace RefreshKey

def fields (key : RefreshKey) : RefreshIdentity × RefreshKind := (key.identity, key.kind)

instance : Ord RefreshKey := ⟨fun left right => compare left.fields right.fields⟩

instance : Std.TransOrd RefreshKey := inferInstanceAs (Std.TransCmp (compareOn RefreshKey.fields))

instance : Std.LawfulEqOrd RefreshKey where
  eq_of_compare {left right} same := by
    have equal : left.fields = right.fields := Std.LawfulEqOrd.eq_of_compare same
    cases left
    cases right
    simpa [fields] using equal

end RefreshKey

abbrev RefreshJobId := Nat

structure RefreshJob where
  id : RefreshJobId
  identity : RefreshIdentity
  kind : RefreshKind
  dueAtMs : Nat
  manual : Bool
  deriving DecidableEq, Repr

def RefreshJob.key (job : RefreshJob) : RefreshKey := ⟨job.identity, job.kind⟩

inductive RefreshOutcome where
  | success
  | failedRetryAt (atMs : Nat)
  | noProgress
  | unsupported
  deriving DecidableEq, Repr

inductive RefreshFreshness where
  | unknown
  | fresh (asOfMs : Nat)
  | stale (asOfMs : Nat)
  | unsupported
  deriving DecidableEq, Repr

inductive RefreshCompletion where
  | applied (nextDueMs : Option Nat)
  | stale
  | unknownJob
  deriving DecidableEq, Repr

def earliest : Option Nat → Option Nat → Option Nat
  | some left, some right => some (min left right)
  | left, none => left
  | none, right => right

structure RefreshEntry where
  origin : String
  nextDueMs : Option Nat
  notBeforeMs : Nat
  rescheduleDueMs : Option Nat
  eventDueMs : Option Nat
  active : Bool
  automatic : Bool
  manual : Bool
  dirty : Bool
  inFlight : Option RefreshJobId
  lastSuccessMs : Option Nat
  passiveObservationWallMs : Option Nat
  passiveAgeAtReceive : Option (Nat × Nat)
  passiveFreshUntilMs : Option Nat
  passiveDuringJobDueMs : Option Nat
  failed : Bool
  unsupported : Bool
  noProgressCount : Nat
  deriving DecidableEq, Repr

namespace RefreshEntry

def new (origin : String) (active : Bool) : RefreshEntry where
  origin := origin
  nextDueMs := none
  notBeforeMs := 0
  rescheduleDueMs := none
  eventDueMs := none
  active := active
  automatic := true
  manual := false
  dirty := false
  inFlight := none
  lastSuccessMs := none
  passiveObservationWallMs := none
  passiveAgeAtReceive := none
  passiveFreshUntilMs := none
  passiveDuringJobDueMs := none
  failed := false
  unsupported := false
  noProgressCount := 0

def schedule (refreshEntry : RefreshEntry) (due : Option Nat) : RefreshEntry :=
  if refreshEntry.unsupported then refreshEntry
  else if refreshEntry.inFlight.isSome then
    { refreshEntry with rescheduleDueMs := earliest refreshEntry.rescheduleDueMs due }
  else { refreshEntry with nextDueMs := earliest refreshEntry.nextDueMs due }

end RefreshEntry

structure RunningJob where
  key : RefreshKey
  origin : String
  deriving DecidableEq, Repr

end ZenithRelay.Scheduler.Refresh
