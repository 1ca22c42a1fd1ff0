import ZenithRelay.Quota.Windows

/-!
# Merging quota snapshots

Each window and the provider ledger carry a clock of their own; the snapshot's
clock decides the rest.
-/

set_option autoImplicit false

namespace ZenithRelay.Quota

def mergeWindowObservation (current incoming : QuotaWindow) (incomingWins : Bool) : QuotaWindow :=
  if current.observedAtMs < incoming.observedAtMs then incoming
  else if incomingWins && incoming.observedAtMs == current.observedAtMs
      && incoming.availableBasisPoints == current.availableBasisPoints then
    -- a timer-only header keeps the remainder's clock but may refine the timer
    { current with resetAtMs := incoming.resetAtMs, windowMinutes := incoming.windowMinutes }
  else current

namespace QuotaSnapshot

def copyProviderCredits (snapshot incoming : QuotaSnapshot) : QuotaSnapshot :=
  { snapshot with
    availableCreditsMicroUnits := incoming.availableCreditsMicroUnits
    providerCreditsAvailable := incoming.providerCreditsAvailable
    providerCreditsUnlimited := incoming.providerCreditsUnlimited
    providerCreditsObservedAtMs := incoming.providerCreditsObservedAtMs }

/-- Unknown and older ledgers cannot overwrite a later complete observation. -/
def mergeProviderCredits (snapshot incoming : QuotaSnapshot) : QuotaSnapshot × Bool :=
  match incoming.providerCreditsObservedAtMs with
  | none => (snapshot, false)
  | some incomingAtMs =>
    if snapshot.providerCreditsObservedAtMs.any (incomingAtMs ≤ ·) then (snapshot, false)
    else (snapshot.copyProviderCredits incoming, true)

/-- The window of the preferred snapshot, merged when both have one. -/
def mergeWindow (current incoming preferred : Option QuotaWindow) (incomingWins : Bool) :
    Option QuotaWindow :=
  match current, incoming with
  | some current, some incoming => some (mergeWindowObservation current incoming incomingWins)
  | _, _ => preferred

def mergeSupplemental (current incoming : List SupplementalQuotaWindow) (incomingWins : Bool)
    (target : SupplementalQuotaWindow) : SupplementalQuotaWindow :=
  match current.find? (·.id == target.id), incoming.find? (·.id == target.id) with
  | some current, some incoming =>
    { target with window := mergeWindowObservation current.window incoming.window incomingWins }
  | _, _ => target

def mergeObservationWithPreference (snapshot incoming : QuotaSnapshot) (incomingWins : Bool) :
    QuotaSnapshot × Bool :=
  let preferred := if incomingWins then incoming else snapshot
  let merged := { preferred with
    primary := mergeWindow snapshot.primary incoming.primary preferred.primary incomingWins
    secondary := mergeWindow snapshot.secondary incoming.secondary preferred.secondary incomingWins
    supplemental := preferred.supplemental.map
      (mergeSupplemental snapshot.supplemental incoming.supplemental incomingWins) }
  -- current ledger evidence comes first, also against an equal clock
  let merged := if snapshot.providerCreditsObservedAtMs.isSome then
      merged.copyProviderCredits snapshot
    else merged
  let merged := (merged.mergeProviderCredits incoming).1
  (merged, merged != snapshot)

def mergeObservation (snapshot incoming : QuotaSnapshot) : QuotaSnapshot :=
  (snapshot.mergeObservationWithPreference incoming
    (snapshot.updatedAtMs.getD 0 ≤ incoming.updatedAtMs.getD 0)).1

end QuotaSnapshot

end ZenithRelay.Quota
