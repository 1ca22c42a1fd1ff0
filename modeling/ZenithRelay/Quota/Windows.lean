import ZenithRelay.Foundations.Integers

/-!
# Quota windows

The observed quota windows of one account and the snapshot that carries them.
-/

set_option autoImplicit false

namespace ZenithRelay.Quota

inductive QuotaWindowKind where
  | primary
  | secondary
  deriving DecidableEq, Repr

inductive ResetTime where
  | absoluteUnixSeconds (seconds : Nat)
  | absoluteUnixMilliseconds (milliseconds : Nat)
  | relativeSeconds (seconds : Nat)
  deriving DecidableEq, Repr

def ResetTime.normalizeMs (reset : ResetTime) (observedAtMs : Nat) : Nat :=
  match reset with
  | .absoluteUnixSeconds seconds => saturatingMul u64Max seconds 1000
  | .absoluteUnixMilliseconds milliseconds => milliseconds
  | .relativeSeconds seconds =>
    saturatingAdd u64Max observedAtMs (saturatingMul u64Max seconds 1000)

/-- `availablePercent` is an exact percentage, in basis points. -/
structure QuotaWindowInput where
  kind : QuotaWindowKind
  availablePercent : Option Int
  explicitlyFull : Option Bool
  reset : Option ResetTime
  windowMinutes : Option Nat
  providerCycleId : Option String
  observedAtMs : Nat
  deriving DecidableEq, Repr

structure QuotaWindow where
  kind : QuotaWindowKind
  providerCycleId : Option String
  windowStartMs : Option Nat
  availableBasisPoints : Option Nat
  explicitlyFull : Option Bool
  resetAtMs : Option Nat
  windowMinutes : Option Nat
  observedAtMs : Nat
  fullTransitionFingerprint : Option String
  exhaustionTransitionFingerprint : Option String
  deriving DecidableEq, Repr

inductive DefaultServiceTier where
  | standard
  | fast
  | ultrafast
  deriving DecidableEq, Repr

structure SupplementalQuotaWindow where
  id : String
  label : String
  serviceTier : Option DefaultServiceTier
  window : QuotaWindow
  deriving DecidableEq, Repr

structure QuotaTransition where
  windowKind : QuotaWindowKind
  fingerprint : String
  transitionedAtMs : Nat
  deriving DecidableEq, Repr

structure QuotaErrorState where
  code : String
  occurredAtMs : Nat
  deriving DecidableEq, Repr

structure QuotaSnapshot where
  primary : Option QuotaWindow
  secondary : Option QuotaWindow
  supplemental : List SupplementalQuotaWindow
  limitReached : Bool
  resetCreditsAvailable : Option Nat
  /-- In millionths of one credit. -/
  availableCreditsMicroUnits : Option Nat
  providerCreditsAvailable : Bool
  providerCreditsUnlimited : Bool
  /-- Only a complete provider ledger observation advances this clock. -/
  providerCreditsObservedAtMs : Option Nat
  directBalanceMicroUsd : Option Nat
  updatedAtMs : Option Nat
  error : Option QuotaErrorState
  deriving DecidableEq, Repr

/-- `Default` of the snapshot: nothing observed. -/
def QuotaSnapshot.unobserved : QuotaSnapshot where
  primary := none
  secondary := none
  supplemental := []
  limitReached := false
  resetCreditsAvailable := none
  availableCreditsMicroUnits := none
  providerCreditsAvailable := false
  providerCreditsUnlimited := false
  providerCreditsObservedAtMs := none
  directBalanceMicroUsd := none
  updatedAtMs := none
  error := none

end ZenithRelay.Quota
