import ZenithRelay.Foundations.Text
import ZenithRelay.Quota.Windows

/-!
# Normalizing quota windows

A window carries the fingerprints of its full and exhausted cycles over from the
window before it; transitions are read off two successive windows. `digest` is
the hex form of the SHA-256 of a text.
-/

set_option autoImplicit false

namespace ZenithRelay.Quota

def defaultFullThresholdBasisPoints : Nat := 9950

inductive QuotaNormalizationError where
  | invalidPercentage
  | mismatchedWindowKind
  | invalidSupplementalWindow
  deriving DecidableEq, Repr

def QuotaNormalizationError.message : QuotaNormalizationError → String
  | .invalidPercentage => "quota percentage must be between 0 and 100"
  | .mismatchedWindowKind => "quota window kind does not match its slot"
  | .invalidSupplementalWindow => "supplemental quota window is invalid"

def percentToBasisPoints (percent : Int) : Except QuotaNormalizationError Nat :=
  if 0 ≤ percent ∧ percent ≤ 10000 then .ok percent.toNat else .error .invalidPercentage

/-- The `Debug` form of the kind. -/
def QuotaWindowKind.debug : QuotaWindowKind → String
  | .primary => "Primary"
  | .secondary => "Secondary"

def cycleIdentity (kind : QuotaWindowKind) (resetAtMs windowMinutes : Option Nat)
    (providerCycleId : Option String) (observedAtMs : Nat) : String :=
  kind.debug ++ "\x00" ++ toString (resetAtMs.getD 0) ++ "\x00" ++
    toString (windowMinutes.getD 0) ++ "\x00" ++ Text.trim (providerCycleId.getD "") ++ "\x00" ++
    toString observedAtMs

section

variable (digest : String → String)

def cycleFingerprint (exhausted : Bool) (kind : QuotaWindowKind)
    (resetAtMs windowMinutes : Option Nat) (providerCycleId : Option String)
    (observedAtMs : Nat) : String :=
  let identity := cycleIdentity kind resetAtMs windowMinutes providerCycleId observedAtMs
  digest (if exhausted then "exhausted\x00" ++ identity else identity)

/-- Both windows name a cycle, the two differ, and the input is no older; or the
old deadline passed and a new one lies ahead. -/
def fullCycleChanged (previous : QuotaWindow) (input : QuotaWindowInput)
    (resetAtMs : Option Nat) : Bool :=
  (match previous.providerCycleId, input.providerCycleId with
    | some previousCycle, some currentCycle =>
      Text.trim previousCycle != "" && Text.trim currentCycle != ""
        && previousCycle != currentCycle && previous.observedAtMs ≤ input.observedAtMs
    | _, _ => false) ||
  (match previous.resetAtMs, resetAtMs with
    | some previousReset, some currentReset =>
      previousReset ≤ input.observedAtMs && input.observedAtMs < currentReset
    | _, _ => false)

namespace QuotaWindow

def fullyAvailable (explicitlyFull : Option Bool) (availableBasisPoints : Option Nat) : Bool :=
  explicitlyFull.getD (availableBasisPoints.any (defaultFullThresholdBasisPoints ≤ ·))

def isFullyAvailable (window : QuotaWindow) : Bool :=
  fullyAvailable window.explicitlyFull window.availableBasisPoints

def isExhausted (window : QuotaWindow) : Bool := window.availableBasisPoints == some 0

/-- The full cycle of the previous window, while it lasts, or a new one. -/
def fullFingerprint (input : QuotaWindowInput) (previousWindow : Option QuotaWindow)
    (resetAtMs : Option Nat) : String :=
  ((previousWindow.filter fun previousWindow =>
      previousWindow.isFullyAvailable && !fullCycleChanged previousWindow input resetAtMs).bind
    (·.fullTransitionFingerprint)).getD
    (cycleFingerprint digest false input.kind resetAtMs input.windowMinutes input.providerCycleId
      input.observedAtMs)

def exhaustionFingerprint (input : QuotaWindowInput) (previousWindow : Option QuotaWindow)
    (resetAtMs : Option Nat) : String :=
  ((previousWindow.filter (·.isExhausted)).bind (·.exhaustionTransitionFingerprint)).getD
    (cycleFingerprint digest true input.kind resetAtMs input.windowMinutes input.providerCycleId
      input.observedAtMs)

def normalize (input : QuotaWindowInput) (previousWindow : Option QuotaWindow) :
    Except QuotaNormalizationError QuotaWindow := do
  let availableBasisPoints ← input.availablePercent.mapM percentToBasisPoints
  let resetAtMs := input.reset.map (·.normalizeMs input.observedAtMs)
  pure
    { kind := input.kind
      providerCycleId := input.providerCycleId
      windowStartMs := input.windowMinutes.bind fun minutes =>
        resetAtMs.map fun reset => reset - minutes * 60000
      availableBasisPoints
      explicitlyFull := input.explicitlyFull
      resetAtMs
      windowMinutes := input.windowMinutes
      observedAtMs := input.observedAtMs
      fullTransitionFingerprint :=
        if fullyAvailable input.explicitlyFull availableBasisPoints then
          some (fullFingerprint digest input previousWindow resetAtMs)
        else none
      exhaustionTransitionFingerprint :=
        if availableBasisPoints == some 0 then
          some (exhaustionFingerprint digest input previousWindow resetAtMs)
        else none }

def fullTransitionFrom (window : QuotaWindow) (previousWindow : Option QuotaWindow) :
    Option QuotaTransition :=
  previousWindow.bind fun previousWindow =>
    if previousWindow.kind = window.kind && window.isFullyAvailable &&
        (!previousWindow.isFullyAvailable ||
          (match window.fullTransitionFingerprint, previousWindow.fullTransitionFingerprint with
            | some current, some previous => current != previous
            | _, _ => false)) then
      some
        { windowKind := window.kind
          fingerprint := window.fullTransitionFingerprint.getD
            (cycleFingerprint digest false window.kind window.resetAtMs window.windowMinutes none
              window.observedAtMs)
          transitionedAtMs := window.observedAtMs }
    else none

/-- The stable exhaustion identity of the current window. -/
def exhaustionTransition (window : QuotaWindow) : Option QuotaTransition :=
  if window.isExhausted then
    some
      { windowKind := window.kind
        fingerprint := window.exhaustionTransitionFingerprint.getD
          (cycleFingerprint digest true window.kind window.resetAtMs window.windowMinutes
            window.providerCycleId window.observedAtMs)
        transitionedAtMs := window.observedAtMs }
  else none

def exhaustionTransitionFrom (window : QuotaWindow) (previousWindow : Option QuotaWindow) :
    Option QuotaTransition :=
  previousWindow.bind fun previousWindow =>
    if previousWindow.kind = window.kind && !previousWindow.isExhausted && window.isExhausted then
      some
        { windowKind := window.kind
          fingerprint := window.exhaustionTransitionFingerprint.getD
            (cycleFingerprint digest true window.kind window.resetAtMs window.windowMinutes
              window.providerCycleId window.observedAtMs)
          transitionedAtMs := window.observedAtMs }
    else none

/-- Each input normalized against the window before it. -/
def normalizeAll : Option QuotaWindow → List QuotaWindowInput →
    Except QuotaNormalizationError (List QuotaWindow)
  | _, [] => pure []
  | previousWindow, input :: inputs => do
    let window ← normalize digest input previousWindow
    let windows ← normalizeAll (some window) inputs
    pure (window :: windows)

end QuotaWindow

end

end ZenithRelay.Quota
