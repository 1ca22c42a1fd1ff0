import Mathlib

/-!
# Latency window

The recent successful attempts of one route. The quantiles of the window are
diagnostics and take no part in selection.
-/

set_option autoImplicit false

namespace ZenithRelay.Scheduler.Rotation

def maxSamples : Nat := 64

/-- Soft health signals decay independently from the hard circuit state. -/
def healthHalfLifeMs : Nat := 10 * 60 * 1000

def latencyWindowMs : Nat := healthHalfLifeMs

structure Sample where
  observedAtMs : Nat
  latencyMs : Option Nat
  deriving DecidableEq, Repr

structure LatencyWindow where
  samples : List Sample
  deriving DecidableEq, Repr

namespace LatencyWindow

def empty : LatencyWindow := ⟨[]⟩

def observe (window : LatencyWindow) (latencyMs : Option Nat) (nowMs : Nat) : LatencyWindow :=
  let recent := window.samples.filter fun sample =>
    sample.observedAtMs ≤ nowMs && nowMs - sample.observedAtMs ≤ latencyWindowMs
  let kept := if recent.length = maxSamples then recent.tail else recent
  ⟨kept ++ [⟨nowMs, latencyMs⟩]⟩

/-- The window never holds more samples than it has room for. -/
theorem observe_length_le {window : LatencyWindow} (bounded : window.samples.length ≤ maxSamples)
    (latencyMs : Option Nat) (nowMs : Nat) :
    (window.observe latencyMs nowMs).samples.length ≤ maxSamples := by
  have shorter := List.length_filter_le (fun sample : Sample =>
    sample.observedAtMs ≤ nowMs && nowMs - sample.observedAtMs ≤ latencyWindowMs) window.samples
  have room : 0 < maxSamples := by decide
  simp only [observe, List.length_append, List.length_singleton]
  split
  · rw [List.length_tail]
    omega
  · omega

end LatencyWindow

end ZenithRelay.Scheduler.Rotation
