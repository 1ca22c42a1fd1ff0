import ZenithRelay.Scheduler.Rotation.Engine.ProgressProperties

/-!
# Previews and refusals

A reservation takes what its preview announced, and a call that is refused leaves
the engine and the request budget as they were.
-/

set_option autoImplicit false

namespace ZenithRelay.Scheduler.Rotation.RotationEngine

variable {engine : RotationEngine} {request : RotationRequest} {nowMs : Nat}

/-- What `reserve` answers, told by what `select` shows. Without a lease id left it
refuses whatever the preview shows. -/
structure FollowsPreview (engine : RotationEngine) (request : RotationRequest) (nowMs : Nat) :
    Prop where
  granted : engine.nextLeaseId < u64Max → ∀ selection,
    engine.select request nowMs = some selection →
      ∃ lease, (engine.reserve request nowMs).2 = .ok lease ∧
        lease.candidateId = selection.candidateId ∧ lease.recovery = selection.recovery
  announced : ∀ lease, (engine.reserve request nowMs).2 = .ok lease →
    ∃ selection, engine.select request nowMs = some selection ∧
      lease.candidateId = selection.candidateId ∧ lease.recovery = selection.recovery
  unchangedCandidate : engine.nextLeaseId < u64Max →
    (engine.reserve request nowMs).2 ≠ .error .candidateChanged
  validCandidate : engine.nextLeaseId < u64Max →
    (engine.reserve request nowMs).2 ≠ .error .invalidCandidate

/-- A call that answers with an error, or with false, changes nothing. -/
structure RefusalsChangeNothing (engine : RotationEngine) : Prop where
  reserve : ∀ request nowMs error, (engine.reserve request nowMs).2 = .error error →
    (engine.reserve request nowMs).1 = engine
  beginDispatch : ∀ leaseId budget clock error,
    (engine.beginDispatch leaseId budget clock).2.2 = .error error →
      engine.beginDispatch leaseId budget clock = (engine, budget, .error error)
  beginTransportDispatch : ∀ leaseId budget clock error,
    (engine.beginTransportDispatch leaseId budget clock).2.2 = .error error →
      engine.beginTransportDispatch leaseId budget clock = (engine, budget, .error error)
  settle : ∀ leaseId observation budget clock nowMs error,
    (engine.settle leaseId observation budget clock nowMs).2 = .error error →
      (engine.settle leaseId observation budget clock nowMs).1 = engine
  settleWithLatency : ∀ leaseId observation budget clock nowMs firstOutputLatencyMs error,
    (engine.settleWithLatency leaseId observation budget clock nowMs firstOutputLatencyMs).2 =
        .error error →
      (engine.settleWithLatency leaseId observation budget clock nowMs firstOutputLatencyMs).1 =
        engine
  cancel : ∀ leaseId budget clock nowMs error,
    (engine.cancel leaseId budget clock nowMs).2 = .error error →
      (engine.cancel leaseId budget clock nowMs).1 = engine
  releaseUnstarted : ∀ leaseId, (engine.releaseUnstarted leaseId).2 = false →
    (engine.releaseUnstarted leaseId).1 = engine

private theorem reserve_refused {error : AdmissionError}
    (refused : (engine.reserve request nowMs).2 = .error error) :
    (engine.reserve request nowMs).1 = engine := by
  rcases engine.reserve_cases request nowMs with
    ⟨other, same⟩ | ⟨group, selected, runtime, -, taken⟩
  · rw [same]
  · rw [taken] at refused
    cases refused

theorem beginDispatchInternal_refused {leaseId : LeaseId} {budget : RequestBudget}
    {clock : ClockReadings} {allowRetainedLease : Bool} {error : DispatchStartError}
    (refused : (engine.beginDispatchInternal leaseId budget clock allowRetainedLease).2.2 =
      .error error) :
    engine.beginDispatchInternal leaseId budget clock allowRetainedLease =
      (engine, budget, .error error) := by
  rcases engine.beginDispatchInternal_cases leaseId budget clock allowRetainedLease with
    ⟨other, same⟩ | ⟨pending, attemptId, -, -, -, started⟩
  · rw [same] at refused ⊢
    cases refused
    rfl
  · rw [started] at refused
    cases refused

theorem settleWithLatency_refused {leaseId : LeaseId} {observation : AttemptObservation}
    {budget : RequestBudget} {clock : ClockReadings} {firstOutputLatencyMs : Option Nat}
    {error : SettlementError}
    (refused : (engine.settleWithLatency leaseId observation budget clock nowMs
      firstOutputLatencyMs).2 = .error error) :
    (engine.settleWithLatency leaseId observation budget clock nowMs firstOutputLatencyMs).1 =
      engine := by
  rcases engine.settleWithLatency_cases leaseId observation budget clock nowMs
      firstOutputLatencyMs with
    ⟨other, same⟩ | ⟨lease, settlement, -, -, -, settled⟩
  · rw [same]
  · rw [settled] at refused
    cases refused

private theorem refusals_change_nothing (engine : RotationEngine) : RefusalsChangeNothing engine where
  reserve := fun _ _ _ refused => reserve_refused refused
  beginDispatch := fun _ _ _ _ refused => beginDispatchInternal_refused refused
  beginTransportDispatch := fun _ _ _ _ refused => beginDispatchInternal_refused refused
  settle := fun _ _ _ _ _ _ refused => settleWithLatency_refused refused
  settleWithLatency := fun _ _ _ _ _ _ _ refused => settleWithLatency_refused refused
  cancel := fun _ _ _ _ _ refused => settleWithLatency_refused refused
  releaseUnstarted := fun _ refused => releaseUnstarted_refused refused

private theorem select_eq_some {selection : RotationSelection}
    (shown : engine.select request nowMs = some selection) :
    ∃ selected, engine.chooseForRequest request (engine.selectionGroup
        (engine.selectionCandidates request nowMs).1 request nowMs) = some selected ∧
      selection.candidateId = selected.id ∧ selection.recovery = selected.recovery := by
  obtain ⟨selected, chosen, rfl⟩ := Option.map_eq_some_iff.mp shown
  exact ⟨selected, chosen, rfl, rfl⟩

/-- Nothing to preview is nothing to reserve. -/
theorem reserve_of_select_none (nothing : engine.select request nowMs = none) :
    engine.reserve request nowMs = (engine, .error .noEligibleCandidate) := by
  have unchosen := Option.map_eq_none_iff.mp nothing
  unfold reserve
  simp only [unchosen]

private theorem followsPreview_of_registered (registered : Registered engine)
    (request : RotationRequest) (nowMs : Nat) : FollowsPreview engine request nowMs := by
  have granted : engine.nextLeaseId < u64Max → ∀ selection,
      engine.select request nowMs = some selection →
        ∃ lease, (engine.reserve request nowMs).2 = .ok lease ∧
          lease.candidateId = selection.candidateId ∧ lease.recovery = selection.recovery := by
    intro leaseRoom selection shown
    obtain ⟨selected, chosen, candidateId, recovery⟩ := select_eq_some shown
    rw [candidateId, recovery]
    exact reserve_of_chosen registered chosen leaseRoom
  -- With an id left there is no third answer: a lease, or nothing eligible.
  have decided : engine.nextLeaseId < u64Max → ∀ error,
      (engine.reserve request nowMs).2 = .error error → error = .noEligibleCandidate := by
    intro leaseRoom error refused
    cases shown : engine.select request nowMs with
    | none =>
        rw [reserve_of_select_none shown] at refused
        cases refused
        rfl
    | some selection =>
        obtain ⟨lease, succeeded, -⟩ := granted leaseRoom selection shown
        rw [succeeded] at refused
        cases refused
  refine ⟨granted, fun lease succeeded => ?_, fun leaseRoom refused => ?_,
    fun leaseRoom refused => ?_⟩
  · cases shown : engine.select request nowMs with
    | none =>
        rw [reserve_of_select_none shown] at succeeded
        cases succeeded
    | some selection =>
        have leaseRoom := ((reserve_ok_iff registered).mp ⟨lease, succeeded⟩).1
        obtain ⟨granted, again, same⟩ := granted leaseRoom selection shown
        rw [succeeded] at again
        cases again
        exact ⟨selection, rfl, same⟩
  · cases decided leaseRoom _ refused
  · cases decided leaseRoom _ refused

/-- In every reachable engine a reservation does what its preview announced, and a
refused call is as if it had not been made. -/
theorem reserve_follows_preview (reachable : engine.Reachable) :
    (∀ request nowMs, FollowsPreview engine request nowMs) ∧ RefusalsChangeNothing engine :=
  ⟨followsPreview_of_registered reachable.registered, refusals_change_nothing engine⟩

/-- The recovering alias of a free member is previewed, and reserved, as a trial. -/
theorem reserve_follows_preview_trial :
    ∃ lease, ((RotationEngine.default.runOperations (shadowingRun.take 9)).reserve
        (.create 4 "r" "m") 1000).2 = .ok lease ∧
      lease.candidateId = "a" ∧ lease.recovery = true :=
  ((reserve_follows_preview ⟨_, rfl⟩).1 (.create 4 "r" "m") 1000).granted (by decide +kernel)
    ⟨"a", 0, true, 2, .recovery⟩ (by decide +kernel)

end ZenithRelay.Scheduler.Rotation.RotationEngine
