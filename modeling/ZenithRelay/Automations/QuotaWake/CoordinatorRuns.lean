import ZenithRelay.Automations.QuotaWake.CoordinatorProperties

/-!
# Runs of the wake coordinator

Calls in any order, with restarts between them, and the permits issued so far from the
cycles that the coordinator still keeps.
-/

set_option autoImplicit false

namespace ZenithRelay.Automations

open Quota

inductive WakeCall where
  | evaluate (task : WakeTask) (account : WakeAccount) (transition : QuotaTransition)
      (lastNaturalUseAtMs : Option Nat) (policy : WakeAdapterPolicy) (nowMs : Nat)
  | claimDue (nowMs maxClaims : Nat) (mode : WakeClaimMode)
  | complete (permit : WakePermit) (completion : WakeCompletion)
  | markNaturalUse (accountId : String) (usedAtMs : Nat)
  | removePendingForTask (taskId : String) (completedAtMs : Nat)
  | removePendingForAccount (accountId : String) (completedAtMs : Nat)
  | restart

/-- The cycles that the call cancels. -/
def WakeCall.cancels (call : WakeCall) (cycle : WakeCycle) : Prop :=
  match call with
  | .removePendingForTask taskId _ => cycle.taskId = taskId
  | .removePendingForAccount accountId _ => cycle.accountId = accountId
  | .restart => cycle.windowKind ≠ .primary
  | _ => False

/-- The call does not name an account by an id with the separator of cycle keys in it. -/
def WakeCall.Plain (call : WakeCall) : Prop :=
  match call with
  | .evaluate _ account _ _ _ _ => '\x00' ∉ account.id.toList
  | _ => True

namespace WakeCoordinator

/-- The coordinator after the call, and the permits that the call issued. A restart loads
the saved state; a state that is refused stays as it was saved. -/
def perform (digest : WakeDigest) (coordinator : WakeCoordinator) :
    WakeCall → WakeCoordinator × List WakePermit
  | .evaluate task account transition lastNaturalUseAtMs policy nowMs =>
    ((evaluate digest coordinator task account transition lastNaturalUseAtMs policy nowMs).2, [])
  | .claimDue nowMs maxClaims mode =>
    ((coordinator.claimDueMatching nowMs maxClaims mode).2,
      (coordinator.claimDueMatching nowMs maxClaims mode).1)
  | .complete permit completion => ((complete digest coordinator permit completion).2, [])
  | .markNaturalUse accountId usedAtMs =>
    (coordinator.markNaturalUseForAccount accountId usedAtMs, [])
  | .removePendingForTask taskId completedAtMs =>
    (coordinator.removePendingForTask taskId completedAtMs, [])
  | .removePendingForAccount accountId completedAtMs =>
    (coordinator.removePendingForAccount accountId completedAtMs, [])
  | .restart =>
    match fromState digest coordinator.state with
    | .ok loaded => (loaded, [])
    | .error _ => (coordinator, [])

/-! ### One call -/

variable {digest : WakeDigest} {released : WakeCycle → Prop}

@[simp] theorem withCycles_cycles (coordinator : WakeCoordinator) (cycles : List WakeCycle) :
    (coordinator.withCycles cycles).state.cycles = cycles := rfl

@[simp] theorem pushHistory_cycles (coordinator : WakeCoordinator) (record : WakeHistory) :
    (coordinator.pushHistory record).state.cycles = coordinator.state.cycles := rfl

@[simp] theorem pushAll_cycles (coordinator : WakeCoordinator) (records : List WakeHistory) :
    (coordinator.pushAll records).state.cycles = coordinator.state.cycles := by
  induction records generalizing coordinator with
  | nil => rfl
  | cons record records ih => exact ih (coordinator.pushHistory record)

/-- The bounds stay, and so does a history within its bound. -/
structure Bounds (before after : WakeCoordinator) : Prop where
  maxCycles : after.state.maxCycles = before.state.maxCycles
  maxHistory : after.state.maxHistory = before.state.maxHistory
  history : 0 < before.state.maxHistory →
    before.state.history.length ≤ before.state.maxHistory →
    after.state.history.length ≤ before.state.maxHistory

theorem Bounds.withCycles (coordinator : WakeCoordinator) (cycles : List WakeCycle) :
    Bounds coordinator (coordinator.withCycles cycles) := ⟨rfl, rfl, fun _ within => within⟩

theorem Bounds.pushHistory {before after : WakeCoordinator} (bounds : Bounds before after)
    (record : WakeHistory) : Bounds before (after.pushHistory record) := by
  refine ⟨bounds.maxCycles, bounds.maxHistory, fun positive within => ?_⟩
  have within := bounds.history positive within
  have same := bounds.maxHistory
  simp only [WakeCoordinator.pushHistory, List.length_append, List.length_singleton]
  split
  · rw [List.length_tail]
    omega
  · omega

theorem Bounds.pushAll {before after : WakeCoordinator} (bounds : Bounds before after)
    (records : List WakeHistory) : Bounds before (after.pushAll records) := by
  induction records generalizing after with
  | nil => exact bounds
  | cons record records ih => exact ih (bounds.pushHistory record)

/-- A cycle reserved for a transition that no cycle was kept for. -/
structure Fresh (digest : WakeDigest) (before : WakeCoordinator) (kept : List WakeCycle)
    (cycle : WakeCycle) : Prop where
  room : 0 < before.state.maxCycles → before.state.cycles.length ≤ before.state.maxCycles →
    kept.length < before.state.maxCycles
  unseen : cycle.identity ∉ before.state.cycles.map WakeCycle.identity
  unclaimed : cycle.attemptsStarted = 0
  limit : cycle.maxAttempts ≤ maxWakeAttempts
  idle : cycle.status ≠ .inFlight
  primary : cycle.windowKind = .primary
  plain : '\x00' ∉ cycle.accountId.toList
  key : cycle.key =
    digest.hex (cycleKeyText cycle.accountId cycle.windowKind cycle.transitionFingerprint)

/-- What a call does to the cycles. -/
structure Steps (digest : WakeDigest) (released : WakeCycle → Prop)
    (before after : WakeCoordinator) (issued : List WakePermit) : Prop where
  bounds : Bounds before after
  cycles : ∃ (kept : List WakeCycle) (fresh : Option WakeCycle),
    after.state.cycles = kept ++ fresh.toList ∧
      Aligned digest released before.state.cycles kept issued ∧
      ∀ cycle ∈ fresh, Fresh digest before kept cycle

/-- A call that only moves cycles. -/
theorem Steps.moving {before after : WakeCoordinator} {issued : List WakePermit}
    (bounds : Bounds before after)
    (aligned : Aligned digest released before.state.cycles after.state.cycles issued) :
    Steps digest released before after issued :=
  ⟨bounds, after.state.cycles, none, (List.append_nil _).symm, aligned, by simp⟩

theorem Steps.refl (coordinator : WakeCoordinator) :
    Steps digest released coordinator coordinator [] :=
  .moving ⟨rfl, rfl, fun _ within => within⟩ (.refl _)

theorem Steps.pushHistory {before after : WakeCoordinator} {issued : List WakePermit}
    (steps : Steps digest released before after issued) (record : WakeHistory) :
    Steps digest released before (after.pushHistory record) issued :=
  ⟨steps.bounds.pushHistory record, steps.cycles⟩

/-- A reservation appends the cycle, after one that was completed has made room. -/
theorem reserveCycle_some {coordinator reserved : WakeCoordinator} {cycle : WakeCycle}
    (reserves : coordinator.reserveCycle cycle = some reserved) :
    ∃ kept, reserved = coordinator.withCycles (kept ++ [cycle]) ∧
      Aligned digest released coordinator.state.cycles kept [] ∧
      (0 < coordinator.state.maxCycles →
        coordinator.state.cycles.length ≤ coordinator.state.maxCycles →
        kept.length < coordinator.state.maxCycles) := by
  dsimp only [reserveCycle] at reserves
  split at reserves
  next full =>
    split at reserves
    next index found =>
      cases reserves
      refine ⟨_, rfl, .evict _ found, fun positive within => ?_⟩
      obtain ⟨inside, _⟩ := List.findIdx?_eq_some_iff_getElem.mp found
      rw [List.length_eraseIdx_of_lt inside]
      omega
    next => cases reserves
  next room =>
    cases reserves
    exact ⟨_, rfl, .refl _, fun _ _ => Nat.lt_of_not_le room⟩

theorem Steps.reserve {coordinator reserved : WakeCoordinator} {cycle : WakeCycle}
    (reserves : coordinator.reserveCycle cycle = some reserved)
    (fresh : ∀ kept, (0 < coordinator.state.maxCycles →
      coordinator.state.cycles.length ≤ coordinator.state.maxCycles →
      kept.length < coordinator.state.maxCycles) → Fresh digest coordinator kept cycle) :
    Steps digest released coordinator reserved [] := by
  obtain ⟨kept, same, aligned, room⟩ := reserveCycle_some reserves
  subst same
  refine ⟨.withCycles _ _, kept, some cycle, rfl, aligned, fun other member => ?_⟩
  cases member
  exact fresh kept room

/-- No cycle of the transition: none with its identity. -/
theorem sameCycle_identity {cycle : WakeCycle} {accountId fingerprint : String}
    {windowKind : QuotaWindowKind} :
    sameCycle cycle accountId windowKind fingerprint = true ↔
      cycle.identity = (accountId, windowKind, fingerprint) := by
  simp only [sameCycle, WakeCycle.identity, Bool.and_eq_true, decide_eq_true_eq, Prod.mk.injEq,
    and_assoc]

private theorem completeByNaturalUse_steps {coordinator : WakeCoordinator} {task : WakeTask}
    {account : WakeAccount} {transition : QuotaTransition} {nowMs : Nat}
    (plain : '\x00' ∉ account.id.toList) (valid : task.maxAttemptsPerCycle ≤ maxWakeAttempts)
    (primary : transition.windowKind = .primary) :
    Steps digest released coordinator (coordinator.completeByNaturalUse task account transition
      (cycleKey digest account transition) nowMs).2 [] := by
  dsimp only [completeByNaturalUse]
  split
  next cycle found =>
    split
    next => exact .refl coordinator
    next =>
      refine Steps.pushHistory (.moving (.withCycles _ _) (.replace _ ?_)) _
      intro cycle moved changed
      split at changed
      next => cases changed; exact .finish cycle nowMs
      next => cases changed
  next absent =>
    split
    next => exact .refl coordinator
    next reserved reserves =>
      refine Steps.pushHistory (.reserve reserves fun kept room => ?_) _
      refine ⟨room, fun seen => ?_, rfl, valid, by simp, primary, plain, rfl⟩
      obtain ⟨cycle, member, same⟩ := List.mem_map.mp seen
      exact absurd (sameCycle_identity.mpr same) (List.find?_eq_none.mp absent cycle member)

theorem validate_attempts {task : WakeTask} (valid : task.validate = none) :
    task.maxAttemptsPerCycle ≤ maxWakeAttempts := by
  by_contra large
  have rejected : (!(decide (1 ≤ task.maxAttemptsPerCycle) &&
      decide (task.maxAttemptsPerCycle ≤ maxWakeAttempts))) = true := by simp [large]
  unfold WakeTask.validate at valid
  simp only [rejected, if_true] at valid
  repeat' split at valid
  all_goals cases valid

private theorem evaluate_steps {coordinator : WakeCoordinator} {task : WakeTask} {account : WakeAccount}
    {transition : QuotaTransition} {lastNaturalUseAtMs : Option Nat} {policy : WakeAdapterPolicy}
    {nowMs : Nat} (plain : '\x00' ∉ account.id.toList) :
    Steps digest released coordinator
      (evaluate digest coordinator task account transition lastNaturalUseAtMs policy nowMs).2
      [] := by
  unfold evaluate
  split
  next => exact .refl coordinator
  next valid =>
    split
    next => exact .refl coordinator
    next =>
      split
      next => exact .refl coordinator
      next allowed =>
        have primary : transition.windowKind = .primary := by
          simp only [eligible, Bool.not_eq_true', Bool.not_eq_false, Bool.and_eq_true,
            decide_eq_true_eq] at allowed
          exact allowed.1.1.1.1.2
        split
        next => exact completeByNaturalUse_steps plain (validate_attempts valid) primary
        next =>
          split
          next => exact .refl coordinator
          next unseen =>
            split
            next => exact .refl coordinator
            next modelId _ =>
              dsimp only
              split
              next => exact .refl coordinator
              next reserved reserves =>
                refine .reserve reserves fun kept room => ⟨room, fun seen => ?_, rfl,
                  validate_attempts valid, by simp [pendingCycle], primary, plain, rfl⟩
                obtain ⟨cycle, member, same⟩ := List.mem_map.mp seen
                exact unseen (List.any_eq_true.mpr
                  ⟨cycle, member, sameCycle_identity.mpr same⟩)

private theorem complete_steps {coordinator : WakeCoordinator} {permit : WakePermit}
    {completion : WakeCompletion} :
    Steps digest released coordinator (complete digest coordinator permit completion).2 [] := by
  dsimp only [complete]
  split
  next => exact .refl coordinator
  next =>
    refine Steps.pushHistory (.moving (.withCycles _ _) (.replace _ ?_)) _
    intro cycle moved changed
    split at changed
    next awaited =>
      cases changed
      simp only [awaits, Bool.and_eq_true, decide_eq_true_eq] at awaited
      unfold settle
      split
      next => exact .finish cycle _
      next => exact .retry cycle _ awaited.1.2
    next => cases changed

/-- What a cancellation leaves of a cycle: it is finished once claimed, released before. -/
def cancelCycle (selects : WakeCycle → Bool) (completedAtMs : Nat) (cycle : WakeCycle) :
    Option WakeCycle :=
  if cycle.status = .completed ∨ selects cycle = false then some cycle
  else if cycle.attemptsStarted ≠ 0 then some (cycle.finish completedAtMs)
  else none

theorem cancelMatching_cycles (coordinator : WakeCoordinator) (selects : WakeCycle → Bool)
    (completedAtMs : Nat) (errorCode : String) :
    (coordinator.cancelMatching selects completedAtMs errorCode).state.cycles =
      coordinator.state.cycles.filterMap (cancelCycle selects completedAtMs) := by
  simp only [cancelMatching, pushAll_cycles, withCycles_cycles]
  congr 1
  funext cycle
  unfold cancelCycle
  by_cases done : cycle.status = .completed <;> by_cases selected : selects cycle <;>
    simp [done, selected]

theorem cancelMatching_bounds (coordinator : WakeCoordinator) (selects : WakeCycle → Bool)
    (completedAtMs : Nat) (errorCode : String) :
    Bounds coordinator (coordinator.cancelMatching selects completedAtMs errorCode) :=
  (Bounds.withCycles _ _).pushAll _

theorem cancelCycle_some {selects : WakeCycle → Bool} {completedAtMs : Nat}
    {cycle moved : WakeCycle} (stays : cancelCycle selects completedAtMs cycle = some moved) :
    ((cycle.status = .completed ∨ selects cycle = false) ∧ moved = cycle) ∨
      (cycle.status ≠ .completed ∧ moved = cycle.finish completedAtMs) := by
  unfold cancelCycle at stays
  split at stays
  next kept => cases stays; exact .inl ⟨kept, rfl⟩
  next cancelled =>
    split at stays
    next => cases stays; exact .inr ⟨(not_or.mp cancelled).1, rfl⟩
    next => cases stays

theorem cancelCycle_none {selects : WakeCycle → Bool} {completedAtMs : Nat} {cycle : WakeCycle}
    (released : cancelCycle selects completedAtMs cycle = none) :
    selects cycle = true ∧ cycle.attemptsStarted = 0 := by
  unfold cancelCycle at released
  split at released
  next => cases released
  next cancelled =>
    split at released
    next => cases released
    next unclaimed =>
      simp only [not_or, Bool.not_eq_false] at cancelled
      exact ⟨cancelled.2, not_not.mp unclaimed⟩

theorem cancelMatching_steps {coordinator : WakeCoordinator} {selects : WakeCycle → Bool}
    {completedAtMs : Nat} {errorCode : String}
    (releases : ∀ cycle, selects cycle = true → cycle.attemptsStarted = 0 → released cycle) :
    Steps digest released coordinator
      (coordinator.cancelMatching selects completedAtMs errorCode) [] := by
  refine .moving (cancelMatching_bounds _ _ _ _) ?_
  rw [cancelMatching_cycles]
  refine .filterMap _ (fun cycle moved stays => ?_) fun cycle dropped => ?_
  · cases cancelCycle_some stays with
    | inl same => rw [same.2]; exact .stay cycle
    | inr same => rw [same.2]; exact .finish cycle completedAtMs
  · exact .inr (releases cycle (cancelCycle_none dropped).1 (cancelCycle_none dropped).2)

/-! ### A restart -/

private theorem reload_moves (cycle : WakeCycle) : Moves digest cycle none (reload digest cycle) := by
  unfold reload
  split
  next flying =>
    split
    · exact .retry cycle _ flying
    · exact .finish cycle _
  next => exact .stay cycle

theorem reload_kept (cycle : WakeCycle) :
    (reload digest cycle).attemptsStarted = cycle.attemptsStarted ∧
      (reload digest cycle).windowKind = cycle.windowKind := by
  unfold reload
  split
  · split <;> exact ⟨rfl, rfl⟩
  · exact ⟨rfl, rfl⟩

/-- What a restart leaves of a cycle. -/
def restartCycle (digest : WakeDigest) (cycle : WakeCycle) : Option WakeCycle :=
  cancelCycle (fun cycle => cycle.windowKind ≠ .primary) 0 (reload digest cycle)

private theorem restartCycle_some {cycle moved : WakeCycle}
    (stays : restartCycle digest cycle = some moved) : Moves digest cycle none moved := by
  cases cancelCycle_some stays with
  | inl same => rw [same.2]; exact reload_moves cycle
  | inr cancelled =>
      obtain ⟨running, same⟩ := cancelled
      rw [same]
      unfold reload at running ⊢
      split
      next flying =>
        split
        next => exact .lose cycle _ _ flying
        next spent => rw [if_pos flying, if_neg spent] at running; exact absurd rfl running
      next => exact .finish cycle 0

private theorem fromState_ok {state : WakeAutomationState} {loaded : WakeCoordinator}
    (loads : fromState digest state = .ok loaded) :
    loaded.state.cycles = state.cycles.filterMap (restartCycle digest) ∧
      Bounds ⟨state⟩ loaded := by
  dsimp only [fromState] at loads
  split at loads
  next => cases loads
  next =>
    cases loads
    refine ⟨?_, ?_⟩
    · rw [cancelMatching_cycles, List.filterMap_map]
      rfl
    · have bounds := cancelMatching_bounds ⟨{ state with
        cycles := state.cycles.map (reload digest)
        history := state.history.map fun record =>
          { record with errorCode := record.errorCode.map safeErrorCode } }⟩
        (fun cycle => cycle.windowKind ≠ .primary) 0 "wake_window_redundant"
      refine ⟨bounds.maxCycles, bounds.maxHistory, fun positive within => ?_⟩
      exact bounds.history positive (by simpa using within)

private theorem restart_steps {state : WakeAutomationState} {loaded : WakeCoordinator}
    (loads : fromState digest state = .ok loaded)
    (releases : ∀ cycle : WakeCycle, cycle.windowKind ≠ .primary → cycle.attemptsStarted = 0 →
      released cycle) :
    Steps digest released ⟨state⟩ loaded [] := by
  obtain ⟨cycles, bounds⟩ := fromState_ok loads
  refine .moving bounds ?_
  rw [cycles]
  refine .filterMap _ (fun cycle moved => restartCycle_some) fun cycle dropped => .inr ?_
  have gone := cancelCycle_none dropped
  rw [(reload_kept cycle).1, (reload_kept cycle).2] at gone
  exact releases cycle (of_decide_eq_true gone.1) gone.2

/-! ### Every call -/

/-- The call releases the cycle: it cancels it before any attempt. -/
def Releases (call : WakeCall) (cycle : WakeCycle) : Prop :=
  call.cancels cycle ∧ cycle.attemptsStarted = 0

theorem perform_steps (digest : WakeDigest) (coordinator : WakeCoordinator) (call : WakeCall)
    (plain : call.Plain) :
    Steps digest (Releases call) coordinator (perform digest coordinator call).1
      (perform digest coordinator call).2 := by
  cases call with
  | evaluate => exact evaluate_steps plain
  | claimDue nowMs maxClaims mode => exact .moving (.withCycles _ _) (.claims nowMs mode maxClaims _)
  | complete => exact complete_steps
  | markNaturalUse accountId usedAtMs =>
      refine .moving ((Bounds.withCycles _ _).pushAll _) ?_
      simp only [perform, markNaturalUseForAccount, pushAll_cycles, withCycles_cycles]
      refine .map _ fun cycle _ => ?_
      split
      · exact .finish cycle usedAtMs
      · exact .stay cycle
  | removePendingForTask =>
      refine cancelMatching_steps fun cycle selected unclaimed => ⟨?_, unclaimed⟩
      exact of_decide_eq_true (p := cycle.taskId = _) selected
  | removePendingForAccount =>
      refine cancelMatching_steps fun cycle selected unclaimed => ⟨?_, unclaimed⟩
      exact of_decide_eq_true (p := cycle.accountId = _) selected
  | restart =>
      dsimp only [perform]
      cases loads : fromState digest coordinator.state with
      | ok loaded =>
          exact restart_steps loads fun cycle redundant unclaimed => ⟨redundant, unclaimed⟩
      | error _ => exact .refl coordinator

/-! ### Ledgers -/

/-- `complete` accepts the permit, or `isPermitActive` reports it. -/
def Accepts (digest : WakeDigest) (coordinator : WakeCoordinator) (permit : WakePermit) : Prop :=
  coordinator.isPermitActive permit = true ∨
    ∃ completion, (complete digest coordinator permit completion).1 = true

theorem Accepts.awaited {coordinator : WakeCoordinator} {permit : WakePermit}
    (accepts : Accepts digest coordinator permit) :
    ∃ cycle ∈ coordinator.state.cycles, cycle.key = permit.cycleKey ∧
      cycle.status = .inFlight ∧ cycle.attemptsStarted = permit.attempt := by
  cases accepts with
  | inl active =>
      obtain ⟨cycle, member, matched⟩ := List.any_eq_true.mp active
      simp only [Bool.and_eq_true, decide_eq_true_eq] at matched
      exact ⟨cycle, member, matched.1.1.1.1.1.1, matched.1.1.1.1.1.2, matched.1.1.1.1.2⟩
  | inr completes =>
      obtain ⟨completion, accepted⟩ := completes
      dsimp only [complete] at accepted
      split at accepted
      next => cases accepted
      next cycle found =>
        have matched := List.find?_some found
        simp only [awaits, Bool.and_eq_true, decide_eq_true_eq] at matched
        exact ⟨cycle, List.mem_of_find?_eq_some found, matched.1.1, matched.1.2, matched.2⟩

/-- The permit that the call completes, when the coordinator accepts it. -/
def accepted (digest : WakeDigest) (coordinator : WakeCoordinator) : WakeCall → List WakePermit
  | .complete permit completion =>
    if (complete digest coordinator permit completion).1 then [permit] else []
  | _ => []

end WakeCoordinator

/-- The permits issued from the cycles that are kept, and those of them that `complete` has
accepted, in order. -/
structure Ledger where
  coordinator : WakeCoordinator
  permits : List WakePermit
  accepted : List WakePermit

namespace Ledger

def cycles (ledger : Ledger) : List WakeCycle := ledger.coordinator.state.cycles

def permitsOf (ledger : Ledger) (cycle : WakeCycle) : List WakePermit :=
  ledger.permits.filter (·.cycleKey = cycle.key)

def step (digest : WakeDigest) (ledger : Ledger) (call : WakeCall) : Ledger :=
  let after := ledger.coordinator.perform digest call
  let kept (permit : WakePermit) : Bool := permit.cycleKey ∈ after.1.state.cycles.map (·.key)
  ⟨after.1, (ledger.permits ++ after.2).filter kept,
    (ledger.accepted ++ ledger.coordinator.accepted digest call).filter kept⟩

def run (digest : WakeDigest) (ledger : Ledger) (calls : List WakeCall) : Ledger :=
  calls.foldl (step digest) ledger

end Ledger

end ZenithRelay.Automations
