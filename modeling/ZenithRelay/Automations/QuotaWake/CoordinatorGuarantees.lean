import ZenithRelay.Automations.QuotaWake.CoordinatorSafety

/-!
# What every run of the wake coordinator guarantees

As long as the record of a transition is kept, the transition gets no more permits than
its attempts, none after it ended, and `complete` takes each of them once.
-/

set_option autoImplicit false

namespace ZenithRelay.Automations

open Quota WakeCoordinator

variable {digest : WakeDigest}

namespace Ledger

/-! ### Runs -/

theorem new_sound {maxCycles maxHistory : Nat} {coordinator : WakeCoordinator}
    (made : WakeCoordinator.new maxCycles maxHistory = .ok coordinator) :
    Sound digest ⟨coordinator, [], []⟩ ∧ coordinator.state.maxCycles = maxCycles ∧
      coordinator.state.maxHistory = maxHistory := by
  unfold WakeCoordinator.new at made
  split at made
  next => cases made
  next positive =>
    cases made
    refine ⟨⟨?_, Nat.zero_le _, Nat.zero_le _, List.nodup_nil, ?_, ?_, ?_, ?_, ?_, ?_, ?_, ?_,
      List.nodup_nil⟩, rfl, rfl⟩
    · exact ⟨Nat.pos_of_ne_zero fun zero => positive (.inl zero),
        Nat.pos_of_ne_zero fun zero => positive (.inr zero)⟩
    all_goals simp [cycles]

theorem Sound.run {ledger : Ledger} (sound : Sound digest ledger) {calls : List WakeCall}
    (plain : ∀ call ∈ calls, call.Plain) : Sound digest (ledger.run digest calls) := by
  induction calls generalizing ledger with
  | nil => exact sound
  | cons call calls ih =>
      exact ih (sound.step (plain call List.mem_cons_self))
        fun other member => plain other (List.mem_cons_of_mem _ member)

theorem run_bounds (ledger : Ledger) {calls : List WakeCall} (plain : ∀ call ∈ calls, call.Plain) :
    (ledger.run digest calls).coordinator.state.maxCycles =
        ledger.coordinator.state.maxCycles ∧
      (ledger.run digest calls).coordinator.state.maxHistory =
        ledger.coordinator.state.maxHistory := by
  induction calls generalizing ledger with
  | nil => exact ⟨rfl, rfl⟩
  | cons call calls ih =>
      have bounds := (perform_steps digest ledger.coordinator call
        (plain call List.mem_cons_self)).bounds
      have later := ih (ledger.step digest call)
        fun other member => plain other (List.mem_cons_of_mem _ member)
      exact ⟨later.1.trans bounds.maxCycles, later.2.trans bounds.maxHistory⟩

/-! ### Permits of one cycle -/

namespace Sound

variable {ledger : Ledger}

/-- Two permits of one cycle with the same attempt are the same permit. -/
theorem permit_unique (sound : Sound digest ledger) {cycle : WakeCycle}
    (member : cycle ∈ ledger.cycles) {permit other : WakePermit} (issued : permit ∈ ledger.permits)
    (otherIssued : other ∈ ledger.permits) (key : permit.cycleKey = cycle.key)
    (otherKey : other.cycleKey = cycle.key) (same : permit.attempt = other.attempt) :
    permit = other := by
  have distinct : ((ledger.permitsOf cycle).map (·.attempt)).Nodup := by
    rw [sound.issued cycle member]
    exact List.nodup_range'
  have own {permit : WakePermit} (issued : permit ∈ ledger.permits)
      (key : permit.cycleKey = cycle.key) : permit ∈ ledger.permitsOf cycle :=
    List.mem_filter.mpr ⟨issued, decide_eq_true key⟩
  exact List.inj_on_of_nodup_map distinct (own issued key) (own otherIssued otherKey) same

/-- Only the permit of the attempt in flight is accepted. -/
theorem accepts_unique (sound : Sound digest ledger) {permit other : WakePermit}
    (issued : permit ∈ ledger.permits) (otherIssued : other ∈ ledger.permits)
    (same : permit.cycleKey = other.cycleKey) (accepts : Accepts digest ledger.coordinator permit)
    (otherAccepts : Accepts digest ledger.coordinator other) : permit = other := by
  obtain ⟨cycle, member, key, _, attempt⟩ := accepts.awaited
  obtain ⟨otherCycle, otherMember, otherKey, _, otherAttempt⟩ := otherAccepts.awaited
  obtain rfl := sound.same_cycle member otherMember
    (key.trans (same.trans otherKey.symm))
  exact sound.permit_unique member issued otherIssued key.symm otherKey.symm
    (attempt.symm.trans otherAttempt)

theorem permits_length (sound : Sound digest ledger) {cycle : WakeCycle}
    (member : cycle ∈ ledger.cycles) :
    (ledger.permitsOf cycle).length = cycle.attemptsStarted := by
  have lengths := congrArg List.length (sound.issued cycle member)
  rwa [List.length_map, List.length_range'] at lengths

/-! ### One call -/

/-- A cycle that a call leaves comes from the one with its key. -/
theorem step_origin (sound : Sound digest ledger) {call : WakeCall} (plain : call.Plain)
    {cycle after : WakeCycle} (member : cycle ∈ ledger.cycles)
    (stays : after ∈ (ledger.step digest call).cycles) (same : after.key = cycle.key) :
    ∃ issued, Moved cycle after issued ∧
      (ledger.step digest call).permitsOf after = ledger.permitsOf cycle ++ issued.toList := by
  cases (sound.stepped plain after stays).origin with
  | inl moving =>
      obtain ⟨old, found, issued, _, moved, permits⟩ := moving
      obtain rfl := sound.same_cycle found member (moved.key.symm.trans same)
      exact ⟨issued, moved, permits⟩
  | inr new =>
      obtain ⟨kept, fresh, _⟩ := new
      exact absurd same.symm (sound.fresh_key fresh cycle member)

/-- A cycle that has ended stays so, and gets no permit. -/
theorem ended_step (sound : Sound digest ledger) {call : WakeCall} (plain : call.Plain)
    {cycle after : WakeCycle} (member : cycle ∈ ledger.cycles) (ended : cycle.status = .completed)
    (stays : after ∈ (ledger.step digest call).cycles) (same : after.key = cycle.key) :
    after.status = .completed ∧
      (ledger.step digest call).permitsOf after = ledger.permitsOf cycle := by
  obtain ⟨issued, moved, permits⟩ := sound.step_origin plain member stays same
  obtain ⟨still, none⟩ := moved.completed ended
  rw [permits, none]
  exact ⟨still, List.append_nil _⟩

/-- A cycle that has not ended is kept, unless it is cancelled before any claim. -/
theorem running_kept (sound : Sound digest ledger) {call : WakeCall} (plain : call.Plain)
    {cycle : WakeCycle} (member : cycle ∈ ledger.cycles) (running : cycle.status ≠ .completed) :
    (∃ after ∈ (ledger.step digest call).cycles, after.key = cycle.key) ∨
      Releases call cycle := by
  obtain ⟨kept, fresh, cycles, aligned, _⟩ :=
    (perform_steps digest ledger.coordinator call plain).cycles
  rcases aligned.stays cycle member with ⟨after, found, permit, moves⟩ | ended | released
  · refine .inl ⟨after, ?_, (moves.moved (sound.limit cycle member)).key⟩
    show after ∈ (perform digest ledger.coordinator call).1.state.cycles
    rw [cycles]
    exact List.mem_append_left _ found
  · exact absurd ended running
  · exact .inr released

end Sound

/-! ### Calls that end a cycle -/

/-- The attempt is confirmed, a natural use is seen, or the cycle is cancelled. -/
def Ends (digest : WakeDigest) (ledger : Ledger) (call : WakeCall) (cycle : WakeCycle) : Prop :=
  match call with
  | .complete permit completion => permit.cycleKey = cycle.key ∧ completion.outcome = .confirmed ∧
      (WakeCoordinator.complete digest ledger.coordinator permit completion).1 = true
  | .evaluate task account transition lastNaturalUseAtMs policy nowMs =>
      cycle.identity = (account.id, transition.windowKind, transition.fingerprint) ∧
        (WakeCoordinator.evaluate digest ledger.coordinator task account transition
          lastNaturalUseAtMs policy nowMs).1 = .skipped .skippedAlreadyStarted
  | .markNaturalUse accountId _ => cycle.accountId = accountId
  | call => call.cancels cycle

theorem Sound.ends_step {ledger : Ledger} (sound : Sound digest ledger) {call : WakeCall}
    (plain : call.Plain) {cycle : WakeCycle} (stays : cycle ∈ (ledger.step digest call).cycles)
    (ends : Ends digest ledger call cycle) : cycle.status = .completed := by
  have primary := (sound.step plain).primary cycle stays
  cases call with
  | evaluate task account transition lastNaturalUseAtMs policy nowMs =>
      exact evaluate_finishes sound.distinct sound.limit ends.2 cycle stays ends.1
  | claimDue nowMs maxClaims mode => exact ends.elim
  | complete permit completion =>
      obtain ⟨key, confirmed, completes⟩ := ends
      obtain ⟨old, _, _, settles⟩ := complete_settles sound.keys_distinct completes
      obtain ⟨endedAtMs, same⟩ := settles cycle stays key.symm
      rw [same, confirmed, settle, if_pos (by simp)]
      rfl
  | markNaturalUse accountId usedAtMs =>
      have used : cycle.accountId = accountId := ends
      have stays : cycle ∈ (ledger.coordinator.markNaturalUseForAccount accountId
        usedAtMs).state.cycles := stays
      simp only [markNaturalUseForAccount, pushAll_cycles, withCycles_cycles] at stays
      obtain ⟨old, _, same⟩ := List.mem_map.mp stays
      split at same
      next => exact same ▸ rfl
      next kept =>
        subst same
        by_contra running
        exact kept (by simp [running, used])
  | removePendingForTask taskId completedAtMs =>
      have task : cycle.taskId = taskId := ends
      exact (cancelMatching_finishes cycle stays).resolve_right (by simp [task])
  | removePendingForAccount accountId completedAtMs =>
      have account : cycle.accountId = accountId := ends
      exact (cancelMatching_finishes cycle stays).resolve_right (by simp [account])
  | restart => exact absurd primary ends

/-! ### Records that are kept -/

/-- A cycle with the key is there after each of the calls. -/
def Keeps (digest : WakeDigest) (key : String) : Ledger → List WakeCall → Prop
  | _, [] => True
  | ledger, call :: calls =>
    key ∈ (ledger.step digest call).cycles.map (·.key) ∧ Keeps digest key (ledger.step digest call) calls

/-- No permit is issued for an ended cycle while its record is kept, across restarts. -/
theorem Sound.ended_run {ledger : Ledger} (sound : Sound digest ledger) {calls : List WakeCall}
    (plain : ∀ call ∈ calls, call.Plain) {cycle : WakeCycle} (member : cycle ∈ ledger.cycles)
    (ended : cycle.status = .completed) (keeps : Keeps digest cycle.key ledger calls) :
    ∀ after ∈ (ledger.run digest calls).cycles, after.key = cycle.key →
      after.status = .completed ∧
        (ledger.run digest calls).permitsOf after = ledger.permitsOf cycle := by
  induction calls generalizing ledger cycle with
  | nil =>
      intro after stays same
      obtain rfl := sound.same_cycle stays member same
      exact ⟨ended, rfl⟩
  | cons call calls ih =>
      obtain ⟨kept, keeps⟩ := keeps
      obtain ⟨middle, found, key⟩ := List.mem_map.mp kept
      have plainCall := plain call List.mem_cons_self
      obtain ⟨still, permits⟩ := sound.ended_step plainCall member ended found key
      intro after stays same
      have later := ih (sound.step plainCall)
        (fun other inside => plain other (List.mem_cons_of_mem _ inside)) found still
        (key.symm ▸ keeps) after stays (same.trans key.symm)
      exact ⟨later.1, later.2.trans permits⟩

/-! ### The guarantees -/

/-- What holds of the ledger between two calls. -/
structure Guarantees (digest : WakeDigest) (ledger : Ledger) : Prop where
  cycles : ledger.cycles.length ≤ ledger.coordinator.state.maxCycles
  history : ledger.coordinator.state.history.length ≤ ledger.coordinator.state.maxHistory
  distinct : (ledger.cycles.map WakeCycle.identity).Nodup
  single : ∀ permit ∈ ledger.permits, ∀ other ∈ ledger.permits,
    permit.cycleKey = other.cycleKey → Accepts digest ledger.coordinator permit →
    Accepts digest ledger.coordinator other → permit = other
  attempts : ∀ cycle ∈ ledger.cycles, cycle.attemptsStarted ≤ cycle.maxAttempts ∧
    (ledger.permitsOf cycle).length = cycle.attemptsStarted
  once : ledger.accepted.Nodup

/-- What the next call keeps. -/
structure NextGuarantees (digest : WakeDigest) (ledger : Ledger) (call : WakeCall) : Prop where
  grows : ∀ cycle ∈ ledger.cycles, ∀ after ∈ (ledger.step digest call).cycles,
    after.key = cycle.key →
      after.maxAttempts = cycle.maxAttempts ∧ cycle.attemptsStarted ≤ after.attemptsStarted
  kept : ∀ cycle ∈ ledger.cycles, cycle.status ≠ .completed →
    (∃ after ∈ (ledger.step digest call).cycles, after.key = cycle.key) ∨ Releases call cycle
  /-- No permit follows the end of a cycle whose record is kept. -/
  ends : ∀ cycle ∈ (ledger.step digest call).cycles, Ends digest ledger call cycle →
    ∀ later, (∀ call ∈ later, call.Plain) →
      Keeps digest cycle.key (ledger.step digest call) later →
      ∀ after ∈ ((ledger.step digest call).run digest later).cycles, after.key = cycle.key →
        ((ledger.step digest call).run digest later).permitsOf after =
          (ledger.step digest call).permitsOf cycle

theorem Sound.guarantees {ledger : Ledger} (sound : Sound digest ledger) :
    Guarantees digest ledger where
  cycles := sound.within
  history := sound.history
  distinct := sound.distinct
  single _ issued _ otherIssued same accepts otherAccepts :=
    sound.accepts_unique issued otherIssued same accepts otherAccepts
  attempts cycle member := ⟨sound.attempts cycle member, sound.permits_length member⟩
  once := sound.once

theorem Sound.nextGuarantees {ledger : Ledger} (sound : Sound digest ledger) {call : WakeCall}
    (plain : call.Plain) : NextGuarantees digest ledger call where
  grows cycle member after stays same := by
    obtain ⟨issued, moved, _⟩ := sound.step_origin plain member stays same
    exact ⟨moved.maxAttempts, moved.attempts ▸ Nat.le_add_right _ _⟩
  kept cycle member running := sound.running_kept plain member running
  ends cycle stays ends later plainLater keeps after found same :=
    ((sound.step plain).ended_run plainLater stays (sound.ends_step plain stays ends) keeps after
      found same).2

/-- Whatever is called in whatever order, with restarts in between, the coordinator keeps
its bounds, issues no more permits for a kept transition than its attempts and none after
its end, and accepts each permit of a kept transition once. -/
theorem run_guarantees (digest : WakeDigest) {maxCycles maxHistory : Nat}
    {coordinator : WakeCoordinator}
    (made : WakeCoordinator.new maxCycles maxHistory = .ok coordinator) (calls : List WakeCall)
    (plain : ∀ call ∈ calls, call.Plain) :
    let ledger := run digest ⟨coordinator, [], []⟩ calls
    ledger.coordinator.state.maxCycles = maxCycles ∧
      ledger.coordinator.state.maxHistory = maxHistory ∧ Guarantees digest ledger ∧
      ∀ call : WakeCall, call.Plain → NextGuarantees digest ledger call := by
  obtain ⟨sound, cycles, history⟩ := @new_sound digest _ _ _ made
  obtain ⟨sameCycles, sameHistory⟩ := @run_bounds digest ⟨coordinator, [], []⟩ calls plain
  have reached := sound.run plain
  exact ⟨sameCycles.trans cycles, sameHistory.trans history, reached.guarantees,
    fun _ plainCall => reached.nextGuarantees plainCall⟩

/-! ### A transition that is evicted -/

/-- The permits that the calls issue, and those that `complete` accepts, in order. -/
def outcomes (digest : WakeDigest) : WakeCoordinator → List WakeCall →
    List WakePermit × List WakePermit
  | _, [] => ([], [])
  | coordinator, call :: calls =>
    let after := coordinator.perform digest call
    let rest := outcomes digest after.1 calls
    (after.2 ++ rest.1, coordinator.accepted digest call ++ rest.2)

def plainDigest : WakeDigest := ⟨id, Function.injective_id, fun _ => 0⟩

def wokenAccount : WakeAccount where
  id := "account"
  identity := ⟨"index", "hash", none⟩
  authMode := .oAuth
  authState := .active
  health := .healthy
  sourceId := "source"
  secretRefs := []
  enabled := true
  inPool := true
  draining := false
  createdAtMs := 0
  lastErrorCode := none
  details := ⟨∅, ⟨none, none, [], false, none, none, false, false, none, none, none, none⟩⟩

def wakeTask : WakeTask where
  id := "task"
  name := "Task"
  enabled := true
  accountSelector := .allEligible
  windowKinds := {.primary}
  modelPolicy := .lightestSupported
  trigger := .quotaFull
  fallbackSchedule := none
  executionPolicy := .automatic
  jitterSeconds := 0
  maxAttemptsPerCycle := 2

def wakePolicy : WakeAdapterPolicy := ⟨{.primary}, [⟨"model", 0, true⟩], 0, 1⟩

def evaluateCall (fingerprint : String) : WakeCall :=
  .evaluate wakeTask wokenAccount ⟨.primary, fingerprint, 0⟩ none wakePolicy 0

/-- The permit of the first attempt for a transition. -/
def firstPermit (fingerprint : String) : WakePermit where
  cycleKey := cycleKeyText "account" .primary fingerprint
  taskId := "task"
  accountId := "account"
  windowKind := .primary
  transitionFingerprint := fingerprint
  modelId := "model"
  trigger := .quotaFull
  requiresConfirmation := false
  verificationDelayMs := 0
  outputTokenCap := 1
  attempt := 1
  dueAtMs := 0
  reservedAtMs := 0
  request := ⟨"account", "model", .primary, 1⟩
  verification := ⟨.primary, none, 0⟩

/-- A transition is evaluated, claimed and completed. -/
def wakeCalls (fingerprint : String) : List WakeCall :=
  [evaluateCall fingerprint, .claimDue 0 1 .any,
    .complete (firstPermit fingerprint) ⟨.confirmed, 0, none, none, none, none⟩]

theorem wakeCalls_plain (fingerprint : String) : ∀ call ∈ wakeCalls fingerprint, call.Plain := by
  simp only [wakeCalls, List.forall_mem_cons, WakeCall.Plain, evaluateCall]
  exact ⟨by decide, trivial, trivial, by simp⟩

def oneRecord : WakeCoordinator := ⟨⟨1, 1, [], []⟩⟩

/-- The record of the first transition gives way to the second. Evaluated once more, the
first transition has a new record, and its old permit is accepted again. -/
theorem evicted_permit_accepted_again :
    WakeCoordinator.new 1 1 = .ok oneRecord ∧
      firstPermit "first" ∈ (outcomes plainDigest oneRecord
        (wakeCalls "first" ++ wakeCalls "second" ++ wakeCalls "first")).1 ∧
      ¬(outcomes plainDigest oneRecord
        (wakeCalls "first" ++ wakeCalls "second" ++ wakeCalls "first")).2.Nodup := by
  decide +kernel

/-- The run of the first transition leaves its one permit, which was accepted. -/
theorem run_guarantees_wakeCalls :
    Guarantees plainDigest (run plainDigest ⟨oneRecord, [], []⟩ (wakeCalls "first")) ∧
      (run plainDigest ⟨oneRecord, [], []⟩ (wakeCalls "first")).accepted =
        [firstPermit "first"] :=
  ⟨(run_guarantees plainDigest (rfl : WakeCoordinator.new 1 1 = .ok oneRecord)
      (wakeCalls "first") (wakeCalls_plain "first")).2.2.1, by decide +kernel⟩

end Ledger

end ZenithRelay.Automations
