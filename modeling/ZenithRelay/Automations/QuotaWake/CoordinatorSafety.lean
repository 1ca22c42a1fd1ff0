import ZenithRelay.Automations.QuotaWake.CoordinatorRuns

/-!
# Safety of the wake coordinator

The invariant of all ledgers of a run, and what a run may do to a transition's quota.
-/

set_option autoImplicit false

namespace ZenithRelay.Automations

open Quota

variable {digest : WakeDigest}

/-- What every ledger of a run satisfies. -/
structure Ledger.Sound (digest : WakeDigest) (ledger : Ledger) : Prop where
  positive : 0 < ledger.coordinator.state.maxCycles ∧ 0 < ledger.coordinator.state.maxHistory
  within : ledger.cycles.length ≤ ledger.coordinator.state.maxCycles
  history : ledger.coordinator.state.history.length ≤ ledger.coordinator.state.maxHistory
  distinct : (ledger.cycles.map WakeCycle.identity).Nodup
  plain : ∀ cycle ∈ ledger.cycles, '\x00' ∉ cycle.accountId.toList
  keyed : ∀ cycle ∈ ledger.cycles, cycle.key =
    digest.hex (cycleKeyText cycle.accountId cycle.windowKind cycle.transitionFingerprint)
  primary : ∀ cycle ∈ ledger.cycles, cycle.windowKind = .primary
  attempts : ∀ cycle ∈ ledger.cycles, cycle.attemptsStarted ≤ cycle.maxAttempts
  limit : ∀ cycle ∈ ledger.cycles, cycle.maxAttempts ≤ maxWakeAttempts
  issued : ∀ cycle ∈ ledger.cycles,
    (ledger.permitsOf cycle).map (·.attempt) = List.range' 1 cycle.attemptsStarted
  labelled : ∀ permit ∈ ledger.permits, ∃ cycle ∈ ledger.cycles,
    permit.identity = cycle.identity ∧ permit.cycleKey = cycle.key
  spent : ∀ permit ∈ ledger.accepted, ∃ cycle ∈ ledger.cycles, permit.cycleKey = cycle.key ∧
    permit.attempt ≤ cycle.attemptsStarted ∧
    (cycle.status = .inFlight → permit.attempt < cycle.attemptsStarted)
  once : ledger.accepted.Nodup

namespace Ledger

/-! ### Keys and identities -/

theorem identity_of_key {cycle other : WakeCycle}
    (plain : '\x00' ∉ cycle.accountId.toList) (otherPlain : '\x00' ∉ other.accountId.toList)
    (keyed : cycle.key =
      digest.hex (cycleKeyText cycle.accountId cycle.windowKind cycle.transitionFingerprint))
    (otherKeyed : other.key =
      digest.hex (cycleKeyText other.accountId other.windowKind other.transitionFingerprint))
    (same : cycle.key = other.key) : cycle.identity = other.identity :=
  cycleKeyText_injective plain otherPlain
    (digest.hex_injective (keyed.symm.trans (same.trans otherKeyed)))

namespace Sound

variable {ledger : Ledger}

theorem same_cycle (sound : Sound digest ledger) {cycle other : WakeCycle}
    (member : cycle ∈ ledger.cycles) (found : other ∈ ledger.cycles)
    (same : cycle.key = other.key) : cycle = other :=
  List.inj_on_of_nodup_map sound.distinct member found
    (identity_of_key (sound.plain _ member) (sound.plain _ found) (sound.keyed _ member)
      (sound.keyed _ found) same)

theorem keys_distinct (sound : Sound digest ledger) : (ledger.cycles.map WakeCycle.key).Nodup :=
  (List.nodup_map_iff_inj_on (List.Nodup.of_map _ sound.distinct)).mpr
    fun _ member _ found same => sound.same_cycle member found same

/-- The key of a cycle for an unseen transition is new. -/
theorem fresh_key (sound : Sound digest ledger) {kept : List WakeCycle} {cycle : WakeCycle}
    (fresh : WakeCoordinator.Fresh digest ledger.coordinator kept cycle) :
    ∀ other ∈ ledger.cycles, other.key ≠ cycle.key := by
  intro other member same
  refine fresh.unseen ?_
  rw [← identity_of_key (sound.plain _ member) fresh.plain (sound.keyed _ member) fresh.key same]
  exact List.mem_map_of_mem member

end Sound

end Ledger

/-! ### Completion -/

namespace WakeCoordinator

/-- Only one cycle has the label, and that one is replaced. -/
theorem replaced_cycle {α : Type} {project : WakeCycle → α} {label : α}
    {selects : WakeCycle → Bool} {change : WakeCycle → WakeCycle} {cycles : List WakeCycle}
    {cycle : WakeCycle} (labelled : ∀ cycle, selects cycle = true → project cycle = label)
    (distinct : (cycles.map project).Nodup) (found : cycles.find? selects = some cycle) :
    ∀ other ∈ cycles.replaceF (fun found => if selects found then some (change found) else none),
      project other = label → other = change cycle := by
  induction cycles with
  | nil => cases found
  | cons head cycles ih =>
      obtain ⟨absent, distinct⟩ := List.nodup_cons.mp distinct
      intro other member same
      rw [List.replaceF_cons] at member
      by_cases selected : selects head = true
      · rw [List.find?_cons_of_pos selected] at found
        cases found
        simp only [selected, if_true] at member
        cases List.mem_cons.mp member with
        | inl here => exact here
        | inr later =>
            refine absurd (List.mem_map_of_mem (f := project) later) ?_
            rw [same, ← labelled cycle selected]
            exact absent
      · rw [List.find?_cons_of_neg selected] at found
        simp only [selected] at member
        cases List.mem_cons.mp member with
        | inl here =>
            refine absurd (List.mem_map_of_mem (f := project) (List.mem_of_find?_eq_some found)) ?_
            rw [labelled cycle (List.find?_some found), ← same, here]
            exact absent
        | inr later => exact ih distinct found other later same

private theorem awaits_key {permit : WakePermit} {cycle : WakeCycle}
    (awaited : awaits permit cycle = true) : cycle.key = permit.cycleKey := by
  simp only [awaits, Bool.and_eq_true, decide_eq_true_eq] at awaited
  exact awaited.1.1

/-- An accepted completion settles the permit's cycle. -/
theorem complete_settles {coordinator : WakeCoordinator} {permit : WakePermit}
    {completion : WakeCompletion}
    (distinct : (coordinator.state.cycles.map WakeCycle.key).Nodup)
    (completes : (complete digest coordinator permit completion).1 = true) :
    ∃ cycle ∈ coordinator.state.cycles, awaits permit cycle = true ∧
      ∀ other ∈ (complete digest coordinator permit completion).2.state.cycles,
        other.key = permit.cycleKey → ∃ endedAtMs,
          other = settle digest cycle completion.outcome endedAtMs := by
  dsimp only [complete] at completes ⊢
  split at completes
  next => cases completes
  next cycle found =>
    refine ⟨cycle, List.mem_of_find?_eq_some found, List.find?_some found, ?_⟩
    intro other member same
    exact ⟨_, replaced_cycle (fun _ => awaits_key) distinct found other member same⟩

private theorem settle_kept (digest : WakeDigest) (cycle : WakeCycle)
    (outcome : WakeCompletionOutcome) (endedAtMs : Nat) :
    (settle digest cycle outcome endedAtMs).attemptsStarted = cycle.attemptsStarted ∧
      (settle digest cycle outcome endedAtMs).status ≠ .inFlight := by
  unfold settle
  split
  · exact ⟨rfl, by simp [WakeCycle.finish]⟩
  · exact ⟨rfl, by simp [retry]⟩

/-- A natural use seen by an evaluation finishes the transition's cycle. -/
private theorem completeByNaturalUse_finishes {coordinator : WakeCoordinator} {task : WakeTask}
    {account : WakeAccount} {transition : QuotaTransition} {nowMs : Nat}
    (distinct : (coordinator.state.cycles.map WakeCycle.identity).Nodup)
    (limit : ∀ cycle ∈ coordinator.state.cycles, cycle.maxAttempts ≤ maxWakeAttempts)
    (used : (coordinator.completeByNaturalUse task account transition
      (cycleKey digest account transition) nowMs).1 = .skipped .skippedAlreadyStarted) :
    ∀ cycle ∈ (coordinator.completeByNaturalUse task account transition
      (cycleKey digest account transition) nowMs).2.state.cycles,
      cycle.identity = (account.id, transition.windowKind, transition.fingerprint) →
      cycle.status = .completed := by
  dsimp only [completeByNaturalUse] at used ⊢
  split
  next old found =>
    split
    next done => rw [found] at used; simp only [done, if_true] at used; cases used
    next =>
      intro cycle member same
      rw [replaced_cycle (fun _ => sameCycle_identity.mp) distinct found cycle member same]
      rfl
  next absent =>
    split
    next full => rw [absent] at used; simp only [full] at used; cases used
    next reserved reserves =>
      intro cycle member same
      obtain ⟨kept, reservation, aligned, _⟩ :=
        @reserveCycle_some digest (fun _ => False) _ _ _ reserves
      subst reservation
      cases List.mem_append.mp member with
      | inl stays =>
          have seen := (aligned.sublist (fun moved => moved.identity) limit).subset
            (List.mem_map_of_mem stays)
          obtain ⟨old, found, equal⟩ := List.mem_map.mp seen
          exact absurd (sameCycle_identity.mpr (equal.trans same))
            (List.find?_eq_none.mp absent old found)
      | inr new => cases List.mem_singleton.mp new; rfl

theorem evaluate_finishes {coordinator : WakeCoordinator} {task : WakeTask}
    {account : WakeAccount} {transition : QuotaTransition} {lastNaturalUseAtMs : Option Nat}
    {policy : WakeAdapterPolicy} {nowMs : Nat}
    (distinct : (coordinator.state.cycles.map WakeCycle.identity).Nodup)
    (limit : ∀ cycle ∈ coordinator.state.cycles, cycle.maxAttempts ≤ maxWakeAttempts)
    (used : (evaluate digest coordinator task account transition lastNaturalUseAtMs policy
      nowMs).1 = .skipped .skippedAlreadyStarted) :
    ∀ cycle ∈ (evaluate digest coordinator task account transition lastNaturalUseAtMs policy
      nowMs).2.state.cycles,
      cycle.identity = (account.id, transition.windowKind, transition.fingerprint) →
      cycle.status = .completed := by
  unfold evaluate at used ⊢
  split at used
  next => cases used
  next valid =>
    split at used
    next => cases used
    next validPolicy =>
      split at used
      next => cases used
      next allowed =>
        split at used
        next natural =>
          simp only [validPolicy, allowed, natural, if_true, if_false, Bool.false_eq_true]
          exact completeByNaturalUse_finishes distinct limit used
        next =>
          split at used
          next => cases used
          next =>
            split at used
            next => cases used
            next =>
              dsimp only at used
              split at used
              next => cases used
              next => cases used

theorem cancelMatching_finishes {coordinator : WakeCoordinator} {selects : WakeCycle → Bool}
    {completedAtMs : Nat} {errorCode : String} :
    ∀ cycle ∈ (coordinator.cancelMatching selects completedAtMs errorCode).state.cycles,
      cycle.status = .completed ∨ selects cycle = false := by
  intro cycle member
  rw [cancelMatching_cycles] at member
  obtain ⟨old, _, stays⟩ := List.mem_filterMap.mp member
  cases cancelCycle_some stays with
  | inl same =>
      obtain ⟨kept, same⟩ := same
      rw [same]
      exact kept
  | inr finished => rw [finished.2]; exact .inl rfl

end WakeCoordinator

/-! ### The invariant is kept -/

namespace Ledger

open WakeCoordinator

/-- The attempts of a cycle and of the permits issued from it grow together. -/
private theorem attempts_grow {cycle moved : WakeCycle} {permit : Option WakePermit}
    {permits : List WakePermit} (moves : Moved cycle moved permit)
    (issued : permits.map (·.attempt) = List.range' 1 cycle.attemptsStarted) :
    (permits ++ permit.toList).map (·.attempt) = List.range' 1 moved.attemptsStarted := by
  rw [List.map_append, issued]
  cases permit with
  | none =>
      rw [moves.attempts]
      simp
  | some permit =>
      have attempt := (moves.issued permit rfl).1
      have attempts : moved.attemptsStarted = cycle.attemptsStarted + 1 := moves.attempts
      rw [attempts, List.range'_1_concat, ← Nat.add_comm cycle.attemptsStarted, ← attempts, ← attempt]
      rfl

/-- A permit of an earlier attempt stays one. -/
private theorem spent_stays {cycle moved : WakeCycle} {issued : Option WakePermit} {permit : WakePermit}
    (moves : Moved cycle moved issued)
    (spent : permit.attempt ≤ cycle.attemptsStarted ∧
      (cycle.status = .inFlight → permit.attempt < cycle.attemptsStarted)) :
    permit.attempt ≤ moved.attemptsStarted ∧
      (moved.status = .inFlight → permit.attempt < moved.attemptsStarted) := by
  have attempts := moves.attempts
  refine ⟨by omega, fun flying => ?_⟩
  cases moves.flight flying with
  | inl same => rw [same] at flying ⊢; exact spent.2 flying
  | inr claimed =>
      obtain ⟨permit, same⟩ := Option.isSome_iff_exists.mp claimed
      rw [same] at attempts
      simp only [Option.toList_some, List.length_singleton] at attempts
      omega

/-- One call on a sound ledger, as what happens to each cycle that it leaves. -/
structure Stepped (digest : WakeDigest) (before : Ledger) (call : WakeCall) (cycle : WakeCycle) :
    Prop where
  origin : (∃ old ∈ before.cycles, ∃ issued, Moves digest old issued cycle ∧
      Moved old cycle issued ∧
      (before.step digest call).permitsOf cycle = before.permitsOf old ++ issued.toList) ∨
    (∃ kept, Fresh digest before.coordinator kept cycle ∧
      (before.step digest call).permitsOf cycle = [])

/-- A permit with the key of a cycle that is left is not filtered out. -/
private theorem step_permitsOf (ledger : Ledger) (call : WakeCall) {cycle : WakeCycle}
    (member : cycle ∈ (ledger.step digest call).cycles) :
    (ledger.step digest call).permitsOf cycle = ledger.permitsOf cycle ++
      (ledger.coordinator.perform digest call).2.filter (·.cycleKey = cycle.key) := by
  unfold permitsOf
  rw [← List.filter_append]
  dsimp only [step]
  rw [List.filter_filter]
  refine List.filter_congr fun permit _ => ?_
  by_cases same : permit.cycleKey = cycle.key
  · simp only [same, decide_true, Bool.true_and, decide_eq_true_eq]
    exact List.mem_map_of_mem member
  · simp only [same, decide_false, Bool.false_and]

theorem Sound.stepped {ledger : Ledger} (sound : Sound digest ledger) {call : WakeCall}
    (plain : call.Plain) : ∀ cycle ∈ (ledger.step digest call).cycles,
      Stepped digest ledger call cycle := by
  have steps := perform_steps digest ledger.coordinator call plain
  obtain ⟨kept, fresh, cycles, aligned, isFresh⟩ := steps.cycles
  intro cycle member
  have permits := step_permitsOf ledger call member
  have here : cycle ∈ kept ++ fresh.toList := cycles ▸ member
  refine ⟨?_⟩
  cases List.mem_append.mp here with
  | inl stays =>
      obtain ⟨old, found, issued, moves, filtered⟩ :=
        aligned.origin sound.keys_distinct sound.limit cycle stays
      have moved := moves.moved (sound.limit old found)
      refine .inl ⟨old, found, issued, moves, moved, ?_⟩
      rw [permits, filtered]
      unfold permitsOf
      rw [moved.key]
  | inr new =>
      have new := isFresh cycle (Option.mem_toList.mp new)
      have unseen := sound.fresh_key new
      refine .inr ⟨kept, new, ?_⟩
      rw [permits, List.append_eq_nil_iff, permitsOf, List.filter_eq_nil_iff,
        List.filter_eq_nil_iff]
      refine ⟨fun permit issued same => ?_, fun permit issued same => ?_⟩
      · obtain ⟨old, found, _, key⟩ := sound.labelled permit issued
        exact unseen old found (key.symm.trans (of_decide_eq_true same))
      · obtain ⟨moved, found, _, key⟩ := aligned.labelled sound.limit permit issued
        have old := (aligned.sublist (fun moved => moved.key) sound.limit).subset
          (List.mem_map_of_mem found)
        obtain ⟨other, found, keys⟩ := List.mem_map.mp old
        exact unseen other found (keys.trans (key.symm.trans (of_decide_eq_true same)))

private theorem Sound.step_distinct {ledger : Ledger} (sound : Sound digest ledger) {call : WakeCall}
    (plain : call.Plain) : ((ledger.step digest call).cycles.map WakeCycle.identity).Nodup := by
  obtain ⟨kept, fresh, cycles, aligned, isFresh⟩ :=
    (perform_steps digest ledger.coordinator call plain).cycles
  have sublist := aligned.sublist (fun moved => moved.identity) sound.limit
  have same : (ledger.step digest call).cycles = kept ++ fresh.toList := cycles
  rw [same, List.map_append]
  refine List.nodup_append.mpr ⟨sound.distinct.sublist sublist, ?_, ?_⟩
  · cases fresh with
    | none => exact List.nodup_nil
    | some cycle => exact List.nodup_singleton _
  · intro identity stays other new equal
    obtain ⟨cycle, member, same⟩ := List.mem_map.mp new
    refine (isFresh cycle (Option.mem_toList.mp member)).unseen ?_
    rw [same, ← equal]
    exact sublist.subset stays

private theorem Sound.step_within {ledger : Ledger} (sound : Sound digest ledger) {call : WakeCall}
    (plain : call.Plain) :
    (ledger.step digest call).cycles.length ≤ ledger.coordinator.state.maxCycles := by
  obtain ⟨kept, fresh, cycles, aligned, isFresh⟩ :=
    (perform_steps digest ledger.coordinator call plain).cycles
  have same : (ledger.step digest call).cycles = kept ++ fresh.toList := cycles
  rw [same, List.length_append]
  cases fresh with
  | none => exact aligned.length_le.trans sound.within
  | some cycle => exact (isFresh cycle rfl).room sound.positive.1 sound.within

theorem accepted_eq {coordinator : WakeCoordinator} {call : WakeCall} {permit : WakePermit}
    (member : permit ∈ coordinator.accepted digest call) : ∃ completion,
      call = .complete permit completion ∧
        (WakeCoordinator.complete digest coordinator permit completion).1 = true := by
  cases call with
  | complete other completion =>
      by_cases completes :
          (WakeCoordinator.complete digest coordinator other completion).1 = true
      · simp only [WakeCoordinator.accepted, completes, if_true, List.mem_singleton] at member
        subst member
        exact ⟨completion, rfl, completes⟩
      · simp only [WakeCoordinator.accepted, completes] at member
        cases member
  | _ => cases member

/-- A permit just accepted is a permit of an earlier attempt from now on. -/
private theorem Sound.step_accepts {ledger : Ledger} (sound : Sound digest ledger) {call : WakeCall}
    {permit : WakePermit} (member : permit ∈ ledger.coordinator.accepted digest call)
    {cycle : WakeCycle} (stays : cycle ∈ (ledger.step digest call).cycles)
    (key : permit.cycleKey = cycle.key) :
    permit.attempt ≤ cycle.attemptsStarted ∧
      (cycle.status = .inFlight → permit.attempt < cycle.attemptsStarted) := by
  obtain ⟨completion, same, completes⟩ := accepted_eq member
  subst same
  obtain ⟨old, _, awaited, settles⟩ := complete_settles sound.keys_distinct completes
  obtain ⟨endedAtMs, same⟩ := settles cycle stays key.symm
  have kept := settle_kept digest old completion.outcome endedAtMs
  simp only [awaits, Bool.and_eq_true, decide_eq_true_eq] at awaited
  rw [same, kept.1]
  exact ⟨awaited.2.symm.le, fun flying => absurd flying kept.2⟩

private theorem Sound.step_spent {ledger : Ledger} (sound : Sound digest ledger) {call : WakeCall}
    (plain : call.Plain) : ∀ permit ∈ (ledger.step digest call).accepted,
      ∃ cycle ∈ (ledger.step digest call).cycles, permit.cycleKey = cycle.key ∧
        permit.attempt ≤ cycle.attemptsStarted ∧
        (cycle.status = .inFlight → permit.attempt < cycle.attemptsStarted) := by
  intro permit member
  obtain ⟨member, keyed⟩ := List.mem_filter.mp member
  obtain ⟨cycle, stays, key⟩ := List.mem_map.mp (of_decide_eq_true keyed)
  refine ⟨cycle, stays, key.symm, ?_⟩
  cases List.mem_append.mp member with
  | inr new => exact sound.step_accepts new stays key.symm
  | inl earlier =>
      obtain ⟨old, found, oldKey, spent⟩ := sound.spent permit earlier
      cases (sound.stepped plain cycle stays).origin with
      | inl moving =>
          obtain ⟨other, here, issued, _, moved, _⟩ := moving
          have same : old = other :=
            sound.same_cycle found here (oldKey.symm.trans (key.symm.trans moved.key))
          exact spent_stays moved (same ▸ spent)
      | inr new =>
          obtain ⟨kept, fresh, _⟩ := new
          exact absurd (oldKey.symm.trans key.symm) (sound.fresh_key fresh old found)

private theorem Sound.step_once {ledger : Ledger} (sound : Sound digest ledger) {call : WakeCall} :
    (ledger.step digest call).accepted.Nodup := by
  refine List.Nodup.filter _ (List.nodup_append.mpr ⟨sound.once, ?_, ?_⟩)
  · cases call with
    | complete permit completion =>
        by_cases completes :
            (WakeCoordinator.complete digest ledger.coordinator permit completion).1 = true
        · simp only [WakeCoordinator.accepted, completes, if_true]
          exact List.nodup_singleton _
        · simp only [WakeCoordinator.accepted, completes]
          exact List.nodup_nil
    | _ => exact List.nodup_nil
  · intro permit earlier other new same
    subst same
    obtain ⟨completion, _, completes⟩ := accepted_eq new
    obtain ⟨cycle, found, awaited, _⟩ := complete_settles sound.keys_distinct completes
    obtain ⟨old, here, key, spent⟩ := sound.spent permit earlier
    simp only [awaits, Bool.and_eq_true, decide_eq_true_eq] at awaited
    have same := sound.same_cycle here found (key.symm.trans awaited.1.1.symm)
    subst same
    exact absurd (spent.2 awaited.1.2) (by omega)

theorem Sound.step {ledger : Ledger} (sound : Sound digest ledger) {call : WakeCall}
    (plain : call.Plain) : Sound digest (ledger.step digest call) := by
  have bounds := (perform_steps digest ledger.coordinator call plain).bounds
  have origin := sound.stepped plain
  have sameMaxCycles : (ledger.step digest call).coordinator.state.maxCycles =
    ledger.coordinator.state.maxCycles := bounds.maxCycles
  have sameMaxHistory : (ledger.step digest call).coordinator.state.maxHistory =
    ledger.coordinator.state.maxHistory := bounds.maxHistory
  -- what moves keep, and new cycles have
  have lifts {property : WakeCycle → Prop}
      (moves : ∀ old ∈ ledger.cycles, ∀ issued cycle, Moved old cycle issued → property cycle)
      (new : ∀ kept cycle, Fresh digest ledger.coordinator kept cycle → property cycle) :
      ∀ cycle ∈ (ledger.step digest call).cycles, property cycle := by
    intro cycle member
    cases (origin cycle member).origin with
    | inl moving =>
        obtain ⟨old, found, issued, _, moved, _⟩ := moving
        exact moves old found issued cycle moved
    | inr fresh =>
        obtain ⟨kept, fresh, _⟩ := fresh
        exact new kept cycle fresh
  have plainAfter : ∀ cycle ∈ (ledger.step digest call).cycles, '\x00' ∉ cycle.accountId.toList :=
    lifts (fun old found issued cycle moved => by
      have same : cycle.accountId = old.accountId := congrArg (·.1) moved.identity
      rw [same]
      exact sound.plain old found) fun _ _ fresh => fresh.plain
  have keyedAfter : ∀ cycle ∈ (ledger.step digest call).cycles, cycle.key =
      digest.hex (cycleKeyText cycle.accountId cycle.windowKind cycle.transitionFingerprint) :=
    lifts (fun old found issued cycle moved => by
      have account : cycle.accountId = old.accountId := congrArg (·.1) moved.identity
      have kind : cycle.windowKind = old.windowKind := congrArg (·.2.1) moved.identity
      have fingerprint : cycle.transitionFingerprint = old.transitionFingerprint :=
        congrArg (·.2.2) moved.identity
      rw [account, kind, fingerprint, moved.key]
      exact sound.keyed old found) fun _ _ fresh => fresh.key
  exact {
    positive := by
      rw [sameMaxCycles, sameMaxHistory]
      exact sound.positive
    within := sameMaxCycles ▸ sound.step_within plain
    history := sameMaxHistory ▸ bounds.history sound.positive.2 sound.history
    distinct := sound.step_distinct plain
    plain := plainAfter
    keyed := keyedAfter
    primary := lifts (fun old found issued cycle moved =>
        (congrArg (·.2.1) moved.identity).trans (sound.primary old found))
      fun _ _ fresh => fresh.primary
    attempts := lifts (fun old found issued cycle moved => moved.within (sound.attempts old found))
      fun _ _ fresh => by rw [fresh.unclaimed]; exact Nat.zero_le _
    limit := lifts (fun old found issued cycle moved => by
        rw [moved.maxAttempts]
        exact sound.limit old found)
      fun _ _ fresh => fresh.limit
    issued := fun cycle member => by
      cases (origin cycle member).origin with
      | inl moving =>
          obtain ⟨old, found, issued, _, moved, permits⟩ := moving
          rw [permits]
          exact attempts_grow moved (sound.issued old found)
      | inr new =>
          obtain ⟨kept, fresh, permits⟩ := new
          rw [permits, fresh.unclaimed]
          rfl
    labelled := fun permit member => by
      obtain ⟨member, keyed⟩ := List.mem_filter.mp member
      obtain ⟨cycle, stays, key⟩ := List.mem_map.mp (of_decide_eq_true keyed)
      refine ⟨cycle, stays, ?_, key.symm⟩
      cases List.mem_append.mp member with
      | inl earlier =>
          obtain ⟨old, found, identity, oldKey⟩ := sound.labelled permit earlier
          exact identity.trans (identity_of_key (sound.plain old found) (plainAfter cycle stays)
            (sound.keyed old found) (keyedAfter cycle stays) (oldKey.symm.trans key.symm))
      | inr new =>
          obtain ⟨kept, fresh, cycles, aligned, _⟩ :=
            (perform_steps digest ledger.coordinator call plain).cycles
          obtain ⟨moved, found, identity, movedKey⟩ := aligned.labelled sound.limit permit new
          have here : moved ∈ (ledger.step digest call).cycles := by
            have same : (ledger.step digest call).cycles = kept ++ fresh.toList := cycles
            rw [same]
            exact List.mem_append_left _ found
          exact identity.trans (identity_of_key (plainAfter moved here) (plainAfter cycle stays)
            (keyedAfter moved here) (keyedAfter cycle stays) (movedKey.symm.trans key.symm))
    spent := sound.step_spent plain
    once := sound.step_once }

end Ledger

end ZenithRelay.Automations
