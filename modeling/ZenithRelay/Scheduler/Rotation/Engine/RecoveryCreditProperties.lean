import ZenithRelay.Scheduler.Rotation.Engine.AccountingProperties
import ZenithRelay.Scheduler.Rotation.Engine.CircuitProperties

/-!
# Recovery credits

Recovery trials that compete with ordinary work are a bounded share of it: a lease
spends a credit when it is first dispatched, and counted ordinary successes earn
credits. The bound is a ledger over whole runs under one recovery policy.
-/

set_option autoImplicit false

namespace ZenithRelay.Scheduler.Rotation

/-- The policy as `set_recovery_policy` stores it: zero counts as one. -/
def RecoveryPolicy.stored (policy : RecoveryPolicy) : RecoveryPolicy :=
  { policy with
    successfulRequestsPerCredit := max policy.successfulRequestsPerCredit 1
    maxInFlight := max policy.maxInFlight 1 }

/-- The lease an event spends a credit for. -/
def EngineEvent.creditSpent : EngineEvent → Option LeaseId
  | .dispatched pending _ =>
    if pending.recoveryCreditRequired then some pending.leaseId else none
  | .quiet | .recoveryPolicySet _ | .reserved _ | .released _ | .settled _ => none

namespace RotationEngine

variable {engine after : RotationEngine} {event : EngineEvent}

/-- The counted success an event shows: of an ordinary lease that was dispatched, whose
member and route are current and whose circuit took the success. -/
def countedSuccess (engine : RotationEngine) : EngineEvent → Option Settlement
  | .settled settlement =>
    if settlement.lease.earnsRecovery settlement.health &&
        engine.circuitTransition settlement.lease.candidateId settlement.lease.routeKey
          (.settled settlement) == .success then
      some settlement
    else none
  | .quiet | .recoveryPolicySet _ | .reserved _ | .dispatched _ _ | .released _ => none

/-- Policy, credits, and successes since the last credit, after an event. -/
def creditsUnder (engine : RotationEngine) (event : EngineEvent) : RecoveryPolicy × Nat × Nat :=
  match event with
  | .recoveryPolicySet policy =>
    (policy.stored, min engine.recoveryCredits policy.initialCredits,
      engine.successfulRequestsSinceRecovery)
  | .dispatched pending _ =>
    (engine.recoveryPolicy,
      if pending.recoveryCreditRequired then engine.recoveryCredits - 1
      else engine.recoveryCredits,
      engine.successfulRequestsSinceRecovery)
  | .settled settlement =>
    (engine.recoveryPolicy,
      if (engine.countedSuccess (.settled settlement)).isSome then
        engine.recoveryPolicy.refill engine.recoveryCredits engine.successfulRequestsSinceRecovery
      else (engine.recoveryCredits, engine.successfulRequestsSinceRecovery))
  | .quiet | .reserved _ | .released _ =>
    (engine.recoveryPolicy, engine.recoveryCredits, engine.successfulRequestsSinceRecovery)

theorem countedSuccess_isSome (engine : RotationEngine) (settlement : Settlement) :
    (engine.countedSuccess (.settled settlement)).isSome =
      (settlement.lease.earnsRecovery settlement.health &&
        engine.circuitTransition settlement.lease.candidateId settlement.lease.routeKey
          (.settled settlement) == .success) := by
  unfold countedSuccess
  dsimp only
  split
  next counted => exact counted.symm
  next other => exact (Bool.eq_false_iff.mpr other).symm

/-- The settlement of current work refills the credits under the name the ledger
gives it: a success that its circuit took. -/
private theorem creditsAfter_settled (engine : RotationEngine) (leaseId : LeaseId)
    (settlement : Settlement) (current : engine.observationCurrent settlement.lease = true) :
    (engine.dropLease leaseId settlement.lease).creditsAfter settlement.lease settlement.health
        settlement.nowMs =
      if (engine.countedSuccess (.settled settlement)).isSome then
        engine.recoveryPolicy.refill engine.recoveryCredits engine.successfulRequestsSinceRecovery
      else (engine.recoveryCredits, engine.successfulRequestsSinceRecovery) := by
  have counted := CircuitRuntime.update_counted
    ((engine.dropLease leaseId settlement.lease).circuitRuntime settlement.lease.candidateId
      settlement.lease.routeKey) settlement.lease settlement.health settlement.nowMs
  rw [engine.dropLease_transition leaseId settlement.lease] at counted
  have shown : engine.circuitTransition settlement.lease.candidateId settlement.lease.routeKey
      (.settled settlement) =
        (engine.circuitRuntime settlement.lease.candidateId settlement.lease.routeKey).transition
          settlement.lease settlement.health settlement.nowMs := by
    unfold circuitTransition
    dsimp only
    rw [if_pos ⟨rfl, rfl, current⟩]
  have same : ((((engine.dropLease leaseId settlement.lease).circuitRuntime
        settlement.lease.candidateId settlement.lease.routeKey).update settlement.lease
          settlement.health settlement.nowMs).2 &&
        settlement.lease.earnsRecovery settlement.health) =
      (engine.countedSuccess (.settled settlement)).isSome := by
    rw [countedSuccess_isSome, shown, Bool.eq_iff_iff, Bool.and_eq_true, Bool.and_eq_true, counted,
      beq_iff_eq]
    constructor
    · rintro ⟨success | failure, earns⟩
      · exact ⟨earns, success⟩
      · obtain ⟨-, success⟩ := Bool.and_eq_true_iff.mp earns
        rw [eq_of_beq success] at failure
        exact absurd failure (CircuitRuntime.transition_success_ne_failure _ _ _)
    · rintro ⟨earns, success⟩
      exact ⟨.inl success, earns⟩
  unfold creditsAfter
  rw [same]
  rfl

end RotationEngine

open RotationEngine in
/-- Policy and credits move only as the event says. -/
theorem Transition.credits {engine after : RotationEngine} {event : EngineEvent}
    (transition : Transition engine event after) :
    (after.recoveryPolicy, after.recoveryCredits, after.successfulRequestsSinceRecovery) =
      engine.creditsUnder event := by
  cases transition with
  | configure | recoveryPolicy | edit | dispatch | release => rfl
  | install candidate valid absent room =>
      rw [recomputeCapacityLimit_same (engine.installCandidate candidate)]
      rfl
  | replace candidate runtime valid found =>
      rw [recomputeDerived_same (engine.replaceCandidate runtime candidate)]
      rfl
  | remove candidateId runtime found =>
      rw [eraseCandidate_same engine candidateId]
      rfl
  | @reserve request nowMs group selected runtime admission =>
      obtain ⟨rotationCredit, roundRobinCursor, same⟩ :=
        engine.takeLease_same request group selected runtime
          (engine.selectionCandidates request nowMs).2
      rw [same]
      rfl
  | settle leaseId settlement found dispatched =>
      unfold settleLease creditsUnder
      dsimp only
      by_cases current : engine.observationCurrent settlement.lease = true
      · rw [if_pos current]
        obtain ⟨healthRecords, same⟩ := applyOutcome_same
          (engine.dropLease leaseId settlement.lease) settlement.lease settlement.health
          settlement.nowMs settlement.firstOutputLatencyMs
        rw [same]
        dsimp only
        rw [engine.creditsAfter_settled leaseId settlement current]
        rfl
      · have quiet : (engine.countedSuccess (.settled settlement)).isSome = false := by
          rw [countedSuccess_isSome, circuitTransition, if_neg fun all => current all.2.2]
          simp
        rw [if_neg current, quiet]
        rfl

/-- A credit is spent only where there is one. -/
theorem Transition.funded {engine after : RotationEngine} {pending : LeaseRuntime}
    {attemptId : AttemptId} (transition : Transition engine (.dispatched pending attemptId) after)
    (required : pending.recoveryCreditRequired = true) : 0 < engine.recoveryCredits := by
  cases transition with
  | dispatch leaseId pending budget allowRetainedLease attemptId found allowed =>
      apply Nat.pos_of_ne_zero
      intro none
      unfold RotationEngine.dispatchRefusal at allowed
      simp only [required, none, and_self, ↓reduceIte] at allowed
      split at allowed
      next => cases allowed
      split at allowed
      next => cases allowed
      split at allowed
      next => cases allowed
      split at allowed <;> cases allowed

open RotationEngine in
/-- Only a reservation takes a recovery permit, and only below the limit. -/
private theorem Transition.recoveryInFlight_le {engine after : RotationEngine} {event : EngineEvent}
    (transition : Transition engine event after) :
    after.recoveryInFlight ≤ max engine.recoveryInFlight engine.recoveryPolicy.maxInFlight := by
  have dropped : ∀ (leaseId : LeaseId) (lease : LeaseRuntime),
      (engine.dropLease leaseId lease).recoveryInFlight ≤ engine.recoveryInFlight := by
    intro leaseId lease
    change (if lease.recovery then engine.recoveryInFlight - 1 else engine.recoveryInFlight) ≤ _
    split
    · exact Nat.sub_le _ _
    · exact Nat.le_refl _
  cases transition with
  | configure | recoveryPolicy | edit | dispatch => exact Nat.le_max_left _ _
  | install candidate valid absent room =>
      rw [recomputeCapacityLimit_same (engine.installCandidate candidate)]
      exact Nat.le_max_left _ _
  | replace candidate runtime valid found =>
      rw [recomputeDerived_same (engine.replaceCandidate runtime candidate)]
      exact Nat.le_max_left _ _
  | remove candidateId runtime found =>
      rw [eraseCandidate_same engine candidateId]
      exact Nat.le_max_left _ _
  | @reserve request nowMs group selected runtime admission =>
      obtain ⟨rotationCredit, roundRobinCursor, same⟩ :=
        engine.takeLease_same request group selected runtime
          (engine.selectionCandidates request nowMs).2
      rw [same]
      change (if selected.recovery then saturatingAdd u32Max engine.recoveryInFlight 1
        else engine.recoveryInFlight) ≤ _
      split
      next recovers =>
        have room := admission.recoveryRoom recovers
        exact (Nat.min_le_left _ _).trans ((Nat.succ_le_of_lt room).trans (Nat.le_max_right _ _))
      next => exact Nat.le_max_left _ _
  | release leaseId lease found unstarted => exact (dropped leaseId lease).trans (Nat.le_max_left _ _)
  | settle leaseId settlement found dispatched =>
      obtain ⟨circuits, healthRecords, recoveryCredits, successes, same⟩ :=
        engine.settleLease_same leaseId settlement.lease settlement.health settlement.nowMs
          settlement.firstOutputLatencyMs
      rw [same]
      exact (dropped leaseId settlement.lease).trans (Nat.le_max_left _ _)

/-- One more success makes at most one credit, out of a full share of successes. -/
private theorem RecoveryPolicy.refill_le (policy : RecoveryPolicy) (credits successes : Nat) :
    ∃ refills, (policy.refill credits successes).1 ≤ credits + refills ∧
      policy.successfulRequestsPerCredit * refills + (policy.refill credits successes).2 ≤
        successes + 1 := by
  have counted : saturatingAdd u32Max successes 1 ≤ successes + 1 := Nat.min_le_left _ _
  unfold refill
  dsimp only
  split
  next full =>
    refine ⟨1, (Nat.min_le_left _ _).trans (Nat.min_le_left _ _), ?_⟩
    dsimp only
    omega
  next => exact ⟨0, Nat.le_refl _, by simpa using counted⟩

namespace RotationEngine

variable {engine : RotationEngine} {policy : RecoveryPolicy} {leaseId : LeaseId}
  {operations : List EngineOperation}

/-- Leases in the order a run dispatches them, one entry a dispatch. -/
def dispatchedLeases (engine : RotationEngine) (operations : List EngineOperation) :
    List LeaseId :=
  Execution.trace apply (fun engine operation => (engine.event operation).dispatchedLease) engine
    operations

/-- The counted ordinary successes of a run. -/
def countedSuccesses (engine : RotationEngine) (operations : List EngineOperation) :
    List Settlement :=
  Execution.trace apply
    (fun engine operation => engine.countedSuccess (engine.event operation)) engine operations

/-- The leases a run spends its credits for. -/
def creditsSpent (engine : RotationEngine) (operations : List EngineOperation) : List LeaseId :=
  Execution.trace apply (fun engine operation => (engine.event operation).creditSpent) engine
    operations

/-- No operation of the list sets another policy. -/
def KeepsPolicy (policy : RecoveryPolicy) (operations : List EngineOperation) : Prop :=
  ∀ other, EngineOperation.setRecoveryPolicy other ∈ operations → other = policy

/-- One operation: what it spends comes out of the credits or of a full share of
successes. -/
theorem ledger_step (fixed : engine.recoveryPolicy = policy.stored) {operation : EngineOperation}
    (keeps : ∀ other, operation = .setRecoveryPolicy other → other = policy) :
    (engine.apply operation).recoveryPolicy = policy.stored ∧
      ∃ refills,
        (engine.event operation).creditSpent.toList.length +
            (engine.apply operation).recoveryCredits ≤ engine.recoveryCredits + refills ∧
          policy.stored.successfulRequestsPerCredit * refills +
              (engine.apply operation).successfulRequestsSinceRecovery ≤
            engine.successfulRequestsSinceRecovery +
              (engine.countedSuccess (engine.event operation)).toList.length := by
  have transition := engine.apply_transition operation
  have credits := transition.credits
  -- An event that moves no account needs no refill.
  have idle : ∀ {credits since : Nat}, credits ≤ engine.recoveryCredits →
      since = engine.successfulRequestsSinceRecovery →
      ∃ refills, 0 + credits ≤ engine.recoveryCredits + refills ∧
        policy.stored.successfulRequestsPerCredit * refills + since ≤
          engine.successfulRequestsSinceRecovery + 0 := by
    intro credits since fewer same
    exact ⟨0, by omega, by rw [same, Nat.mul_zero]; omega⟩
  cases shown : engine.event operation with
  | recoveryPolicySet other =>
      rw [shown] at credits
      obtain ⟨stored, capped, since⟩ : _ ∧ _ ∧ _ := by simpa [creditsUnder] using credits
      rw [keeps other (event_recoveryPolicySet shown)] at stored
      exact ⟨stored, idle (capped ▸ Nat.min_le_left _ _) since⟩
  | dispatched pending attemptId =>
      rw [shown] at credits transition
      obtain ⟨stored, left, since⟩ : _ ∧ _ ∧ _ := by simpa [creditsUnder] using credits
      refine ⟨stored.trans fixed, 0, ?_, by rw [since, Nat.mul_zero]; exact (Nat.zero_add _).le⟩
      change (if pending.recoveryCreditRequired then some pending.leaseId
        else none).toList.length + _ ≤ _
      rw [left]
      by_cases required : pending.recoveryCreditRequired = true
      · have funded := transition.funded required
        rw [if_pos required, if_pos required]
        change 1 + (engine.recoveryCredits - 1) ≤ engine.recoveryCredits + 0
        omega
      · rw [if_neg required, if_neg required]
        exact (Nat.zero_add _).le
  | settled settlement =>
      rw [shown] at credits
      cases counted : engine.countedSuccess (.settled settlement) with
      | none =>
          obtain ⟨stored, left, since⟩ : _ ∧ _ ∧ _ := by simpa [creditsUnder, counted] using credits
          exact ⟨stored.trans fixed, idle left.le since⟩
      | some success =>
          obtain ⟨stored, both⟩ : (engine.apply operation).recoveryPolicy = engine.recoveryPolicy ∧
              ((engine.apply operation).recoveryCredits,
                (engine.apply operation).successfulRequestsSinceRecovery) =
                engine.recoveryPolicy.refill engine.recoveryCredits
                  engine.successfulRequestsSinceRecovery := by
            simpa [creditsUnder, counted] using credits
          obtain ⟨refills, left, since⟩ := engine.recoveryPolicy.refill_le engine.recoveryCredits
            engine.successfulRequestsSinceRecovery
          rw [← both, fixed] at since
          rw [← both] at left
          exact ⟨stored.trans fixed, refills, (Nat.zero_add _).trans_le left, since⟩
  | quiet | reserved | released =>
      rw [shown] at credits
      obtain ⟨stored, left, since⟩ : _ ∧ _ ∧ _ := by simpa [creditsUnder] using credits
      exact ⟨stored.trans fixed, idle left.le since⟩

/-- A run under one policy spends the credits it starts with and one for each full
share of counted successes. -/
private theorem ledger_run (fixed : engine.recoveryPolicy = policy.stored)
    {operations : List EngineOperation} (keeps : KeepsPolicy policy operations) :
    (engine.runOperations operations).recoveryPolicy = policy.stored ∧
      ∃ refills,
        (engine.creditsSpent operations).length +
            (engine.runOperations operations).recoveryCredits ≤
          engine.recoveryCredits + refills ∧
        policy.stored.successfulRequestsPerCredit * refills +
            (engine.runOperations operations).successfulRequestsSinceRecovery ≤
          engine.successfulRequestsSinceRecovery + (engine.countedSuccesses operations).length := by
  induction operations generalizing engine with
  | nil => exact ⟨fixed, 0, (Nat.zero_add _).le, by rw [Nat.mul_zero]; exact (Nat.zero_add _).le⟩
  | cons operation operations ih =>
      obtain ⟨stored, earned, spent, since⟩ := ledger_step fixed
        fun (other : RecoveryPolicy) (same : operation = .setRecoveryPolicy other) => keeps other (same ▸ List.mem_cons_self)
      obtain ⟨storedAfter, earnedAfter, spentAfter, sinceAfter⟩ :=
        ih stored fun other member => keeps other (List.mem_cons_of_mem _ member)
      refine ⟨storedAfter, earned + earnedAfter, ?_, ?_⟩
      · rw [runOperations_cons]
        change ((engine.event operation).creditSpent.toList ++
          (engine.apply operation).creditsSpent operations).length + _ ≤ _
        rw [List.length_append]
        omega
      · rw [runOperations_cons, Nat.mul_add]
        change _ ≤ _ + ((engine.countedSuccess (engine.event operation)).toList ++
          (engine.apply operation).countedSuccesses operations).length
        rw [List.length_append]
        omega

/-- The run reserved the lease for a recovery trial while an ordinary member was ready,
each physical member being stood for by its alias of least id. -/
def ReservedForTrial (engine : RotationEngine) (operations : List EngineOperation)
    (leaseId : LeaseId) : Prop :=
  ∃ (earlier later : List EngineOperation) (request : RotationRequest) (nowMs : Nat)
    (initial : LeaseRuntime),
    operations = earlier ++ .reserve request nowMs :: later ∧
      (engine.runOperations earlier).event (.reserve request nowMs) = .reserved initial ∧
      initial.leaseId = leaseId ∧ initial.recovery = true ∧
      ((engine.runOperations earlier).readyCandidates request nowMs).any (!·.recovery) = true

/-- A reservation shows the lease it made for its own request. -/
theorem reserveEvent_lease {request : RotationRequest} {nowMs : Nat} {initial : LeaseRuntime}
    (shown : engine.event (.reserve request nowMs) = .reserved initial) :
    ∃ selected runtime, initial =
      engine.newLease request selected runtime (engine.selectionCandidates request nowMs).2 := by
  change engine.reserveEvent request nowMs = _ at shown
  unfold reserveEvent at shown
  rcases engine.reserve_cases request nowMs with
    ⟨error, refused⟩ | ⟨group, selected, runtime, admission, admitted⟩
  · rw [refused] at shown
    cases shown
  · rw [admitted] at shown
    dsimp only at shown
    rw [takeLease_lease] at shown
    cases shown
    exact ⟨selected, runtime, rfl⟩

/-- A dispatch shows a live lease under its id. -/
theorem dispatched_found (reachable : engine.Reachable) {operation : EngineOperation}
    {pending : LeaseRuntime} {attemptId : AttemptId}
    (shown : engine.event operation = .dispatched pending attemptId) :
    engine.leases[pending.leaseId]? = some pending := by
  have change := engine.apply_leaseChange operation
  rw [shown] at change
  cases change with
  | same quiet => rcases quiet with quiet | ⟨policy, quiet⟩ <;> cases quiet
  | record leaseId _ _ found =>
      rw [reachable.registered.lease_id found]
      exact found
  | erase leaseId lease ended => cases ended

/-- The lease an operation of the run dispatches, at the head or later. -/
theorem mem_dispatchedLeases_cons {operation : EngineOperation} {operations : List EngineOperation}
    (member : leaseId ∈ engine.dispatchedLeases (operation :: operations)) :
    (∃ pending attemptId, engine.event operation = .dispatched pending attemptId ∧
        pending.leaseId = leaseId) ∨
      leaseId ∈ (engine.apply operation).dispatchedLeases operations := by
  change leaseId ∈ (engine.event operation).dispatchedLease.toList ++ _ at member
  rcases List.mem_append.mp member with head | tail
  · left
    cases shown : engine.event operation with
    | dispatched pending attemptId =>
        rw [shown] at head
        exact ⟨pending, attemptId, rfl, (List.mem_singleton.mp head).symm⟩
    | _ =>
        rw [shown] at head
        cases head
  · exact .inr tail

/-- Every dispatched lease id was drawn by then. -/
private theorem dispatched_drawn (reachable : engine.Reachable) {operations : List EngineOperation}
    (member : leaseId ∈ engine.dispatchedLeases operations) :
    leaseId ≤ (engine.runOperations operations).nextLeaseId := by
  induction operations generalizing engine with
  | nil => cases member
  | cons operation operations ih =>
      rcases mem_dispatchedLeases_cons member with ⟨pending, attemptId, shown, rfl⟩ | later
      · exact used_stays (reachable.registered.lease_id_le (dispatched_found reachable shown))
          (operation :: operations)
      · exact ih (reachable.next operation) later

/-- A lease that is gone is dispatched no more. -/
private theorem gone_not_dispatched (reachable : engine.Reachable) (used : leaseId ≤ engine.nextLeaseId)
    (gone : engine.leases[leaseId]? = none) (operations : List EngineOperation) :
    leaseId ∉ engine.dispatchedLeases operations := by
  induction operations generalizing engine with
  | nil => exact List.not_mem_nil
  | cons operation operations ih =>
      intro member
      have change := engine.apply_leaseChange operation
      rcases mem_dispatchedLeases_cons member with ⟨pending, attemptId, shown, rfl⟩ | later
      · rw [dispatched_found reachable shown] at gone
        cases gone
      · exact ih (reachable.next operation) (used.trans change.nextLeaseId_le)
          (change.gone used gone) later

/-- The first dispatch of a lease that needs a credit spends one. -/
private theorem dispatch_spends (reachable : engine.Reachable) {lease : LeaseRuntime}
    (found : engine.leases[leaseId]? = some lease) (required : lease.recoveryCreditRequired = true)
    {operations : List EngineOperation} (member : leaseId ∈ engine.dispatchedLeases operations) :
    leaseId ∈ engine.creditsSpent operations := by
  induction operations generalizing engine lease with
  | nil => cases member
  | cons operation operations ih =>
      change leaseId ∈ (engine.event operation).creditSpent.toList ++
        (engine.apply operation).creditsSpent operations
      have used := reachable.registered.lease_id_le found
      have spends : ∀ {attemptId : AttemptId}, engine.event operation = .dispatched lease attemptId →
          leaseId ∈ (engine.event operation).creditSpent.toList := by
        intro attemptId shown
        rw [shown, EngineEvent.creditSpent, if_pos required, reachable.registered.lease_id found]
        exact List.mem_singleton.mpr rfl
      rcases mem_dispatchedLeases_cons member with ⟨pending, attemptId, shown, rfl⟩ | later
      · have live := dispatched_found reachable shown
        rw [found] at live
        cases live
        exact List.mem_append_left _ (spends shown)
      · have change := engine.apply_leaseChange operation
        cases next : (engine.apply operation).leases[leaseId]? with
        | none =>
            exact absurd later (gone_not_dispatched (reachable.next operation)
              (used.trans change.nextLeaseId_le) next operations)
        | some kept =>
            rcases change.same_or_dispatched used found next with rfl | ⟨attemptId, shown, -⟩
            · exact List.mem_append_right _ (ih (reachable.next operation) next required later)
            · exact List.mem_append_left _ (spends shown)

/-- A trial that ran spent a credit. -/
theorem ReservedForTrial.spends (trial : ReservedForTrial engine operations leaseId)
    (reachable : engine.Reachable) (member : leaseId ∈ engine.dispatchedLeases operations) :
    leaseId ∈ engine.creditsSpent operations := by
  obtain ⟨earlier, later, request, nowMs, initial, rfl, shown, rfl, recovers, ordinary⟩ := trial
  have reachableEarlier := reachable.run earlier
  have stored := reserved_found shown
  have fresh : initial.leaseId = (engine.runOperations earlier).nextLeaseId + 1 := by
    obtain ⟨selected, runtime, rfl⟩ := reserveEvent_lease shown
    rfl
  have required : initial.recoveryCreditRequired = true := by
    obtain ⟨selected, runtime, rfl⟩ := reserveEvent_lease shown
    exact Bool.and_eq_true_iff.mpr ⟨recovers, ordinary⟩
  unfold dispatchedLeases at member
  rw [Execution.trace_append] at member
  unfold creditsSpent
  rw [Execution.trace_append]
  rcases List.mem_append.mp member with before | after
  · exact absurd (fresh ▸ dispatched_drawn reachable before) (Nat.not_succ_le_self _)
  · refine List.mem_append_right _ ?_
    rcases mem_dispatchedLeases_cons after with ⟨pending, attemptId, other, -⟩ | later
    · rw [shown] at other
      cases other
    · exact List.mem_append_right _
        (dispatch_spends (reachableEarlier.next (.reserve request nowMs)) stored required later)

/-- Under one policy the recovery permits stay within its limit. -/
private theorem recoveryInFlight_run (fixed : engine.recoveryPolicy = policy.stored)
    (keeps : KeepsPolicy policy operations)
    (bounded : engine.recoveryInFlight ≤ policy.stored.maxInFlight) :
    (engine.runOperations operations).recoveryInFlight ≤ policy.stored.maxInFlight := by
  induction operations generalizing engine with
  | nil => exact bounded
  | cons operation operations ih =>
      obtain ⟨stored, -⟩ := ledger_step fixed
        fun (other : RecoveryPolicy) (same : operation = .setRecoveryPolicy other) => keeps other (same ▸ List.mem_cons_self)
      refine ih stored (fun other member => keeps other (List.mem_cons_of_mem _ member)) ?_
      have step := (engine.apply_transition operation).recoveryInFlight_le
      rw [fixed] at step
      exact step.trans (Nat.max_le.mpr ⟨bounded, Nat.le_refl _⟩)

/-- Reservations, releases, cancellations and refused dispatches spend no credit. -/
structure SpendsOnDispatchOnly (engine : RotationEngine) : Prop where
  reserve : ∀ request nowMs, (engine.reserve request nowMs).1.recoveryCredits =
    engine.recoveryCredits
  releaseUnstarted : ∀ leaseId, (engine.releaseUnstarted leaseId).1.recoveryCredits =
    engine.recoveryCredits
  cancel : ∀ leaseId budget clock nowMs,
    (engine.cancel leaseId budget clock nowMs).1.recoveryCredits = engine.recoveryCredits
  refused : ∀ leaseId budget clock allowRetainedLease refusal,
    (engine.beginDispatchInternal leaseId budget clock allowRetainedLease).2.2 = .error refusal →
      (engine.beginDispatchInternal leaseId budget clock allowRetainedLease).1 = engine

private theorem spends_on_dispatch_only (engine : RotationEngine) : SpendsOnDispatchOnly engine where
  reserve request nowMs := by
    have credits := (engine.apply_transition (.reserve request nowMs)).credits
    change (_, (engine.reserve request nowMs).1.recoveryCredits, _) =
      engine.creditsUnder (engine.reserveEvent request nowMs) at credits
    rcases engine.reserveEvent_kind request nowMs with shown | ⟨lease, shown⟩ <;>
      rw [shown] at credits <;> exact (Prod.ext_iff.mp (Prod.ext_iff.mp credits).2).1
  releaseUnstarted leaseId := by
    have credits := (engine.apply_transition (.releaseUnstarted leaseId)).credits
    change (_, (engine.releaseUnstarted leaseId).1.recoveryCredits, _) =
      engine.creditsUnder (engine.releaseEvent leaseId) at credits
    rcases engine.releaseEvent_kind leaseId with shown | ⟨lease, shown⟩ <;>
      rw [shown] at credits <;> exact (Prod.ext_iff.mp (Prod.ext_iff.mp credits).2).1
  cancel leaseId budget clock nowMs := by
    have credits := (engine.apply_transition (.cancel leaseId budget clock nowMs)).credits
    change (_, (engine.cancel leaseId budget clock nowMs).1.recoveryCredits, _) =
      engine.creditsUnder (engine.settleEvent leaseId ⟨.unknown, .cancelled⟩ budget clock nowMs
        none) at credits
    rcases engine.settleEvent_kind leaseId ⟨.unknown, .cancelled⟩ budget clock nowMs none with
      shown | ⟨lease, shown⟩ <;> rw [shown] at credits
    · exact (Prod.ext_iff.mp (Prod.ext_iff.mp credits).2).1
    · -- A cancellation is no success.
      have uncounted : (engine.countedSuccess
          (.settled ⟨lease, .cancelled, nowMs, none⟩)).isSome = false := by
        rw [countedSuccess_isSome, LeaseRuntime.earnsRecovery]
        simp
      unfold creditsUnder at credits
      dsimp only at credits
      rw [uncounted] at credits
      exact (Prod.ext_iff.mp (Prod.ext_iff.mp credits).2).1
  refused leaseId budget clock allowRetainedLease refusal failed := by
    rcases engine.beginDispatchInternal_cases leaseId budget clock allowRetainedLease with
      ⟨other, refused⟩ | ⟨pending, attemptId, -, -, -, started⟩
    · rw [refused]
    · rw [started] at failed
      cases failed

/-- Under one policy, in every run: the recovery trials that competed with ready
ordinary work and were dispatched at all are at most the initial credits and one for
each full share of counted ordinary successes; live recovery leases stay within the
limit; and nothing but a dispatch spends a credit. -/
theorem recovery_trials_bounded (policy : RecoveryPolicy) (operations : List EngineOperation)
    (keeps : KeepsPolicy policy operations) :
    let start := RotationEngine.default.setRecoveryPolicy policy
    (∀ leaseIds : List LeaseId, leaseIds.Nodup →
      (∀ leaseId ∈ leaseIds, ReservedForTrial start operations leaseId ∧
        leaseId ∈ start.dispatchedLeases operations) →
      leaseIds.length ≤ policy.initialCredits +
        (start.countedSuccesses operations).length / max policy.successfulRequestsPerCredit 1) ∧
    (start.runOperations operations).leaseCount (·.recovery) ≤ max policy.maxInFlight 1 ∧
    SpendsOnDispatchOnly (start.runOperations operations) := by
  intro start
  have reachable : start.Reachable := ⟨[.setRecoveryPolicy policy], rfl⟩
  have fixed : start.recoveryPolicy = policy.stored := rfl
  refine ⟨fun leaseIds distinct trials => ?_, ?_, spends_on_dispatch_only _⟩
  · obtain ⟨-, refills, spent, earned⟩ := ledger_run fixed keeps
    have within : leaseIds.length ≤ (start.creditsSpent operations).length :=
      (List.subperm_of_subset distinct fun leaseId member =>
        (trials leaseId member).1.spends reachable (trials leaseId member).2).length_le
    have initial : start.recoveryCredits ≤ policy.initialCredits := Nat.min_le_right _ _
    have share : refills ≤ (start.countedSuccesses operations).length /
        max policy.successfulRequestsPerCredit 1 := by
      rw [Nat.le_div_iff_mul_le (Nat.le_max_right _ _), Nat.mul_comm]
      have none : start.successfulRequestsSinceRecovery = 0 := rfl
      rw [none, Nat.zero_add] at earned
      exact (Nat.le_add_right _ _).trans earned
    omega
  · rw [← (reachable.run operations).accounted.2.recovery]
    exact recoveryInFlight_run fixed keeps (Nat.zero_le _)

/-- A failure of member a, then a trial of it, while b is ready, that its transport
starts twice. -/
def retainedTrialRun : List EngineOperation := [
  .upsert (.create "a" "r" "m"), .upsert (.create "b" "r" "m"),
  .reserve (.create 1 "r" "m") 0, .beginDispatch 1 (.defaultFor 1) ⟨0, 0⟩,
  .settle 1 ⟨.notSent, .countableTransient none⟩ (.defaultFor 1) ⟨0, 0⟩ 0,
  .reserve (.create 2 "r" "m") 1000, .beginDispatch 2 (.defaultFor 2) ⟨1000, 1000⟩,
  .beginTransportDispatch 2 ((RequestBudget.defaultFor 2).startDispatch ⟨1000, 1000⟩).1
    ⟨2000, 2000⟩]

theorem retainedTrialRun_trial :
    ReservedForTrial (RotationEngine.default.setRecoveryPolicy ⟨1, 1, 1⟩) retainedTrialRun 2 :=
  ⟨retainedTrialRun.take 5, retainedTrialRun.drop 6, .create 2 "r" "m", 1000, _, rfl, rfl, rfl, rfl,
    rfl⟩

theorem recovery_trials_bounded_retained :
    ([2] : List LeaseId).length ≤ 1 + ((RotationEngine.default.setRecoveryPolicy
        ⟨1, 1, 1⟩).countedSuccesses retainedTrialRun).length / 1 ∧
      ((RotationEngine.default.setRecoveryPolicy ⟨1, 1, 1⟩).runOperations
        retainedTrialRun).leaseCount (·.recovery) ≤ 1 := by
  obtain ⟨bounded, live, -⟩ := recovery_trials_bounded ⟨1, 1, 1⟩ retainedTrialRun (by
    intro other member
    simp [retainedTrialRun] at member)
  refine ⟨bounded [2] (List.nodup_singleton 2) fun leaseId member => ?_, live⟩
  cases List.mem_singleton.mp member
  exact ⟨retainedTrialRun_trial, by decide +kernel⟩

/-- Counted by dispatches the share is not bounded: a retained lease starts again
without a second credit. -/
theorem retained_trial_dispatched_twice :
    ¬∀ (policy : RecoveryPolicy) (operations : List EngineOperation),
      KeepsPolicy policy operations →
      let start := RotationEngine.default.setRecoveryPolicy policy
      ∀ leaseIds : List LeaseId, leaseIds.Sublist (start.dispatchedLeases operations) →
        (∀ leaseId ∈ leaseIds, ReservedForTrial start operations leaseId) →
        leaseIds.length ≤ policy.initialCredits +
          (start.countedSuccesses operations).length /
            max policy.successfulRequestsPerCredit 1 := by
  intro bounded
  have twice := bounded ⟨1, 1, 1⟩ retainedTrialRun (by
    intro other member
    simp [retainedTrialRun] at member) [2, 2] (by decide +kernel) (by
    intro leaseId member
    have same : leaseId = 2 := by simpa using member
    exact same ▸ retainedTrialRun_trial)
  revert twice
  decide +kernel

end RotationEngine

end ZenithRelay.Scheduler.Rotation
