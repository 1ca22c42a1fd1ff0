import ZenithRelay.Foundations.Execution
import ZenithRelay.Scheduler.Selection.Operation

/-!
# Execution fences

A fence holds a candidate back while its credentials are rewritten. Nested holders
share one count; a removal ends the whole group, and what its holders end later is
without effect on a candidate that came back under the id.
-/

set_option autoImplicit false

namespace ZenithRelay.Scheduler

open Rotation

/-- The operations on fences themselves. -/
def SchedulerOperation.movesFences : SchedulerOperation → Bool
  | .setExecutionFence _ _ | .beginExecutionFence _ | .endExecutionFence _ _ => true
  | _ => false

/-! ### Other operations -/

/-- What an operation other than those on fences does to them. -/
structure KeepsFences (before after : PoolScheduler) : Prop where
  epoch : after.nextExecutionFenceEpoch = before.nextExecutionFenceEpoch
  fences : ∀ candidateId : String,
    after.executionFences[candidateId]? = before.executionFences[candidateId]? ∨
      after.executionFences[candidateId]? = none ∧ after.candidates[candidateId]? = none
  removed : ∀ candidateId : String, (before.candidates[candidateId]?).isSome = true →
    after.candidates[candidateId]? = none → after.executionFences[candidateId]? = none

namespace KeepsFences

variable {before after : PoolScheduler}

theorem of_eq (epoch : after.nextExecutionFenceEpoch = before.nextExecutionFenceEpoch)
    (fences : after.executionFences = before.executionFences)
    (present : ∀ candidateId : String, (before.candidates[candidateId]?).isSome = true →
      (after.candidates[candidateId]?).isSome = true) : KeepsFences before after where
  epoch := epoch
  fences _ := .inl (by rw [fences])
  removed candidateId isPresent absent := by
    have stays := present candidateId isPresent
    rw [absent] at stays
    cases stays

end KeepsFences

namespace PoolScheduler

variable (scheduler : PoolScheduler)

/-- Equal fences and equal epochs. -/
def SameFences (before after : PoolScheduler) : Prop :=
  after.nextExecutionFenceEpoch = before.nextExecutionFenceEpoch ∧
    after.executionFences = before.executionFences

theorem setCooldownWithReason_sameFences (candidateId : String) (request : CooldownRequest) :
    SameFences scheduler (scheduler.setCooldownWithReason candidateId request).1 := by
  unfold setCooldownWithReason
  split
  · exact ⟨rfl, rfl⟩
  · dsimp only
    split <;> exact ⟨rfl, rfl⟩

private theorem apply_sameFences (operation : SchedulerOperation) (idle : operation.movesWork = false)
    (others : operation.movesFences = false) : SameFences scheduler (scheduler.apply operation) := by
  cases operation with
  | upsert | remove | reserveRequestWithOperation | releaseReservation => cases idle
  | setExecutionFence | beginExecutionFence | endExecutionFence => cases others
  | retireForReplacement | syncAllRotationCandidates | setNativeRoute
  | invalidateQuotaReferenceSource | setQuotaStaleAfterMs | hasPromptAffinity
  | clearCapabilityBlocks | responseAffinityCandidate | hasResponseAffinity
  | invalidateResponseAffinity | updateCandidateAvailabilityAt
  | updateCandidateAvailabilityWithQuotaAt | updateCandidateQuotaAt | setCandidateHealth =>
      exact ⟨rfl, rfl⟩
  | setQuotaReferences references =>
      rw [apply]
      unfold setQuotaReferences
      dsimp only
      split <;> exact ⟨rfl, rfl⟩
  | setProtectedCandidate candidateId reserveBasisPoints =>
      rw [apply]
      unfold setProtectedCandidate
      split
      · exact ⟨rfl, rfl⟩
      · split <;> exact ⟨rfl, rfl⟩
  | blockCapability candidateId model =>
      rw [apply]
      unfold blockCapability
      split <;> exact ⟨rfl, rfl⟩
  | prepareRotationRequest request operation freshRequestId =>
      obtain ⟨rotation, response, prompt, same, _⟩ :=
        scheduler.prepareRotationRequest_same request operation freshRequestId
      rw [apply, same]
      exact ⟨rfl, rfl⟩
  | selectForOperation request lane operation freshRequestId =>
      obtain ⟨rotation, response, prompt, same, _⟩ :=
        scheduler.prepareRotationRequest_same request operation freshRequestId
      rw [apply, selectForOperation_state, same]
      exact ⟨rfl, rfl⟩
  | setPoolRouting policy =>
      obtain ⟨routing, rotation, same⟩ := scheduler.setPoolRouting_same policy
      rw [apply, same]
      exact ⟨rfl, rfl⟩
  | resetSharedRateLimitBackoff candidateId model nowMs =>
      obtain ⟨limits, same⟩ := scheduler.resetSharedRateLimitBackoff_same candidateId model nowMs
      rw [apply, same]
      exact ⟨rfl, rfl⟩
  | bindResponseAffinity key candidateId nowMs =>
      obtain ⟨response, same, _⟩ := scheduler.bindResponseAffinity_same key candidateId nowMs
      rw [apply, same]
      exact ⟨rfl, rfl⟩
  | restoreResponseAffinity key candidateId expiresAtMs nowMs =>
      obtain ⟨response, same, _⟩ :=
        scheduler.restoreResponseAffinity_same key candidateId expiresAtMs nowMs
      rw [apply, same]
      exact ⟨rfl, rfl⟩
  | bindPromptAffinity key candidateId nowMs =>
      obtain ⟨prompt, same⟩ := (scheduler.promptAffinity_same key candidateId 0 nowMs).1
      rw [apply, same]
      exact ⟨rfl, rfl⟩
  | bindPromptAffinitySticky key candidateId nowMs =>
      obtain ⟨prompt, same⟩ := (scheduler.promptAffinity_same key candidateId 0 nowMs).2.1
      rw [apply, same]
      exact ⟨rfl, rfl⟩
  | restorePromptAffinity key candidateId expiresAtMs nowMs =>
      obtain ⟨prompt, same⟩ :=
        (scheduler.promptAffinity_same key candidateId expiresAtMs nowMs).2.2.1
      rw [apply, same]
      exact ⟨rfl, rfl⟩
  | invalidatePromptAffinity key =>
      obtain ⟨prompt, same⟩ := (scheduler.promptAffinity_same key "" 0 0).2.2.2.1
      rw [apply, same]
      exact ⟨rfl, rfl⟩
  | invalidatePromptAffinityForCandidate key candidateId =>
      obtain ⟨prompt, same⟩ := (scheduler.promptAffinity_same key candidateId 0 0).2.2.2.2
      rw [apply, same]
      exact ⟨rfl, rfl⟩
  | beginRotationDispatch reservationId budget clock unixTimeMs =>
      rw [apply]
      unfold beginRotationDispatch
      split
      · exact ⟨rfl, rfl⟩
      · dsimp only
        split
        · exact ⟨rfl, rfl⟩
        split
        · exact ⟨rfl, rfl⟩
        · unfold recordReservationDispatch
          split <;> exact ⟨rfl, rfl⟩
  | settleRotationWithLatency reservationId =>
      rw [apply]
      unfold settleRotationWithLatency settleRotationLease
      split
      · exact ⟨rfl, rfl⟩
      split <;> exact ⟨rfl, rfl⟩
  | cancelRotation reservationId =>
      rw [apply]
      unfold cancelRotation settleRotationLease
      split
      · exact ⟨rfl, rfl⟩
      split <;> exact ⟨rfl, rfl⟩
  | releaseRotationUnstarted reservationId =>
      rw [apply]
      unfold releaseRotationUnstarted
      split
      · exact ⟨rfl, rfl⟩
      split <;> exact ⟨rfl, rfl⟩
  | recordSuccess candidateId model nowMs =>
      rw [apply]
      unfold recordSuccess
      split <;> exact ⟨rfl, rfl⟩
  | setCooldownWithReason candidateId request =>
      exact scheduler.setCooldownWithReason_sameFences candidateId request
  | clearCooldown candidateId model =>
      rw [apply]
      unfold clearCooldown
      split
      · exact ⟨rfl, rfl⟩
      · dsimp only
        split <;> exact ⟨rfl, rfl⟩
  | observeSharedRateLimit candidateId bucket request nowMs =>
      rw [apply]
      unfold observeSharedRateLimit
      split
      · exact ⟨rfl, rfl⟩
      · apply foldl_setCooldown (SameFences scheduler)
        · exact ⟨rfl, rfl⟩
        · intro current member same
          have step := current.setCooldownWithReason_sameFences member
          exact ⟨(step _).1.trans same.1, (step _).2.trans same.2⟩

/-! ### Operations that move work -/

theorem removeNow_keepsFences (candidateId : String) :
    KeepsFences scheduler (scheduler.removeNow candidateId).1 := by
  obtain ⟨memberActivity, same⟩ := scheduler.removeNow_same candidateId
  rw [same]
  refine ⟨rfl, fun other => ?_, fun other present absent => ?_⟩
  · by_cases same : other = candidateId
    · subst same
      exact .inr ⟨by simp [eraseCandidate], by simp [eraseCandidate]⟩
    · exact .inl (by simp [eraseCandidate, Std.ExtTreeMap.getElem?_erase, Ne.symm same])
  · by_cases same : other = candidateId
    · subst same
      simp [eraseCandidate]
    · have stays : scheduler.candidates[other]? = none := by
        simpa [eraseCandidate, Std.ExtTreeMap.getElem?_erase, Ne.symm same] using absent
      rw [stays] at present
      cases present

private theorem finalizeRetiredIfIdle_keepsFences (candidateId : String) :
    KeepsFences scheduler (scheduler.finalizeRetiredIfIdle candidateId) := by
  unfold finalizeRetiredIfIdle
  split
  · exact scheduler.removeNow_keepsFences candidateId
  · exact .of_eq rfl rfl fun _ present => present

private theorem upsert_keepsFences (candidate : RuntimeCandidate) :
    KeepsFences scheduler (scheduler.upsert candidate).1 := by
  obtain ⟨limits, revisions, same⟩ := scheduler.upsert_cases candidate
  rcases same with same | same <;> rw [same]
  · exact .of_eq rfl rfl fun _ present => present
  · refine .of_eq rfl rfl fun other present => ?_
    by_cases same : candidate.id = other
    · simp [installCandidate, same]
    · simpa [installCandidate, Std.ExtTreeMap.getElem?_insert, same] using present

private theorem remove_keepsFences (candidateId : String) :
    KeepsFences scheduler (scheduler.remove candidateId).1 := by
  obtain ⟨limits, references, ⟨_, same⟩ | ⟨_, _, same⟩ | ⟨rotation, _, _, same⟩⟩ :=
    scheduler.remove_cases candidateId <;> rw [same]
  · exact .of_eq rfl rfl fun _ present => present
  · refine .of_eq rfl rfl fun other present => ?_
    simp only [retireCandidate, Std.ExtTreeMap.getElem?_modify]
    split
    next same =>
      obtain rfl : candidateId = other := by simpa using same
      simpa using present
    next => exact present
  · have dropped := removeNow_keepsFences
      { scheduler with sharedRateLimits := limits, quotaReferences := references, rotation }
      candidateId
    exact ⟨dropped.epoch, dropped.fences, dropped.removed⟩

private theorem reserveRequestWithOperation_keepsFences (request : ReserveRequest) :
    KeepsFences scheduler (scheduler.reserveRequestWithOperation request).1 := by
  obtain ⟨rotation, same | ⟨candidate, lease, _, same⟩⟩ :=
    scheduler.reserveRequestWithOperation_cases request <;> rw [same]
  · exact .of_eq rfl rfl fun _ present => present
  · exact .of_eq rfl rfl fun _ present => present

private theorem releaseReservation_keepsFences (reservationId : ReservationId) :
    KeepsFences scheduler (scheduler.releaseReservation reservationId).1 := by
  obtain ⟨rotation, leases, _, same | ⟨reservation, _, _, _, same⟩⟩ :=
    scheduler.releaseReservation_cases reservationId <;> rw [same]
  · exact .of_eq rfl rfl fun _ present => present
  · have dropped := finalizeRetiredIfIdle_keepsFences
      ({ scheduler with
          rotation
          rotationLeases := leases
          reservations := ⟨scheduler.reservations.nextId,
            scheduler.reservations.active.erase reservationId⟩ }.releaseActivity reservation)
      reservation.candidateId
    exact ⟨dropped.epoch, dropped.fences, dropped.removed⟩

/-- Fences change with their own operations and with the drop of their candidate. -/
private theorem apply_keepsFences (operation : SchedulerOperation)
    (others : operation.movesFences = false) :
    KeepsFences scheduler (scheduler.apply operation) := by
  by_cases idle : operation.movesWork = false
  · obtain ⟨epoch, fences⟩ := scheduler.apply_sameFences operation idle others
    refine .of_eq epoch fences fun candidateId present => ?_
    have members := (scheduler.apply_sameWork operation idle).members candidateId
    have kept := congrArg Option.isSome members
    rw [Option.isSome_map, Option.isSome_map] at kept
    exact kept.trans present
  · cases operation with
    | upsert candidate => exact scheduler.upsert_keepsFences candidate
    | remove candidateId => exact scheduler.remove_keepsFences candidateId
    | reserveRequestWithOperation request =>
        exact scheduler.reserveRequestWithOperation_keepsFences request
    | releaseReservation reservationId =>
        exact scheduler.releaseReservation_keepsFences reservationId
    | _ => exact absurd rfl idle

/-! ### Operations on fences -/

/-- A begin is refused, joins the group of the entry or opens one under the next epoch. -/
theorem beginExecutionFence_cases (candidateId : String) :
    ((scheduler.beginExecutionFence candidateId).1 = scheduler ∧
      ∀ epoch, (scheduler.beginExecutionFence candidateId).2 ≠ .returned (some epoch)) ∨
    (∃ epoch count, (scheduler.candidates[candidateId]?).isSome = true ∧
      scheduler.executionFences[candidateId]? = some (epoch, count) ∧
      scheduler.beginExecutionFence candidateId = ({ scheduler with
        executionFences := scheduler.executionFences.insert candidateId (epoch, count + 1) },
        .returned (some epoch))) ∨
    ((scheduler.candidates[candidateId]?).isSome = true ∧
      scheduler.executionFences[candidateId]? = none ∧
      scheduler.beginExecutionFence candidateId = ({ scheduler with
        nextExecutionFenceEpoch := scheduler.nextExecutionFenceEpoch + 1
        executionFences := scheduler.executionFences.insert candidateId
          (scheduler.nextExecutionFenceEpoch + 1, 1) },
        .returned (some (scheduler.nextExecutionFenceEpoch + 1)))) := by
  unfold beginExecutionFence
  split
  · exact .inl ⟨rfl, by simp⟩
  next present =>
  have isPresent : (scheduler.candidates[candidateId]?).isSome = true := by simpa using present
  split
  next epoch count fenced =>
    split
    · exact .inr (.inl ⟨epoch, count, isPresent, fenced, rfl⟩)
    · exact .inl ⟨rfl, by simp⟩
  next free =>
    split
    · exact .inr (.inr ⟨isPresent, free, rfl⟩)
    · exact .inl ⟨rfl, by simp⟩

private theorem endExecutionFence_other {candidateId : String} {epoch : Nat}
    (other : ∀ count, scheduler.executionFences[candidateId]? ≠ some (epoch, count)) :
    scheduler.endExecutionFence candidateId epoch = scheduler := by
  unfold endExecutionFence
  split
  · rfl
  next currentEpoch count fenced =>
    rw [if_pos]
    rintro rfl
    exact other count fenced

theorem endExecutionFence_current {candidateId : String} {epoch count : Nat}
    (fenced : scheduler.executionFences[candidateId]? = some (epoch, count)) :
    (scheduler.endExecutionFence candidateId epoch).executionFences =
      if count ≤ 1 then scheduler.executionFences.erase candidateId
      else scheduler.executionFences.insert candidateId (epoch, count - 1) := by
  unfold endExecutionFence
  rw [fenced]
  dsimp only
  rw [if_neg (by simp)]
  split <;> rfl

end PoolScheduler

/-! ### Holders -/

/-- A scheduler together with the callers that have begun a fence and not ended
it: those that `held` one since the entry of its candidate was last dropped, and
those whose fence the entry did not outlive. `returned` lists every epoch handed out. -/
structure FenceRun where
  scheduler : PoolScheduler
  held : List (String × Nat)
  outlived : List (String × Nat)
  returned : List Nat

inductive FenceEvent where
  | begin (candidateId : String)
  | finish (candidateId : String) (epoch : Nat)
  | other (operation : SchedulerOperation)

namespace FenceRun

/-- No candidates, no fences. -/
def start : FenceRun := ⟨.create, [], [], []⟩

def begin (state : FenceRun) (candidateId : String) : FenceRun :=
  let (scheduler, outcome) := state.scheduler.beginExecutionFence candidateId
  match outcome with
  | .returned (some epoch) =>
    { state with
      scheduler
      held := (candidateId, epoch) :: state.held
      returned := epoch :: state.returned }
  | _ => { state with scheduler }

def finish (state : FenceRun) (candidateId : String) (epoch : Nat) : FenceRun :=
  let scheduler := state.scheduler.endExecutionFence candidateId epoch
  -- Each holder ends its fence once, a holder from before a drop as well.
  if (candidateId, epoch) ∈ state.held then
    { state with scheduler, held := state.held.erase (candidateId, epoch) }
  else if (candidateId, epoch) ∈ state.outlived then
    { state with scheduler, outlived := state.outlived.erase (candidateId, epoch) }
  else state

/-- Whether the entry that a fence holds back is there. -/
def entryStays (scheduler : PoolScheduler) (fence : String × Nat) : Bool :=
  (scheduler.candidates[fence.1]?).isSome

def perform (state : FenceRun) (operation : SchedulerOperation) : FenceRun :=
  if operation.movesFences then state
  else
    let scheduler := state.scheduler.apply operation
    { state with
      scheduler
      held := state.held.filter (entryStays scheduler)
      outlived := state.held.filter (fun fence => !entryStays scheduler fence) ++ state.outlived }

def step (state : FenceRun) : FenceEvent → FenceRun
  | .begin candidateId => state.begin candidateId
  | .finish candidateId epoch => state.finish candidateId epoch
  | .other operation => state.perform operation

/-- The count of a group is the number of its holders, and a group that a drop
ended is never current again. -/
structure Accounted (state : FenceRun) : Prop where
  fenced : ∀ (candidateId : String) (epoch count : Nat),
    state.scheduler.executionFences[candidateId]? = some (epoch, count) →
      (state.scheduler.candidates[candidateId]?).isSome = true ∧
        count = state.held.count (candidateId, epoch) ∧ 0 < count
  group : ∀ candidateId epoch, (candidateId, epoch) ∈ state.held →
    ∃ count, state.scheduler.executionFences[candidateId]? = some (epoch, count)
  gone : ∀ fence ∈ state.outlived, fence ∉ state.held
  known : ∀ fence, fence ∈ state.held ∨ fence ∈ state.outlived → fence.2 ∈ state.returned
  issued : ∀ epoch ∈ state.returned, epoch ≤ state.scheduler.nextExecutionFenceEpoch

namespace Accounted

theorem initial : Accounted start where
  fenced _ _ _ fenced := by simp [start, PoolScheduler.create] at fenced
  group _ _ holds := by simp [start] at holds
  gone _ outlived := by simp [start] at outlived
  known _ some := by simp [start] at some
  issued _ returned := by simp [start] at returned

variable {state : FenceRun}

theorem held_of_fenced (accounted : Accounted state) {candidateId : String} {epoch count : Nat}
    (fenced : state.scheduler.executionFences[candidateId]? = some (epoch, count)) :
    (candidateId, epoch) ∈ state.held := by
  obtain ⟨_, same, positive⟩ := accounted.fenced candidateId epoch count fenced
  exact List.count_pos_iff.mp (same ▸ positive)

/-- A fence that the entry did not outlive ends without effect. -/
theorem finish_outlived (accounted : Accounted state) {candidateId : String} {epoch : Nat}
    (outlived : (candidateId, epoch) ∈ state.outlived) :
    state.scheduler.endExecutionFence candidateId epoch = state.scheduler :=
  state.scheduler.endExecutionFence_other fun _ fenced =>
    accounted.gone _ outlived (accounted.held_of_fenced fenced)

theorem perform (accounted : Accounted state) (operation : SchedulerOperation) :
    Accounted (state.perform operation) := by
  unfold FenceRun.perform
  split
  · exact accounted
  next others =>
  have keeps := state.scheduler.apply_keepsFences operation (Bool.eq_false_iff.mpr others)
  refine ⟨?_, ?_, ?_, ?_, ?_⟩
  · intro candidateId epoch count fenced
    have present : ((state.scheduler.apply operation).candidates[candidateId]?).isSome = true := by
      rcases keeps.fences candidateId with same | ⟨dropped, _⟩
      · obtain ⟨before, _⟩ := accounted.fenced candidateId epoch count (same ▸ fenced)
        by_contra absent
        have dropped := keeps.removed candidateId before (by simpa using absent)
        cases fenced.symm.trans dropped
      · cases fenced.symm.trans dropped
    rcases keeps.fences candidateId with same | ⟨dropped, _⟩
    · obtain ⟨_, counted, positive⟩ := accounted.fenced candidateId epoch count (same ▸ fenced)
      refine ⟨present, ?_, positive⟩
      rw [counted]
      have stays : entryStays (state.scheduler.apply operation) (candidateId, epoch) = true := present
      exact (List.count_filter stays).symm
    · cases fenced.symm.trans dropped
  · intro candidateId epoch holds
    obtain ⟨before, present⟩ := List.mem_filter.mp holds
    obtain ⟨count, fenced⟩ := accounted.group candidateId epoch before
    rcases keeps.fences candidateId with same | ⟨_, absent⟩
    · exact ⟨count, same.trans fenced⟩
    · rw [entryStays, absent] at present
      cases present
  · intro fence outlived holds
    obtain ⟨before, present⟩ := List.mem_filter.mp holds
    rcases List.mem_append.mp outlived with dropped | earlier
    · have left := (List.mem_filter.mp dropped).2
      rw [present] at left
      cases left
    · exact accounted.gone fence earlier before
  · rintro fence (holds | outlived)
    · exact accounted.known fence (.inl (List.mem_filter.mp holds).1)
    · rcases List.mem_append.mp outlived with dropped | earlier
      · exact accounted.known fence (.inl (List.mem_filter.mp dropped).1)
      · exact accounted.known fence (.inr earlier)
  · intro epoch returned
    exact keeps.epoch ▸ accounted.issued epoch returned

/-- One more holder of a group that only `epoch` names. -/
theorem joined (accounted : Accounted state) {candidateId : String} {epoch count next : Nat}
    (present : (state.scheduler.candidates[candidateId]?).isSome = true)
    (counted : count = state.held.count (candidateId, epoch))
    (only : ∀ other, (candidateId, other) ∈ state.held → other = epoch)
    (unlost : (candidateId, epoch) ∉ state.outlived)
    (later : state.scheduler.nextExecutionFenceEpoch ≤ next) (within : epoch ≤ next) :
    Accounted { state with
      scheduler := { state.scheduler with
        nextExecutionFenceEpoch := next
        executionFences := state.scheduler.executionFences.insert candidateId (epoch, count + 1) }
      held := (candidateId, epoch) :: state.held
      returned := epoch :: state.returned } := by
  refine ⟨?_, ?_, ?_, ?_, ?_⟩
  · intro other otherEpoch otherCount found
    by_cases same : candidateId = other
    · subst same
      obtain ⟨rfl, rfl⟩ : epoch = otherEpoch ∧ count + 1 = otherCount := by simpa using found
      exact ⟨present, by simp [counted], Nat.succ_pos count⟩
    · rw [Std.ExtTreeMap.getElem?_insert, if_neg (by simpa using same)] at found
      obtain ⟨there, held, positive⟩ := accounted.fenced other otherEpoch otherCount found
      refine ⟨there, ?_, positive⟩
      rw [List.count_cons_of_ne (by simp [same]), held]
  · intro other otherEpoch found
    by_cases same : candidateId = other
    · subst same
      have current : otherEpoch = epoch := by
        rcases List.mem_cons.mp found with new | earlier
        · exact (Prod.mk.inj new).2
        · exact only otherEpoch earlier
      exact ⟨count + 1, by simp [current]⟩
    · have earlier : (other, otherEpoch) ∈ state.held := by
        rcases List.mem_cons.mp found with new | earlier
        · exact absurd (Prod.mk.inj new).1.symm same
        · exact earlier
      obtain ⟨before, current⟩ := accounted.group other otherEpoch earlier
      refine ⟨before, ?_⟩
      rw [Std.ExtTreeMap.getElem?_insert, if_neg (by simpa using same), current]
  · intro fence outlived found
    rcases List.mem_cons.mp found with rfl | earlier
    · exact unlost outlived
    · exact accounted.gone fence outlived earlier
  · rintro fence (found | outlived)
    · rcases List.mem_cons.mp found with rfl | earlier
      · exact List.mem_cons_self
      · exact List.mem_cons_of_mem _ (accounted.known fence (.inl earlier))
    · exact List.mem_cons_of_mem _ (accounted.known fence (.inr outlived))
  · intro otherEpoch returned
    rcases List.mem_cons.mp returned with rfl | earlier
    · exact within
    · exact (accounted.issued otherEpoch earlier).trans later

/-- All holders of an entry share its group. -/
theorem same_group (accounted : Accounted state) {candidateId : String} {epoch count other : Nat}
    (fenced : state.scheduler.executionFences[candidateId]? = some (epoch, count))
    (holds : (candidateId, other) ∈ state.held) : other = epoch := by
  obtain ⟨_, current⟩ := accounted.group candidateId other holds
  exact (Prod.mk.inj (Option.some.inj (current.symm.trans fenced))).1

theorem begin (accounted : Accounted state) (candidateId : String) :
    Accounted (state.begin candidateId) := by
  unfold FenceRun.begin
  rcases state.scheduler.beginExecutionFence_cases candidateId with
    ⟨same, refused⟩ | ⟨epoch, count, present, fenced, begun⟩ | ⟨present, free, begun⟩
  · dsimp only
    split
    next epoch returned => exact absurd returned (refused epoch)
    next =>
      rw [same]
      exact accounted
  · rw [begun]
    have holds := accounted.held_of_fenced fenced
    exact accounted.joined present (accounted.fenced candidateId epoch count fenced).2.1
      (fun _ => accounted.same_group fenced) (fun outlived => accounted.gone _ outlived holds)
      (Nat.le_refl _) (accounted.issued _ (accounted.known _ (.inl holds)))
  · rw [begun]
    have unheld : ∀ epoch, (candidateId, epoch) ∉ state.held := by
      intro epoch found
      obtain ⟨count, fenced⟩ := accounted.group candidateId epoch found
      cases free.symm.trans fenced
    refine accounted.joined present (List.count_eq_zero.mpr (unheld _)).symm
      (fun epoch found => absurd found (unheld epoch)) ?_ (Nat.le_succ _) (Nat.le_refl _)
    intro outlived
    exact absurd (accounted.issued _ (accounted.known _ (.inr outlived))) (Nat.not_succ_le_self _)

/-- The end of a held fence takes one holder off its group. -/
private theorem finish_held (accounted : Accounted state) {candidateId : String} {epoch : Nat}
    (holds : (candidateId, epoch) ∈ state.held) :
    Accounted { state with
      scheduler := state.scheduler.endExecutionFence candidateId epoch
      held := state.held.erase (candidateId, epoch) } := by
  obtain ⟨count, fenced⟩ := accounted.group candidateId epoch holds
  obtain ⟨present, counted, positive⟩ := accounted.fenced candidateId epoch count fenced
  have ended := state.scheduler.endExecutionFence_current fenced
  obtain ⟨fences, same⟩ := state.scheduler.endExecutionFence_same candidateId epoch
  rw [same] at ended ⊢
  have left : (state.held.erase (candidateId, epoch)).count (candidateId, epoch) = count - 1 := by
    rw [List.count_erase_self, ← counted]
  have elsewhere : ∀ other : String, candidateId ≠ other →
      fences[other]? = state.scheduler.executionFences[other]? := by
    intro other differs
    rw [show fences = _ from ended]
    split <;> simp [Std.ExtTreeMap.getElem?_erase, Std.ExtTreeMap.getElem?_insert, differs]
  have here : fences[candidateId]? = if count ≤ 1 then none else some (epoch, count - 1) := by
    rw [show fences = _ from ended]
    split <;> simp
  refine ⟨?_, ?_, ?_, ?_, ?_⟩
  · intro other otherEpoch otherCount found
    by_cases itself : candidateId = other
    · subst itself
      rw [show fences[candidateId]? = _ from here] at found
      split at found
      · cases found
      next several =>
        obtain ⟨rfl, rfl⟩ : epoch = otherEpoch ∧ count - 1 = otherCount := by simpa using found
        exact ⟨present, left.symm, by omega⟩
    · rw [show fences[other]? = _ from elsewhere other itself] at found
      obtain ⟨there, held, more⟩ := accounted.fenced other otherEpoch otherCount found
      refine ⟨there, ?_, more⟩
      rw [List.count_erase_of_ne (by simp [Ne.symm itself]), held]
  · intro other otherEpoch found
    have before := List.mem_of_mem_erase found
    by_cases itself : candidateId = other
    · subst itself
      obtain rfl := accounted.same_group fenced before
      have some := List.count_pos_iff.mpr found
      rw [left] at some
      refine ⟨count - 1, ?_⟩
      rw [show fences[candidateId]? = _ from here, if_neg (by omega)]
    · obtain ⟨otherCount, current⟩ := accounted.group other otherEpoch before
      exact ⟨otherCount, (elsewhere other itself).trans current⟩
  · intro fence outlived found
    exact accounted.gone fence outlived (List.mem_of_mem_erase found)
  · rintro fence (found | outlived)
    · exact accounted.known fence (.inl (List.mem_of_mem_erase found))
    · exact accounted.known fence (.inr outlived)
  · exact accounted.issued

theorem finish (accounted : Accounted state) (candidateId : String) (epoch : Nat) :
    Accounted (state.finish candidateId epoch) := by
  unfold FenceRun.finish
  dsimp only
  split
  next holds => exact accounted.finish_held holds
  next =>
  split
  next outlived =>
    rw [accounted.finish_outlived outlived]
    refine ⟨accounted.fenced, accounted.group, ?_, ?_, accounted.issued⟩
    · intro fence late
      exact accounted.gone fence (List.mem_of_mem_erase late)
    · rintro fence (found | late)
      · exact accounted.known fence (.inl found)
      · exact accounted.known fence (.inr (List.mem_of_mem_erase late))
  next => exact accounted

theorem step (accounted : Accounted state) (event : FenceEvent) : Accounted (state.step event) := by
  cases event with
  | begin candidateId => exact accounted.begin candidateId
  | finish candidateId epoch => exact accounted.finish candidateId epoch
  | other operation => exact accounted.perform operation

end Accounted

end FenceRun

end ZenithRelay.Scheduler
