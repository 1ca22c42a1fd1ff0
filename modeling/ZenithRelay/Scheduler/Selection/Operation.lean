import ZenithRelay.Foundations.Execution
import ZenithRelay.Scheduler.Selection.Ownership
import ZenithRelay.Scheduler.Selection.Recovery
import ZenithRelay.Scheduler.Selection.Reservations

/-!
# Operations

The pool scheduler as a state machine, and two frame laws that every operation
obeys: which ones touch the reserved work, and which keys gain a response owner.
-/

set_option autoImplicit false

namespace ZenithRelay.Scheduler

open Rotation

inductive SchedulerOperation where
  | retireForReplacement
  | syncAllRotationCandidates
  | prepareRotationRequest (request : SelectionRequest) (operation : RotationOperation)
      (freshRequestId : RequestId)
  | selectForOperation (request : SelectionRequest) (lane : InFlightLane)
      (operation : RotationOperation) (freshRequestId : RequestId)
  | setPoolRouting (policy : PoolRoutingPolicy)
  | setNativeRoute (candidateId : String) (native : Bool)
  | invalidateQuotaReferenceSource (accountId : String)
  | setQuotaReferences (references : BTreeMap String CandidateQuotaReference)
  | setQuotaStaleAfterMs (staleAfterMs : Nat)
  | upsert (candidate : RuntimeCandidate)
  | remove (candidateId : String)
  | setProtectedCandidate (candidateId : Option String) (reserveBasisPoints : Nat)
  | updateCandidateAvailabilityAt (candidateId : String) (enabled : Bool)
      (health : CandidateHealth) (quota : CandidateQuota) (quotaUpdatedAtMs : Option Nat)
  | updateCandidateAvailabilityWithQuotaAt (candidateId : String) (enabled : Bool)
      (health : CandidateHealth) (quotaState : CandidateQuotaState)
  | updateCandidateQuotaAt (candidateId : String) (quotaState : CandidateQuotaState)
  | setCandidateHealth (candidateId : String) (health : CandidateHealth)
  | setExecutionFence (candidateId : String) (fenced : Bool)
  | beginExecutionFence (candidateId : String)
  | endExecutionFence (candidateId : String) (epoch : Nat)
  | blockCapability (candidateId model : String)
  | clearCapabilityBlocks (candidateId : String)
  | reserveRequestWithOperation (request : ReserveRequest)
  | beginRotationDispatch (reservationId : ReservationId) (budget : RequestBudget)
      (clock : ClockReadings) (unixTimeMs : Nat)
  | settleRotationWithLatency (reservationId : ReservationId) (observation : AttemptObservation)
      (budget : RequestBudget) (clock : ClockReadings) (nowMs : Nat)
      (firstOutputLatencyMs : Option Nat)
  | cancelRotation (reservationId : ReservationId) (budget : RequestBudget)
      (clock : ClockReadings) (nowMs : Nat)
  | releaseRotationUnstarted (reservationId : ReservationId)
  | releaseReservation (reservationId : ReservationId)
  | bindResponseAffinity (key candidateId : String) (nowMs : Nat)
  | restoreResponseAffinity (key candidateId : String) (expiresAtMs nowMs : Nat)
  | responseAffinityCandidate (key : String) (nowMs : Nat)
  | hasResponseAffinity (key : String) (nowMs : Nat)
  | invalidateResponseAffinity (key : String)
  | bindPromptAffinity (key candidateId : String) (nowMs : Nat)
  | bindPromptAffinitySticky (key candidateId : String) (nowMs : Nat)
  | restorePromptAffinity (key candidateId : String) (expiresAtMs nowMs : Nat)
  | hasPromptAffinity (key : String) (nowMs : Nat)
  | invalidatePromptAffinity (key : String)
  | invalidatePromptAffinityForCandidate (key candidateId : String)
  | recordSuccess (candidateId model : String) (nowMs : Nat)
  | setCooldownWithReason (candidateId : String) (request : CooldownRequest)
  | clearCooldown (candidateId model : String)
  | observeSharedRateLimit (candidateId : String) (bucket : BitVec 256)
      (request : CooldownRequest) (nowMs : Nat)
  | resetSharedRateLimitBackoff (candidateId model : String) (nowMs : Nat)

/-- Operations that add or remove candidates or reserved requests. -/
def SchedulerOperation.movesWork : SchedulerOperation → Bool
  | .upsert _ | .remove _ | .reserveRequestWithOperation _ | .releaseReservation _ => true
  | _ => false

/-- The key and owner an operation may write to the response ownership. -/
def SchedulerOperation.boundOwner : SchedulerOperation → Option (String × String)
  | .bindResponseAffinity key candidateId _ => some (key, candidateId)
  | .restoreResponseAffinity key candidateId _ _ => some (key, candidateId)
  | _ => none

namespace PoolScheduler

/-- The scheduler after one operation; its result is not part of the state. -/
def apply (scheduler : PoolScheduler) : SchedulerOperation → PoolScheduler
  | .retireForReplacement => scheduler.retireForReplacement
  | .syncAllRotationCandidates => scheduler.syncAllRotationCandidates
  | .prepareRotationRequest request operation freshRequestId =>
    (scheduler.prepareRotationRequest request operation freshRequestId).1
  | .selectForOperation request lane operation freshRequestId =>
    (scheduler.selectForOperation request lane operation freshRequestId).1
  | .setPoolRouting policy => (scheduler.setPoolRouting policy).1
  | .setNativeRoute candidateId native => scheduler.setNativeRoute candidateId native
  | .invalidateQuotaReferenceSource accountId =>
    (scheduler.invalidateQuotaReferenceSource accountId).1
  | .setQuotaReferences references => (scheduler.setQuotaReferences references).1
  | .setQuotaStaleAfterMs staleAfterMs => scheduler.setQuotaStaleAfterMs staleAfterMs
  | .upsert candidate => (scheduler.upsert candidate).1
  | .remove candidateId => (scheduler.remove candidateId).1
  | .setProtectedCandidate candidateId reserveBasisPoints =>
    (scheduler.setProtectedCandidate candidateId reserveBasisPoints).1
  | .updateCandidateAvailabilityAt candidateId enabled health quota quotaUpdatedAtMs =>
    (scheduler.updateCandidateAvailabilityAt candidateId enabled health quota quotaUpdatedAtMs).1
  | .updateCandidateAvailabilityWithQuotaAt candidateId enabled health quotaState =>
    (scheduler.updateCandidateAvailabilityWithQuotaAt candidateId enabled health quotaState).1
  | .updateCandidateQuotaAt candidateId quotaState =>
    (scheduler.updateCandidateQuotaAt candidateId quotaState).1
  | .setCandidateHealth candidateId health => (scheduler.setCandidateHealth candidateId health).1
  | .setExecutionFence candidateId fenced => (scheduler.setExecutionFence candidateId fenced).1
  | .beginExecutionFence candidateId => (scheduler.beginExecutionFence candidateId).1
  | .endExecutionFence candidateId epoch => scheduler.endExecutionFence candidateId epoch
  | .blockCapability candidateId model => (scheduler.blockCapability candidateId model).1
  | .clearCapabilityBlocks candidateId => (scheduler.clearCapabilityBlocks candidateId).1
  | .reserveRequestWithOperation request => (scheduler.reserveRequestWithOperation request).1
  | .beginRotationDispatch reservationId budget clock unixTimeMs =>
    (scheduler.beginRotationDispatch reservationId budget clock unixTimeMs).1
  | .settleRotationWithLatency reservationId observation budget clock nowMs
      firstOutputLatencyMs =>
    (scheduler.settleRotationWithLatency reservationId observation budget clock nowMs
      firstOutputLatencyMs).1
  | .cancelRotation reservationId budget clock nowMs =>
    (scheduler.cancelRotation reservationId budget clock nowMs).1
  | .releaseRotationUnstarted reservationId =>
    (scheduler.releaseRotationUnstarted reservationId).1
  | .releaseReservation reservationId => (scheduler.releaseReservation reservationId).1
  | .bindResponseAffinity key candidateId nowMs =>
    (scheduler.bindResponseAffinity key candidateId nowMs).1
  | .restoreResponseAffinity key candidateId expiresAtMs nowMs =>
    (scheduler.restoreResponseAffinity key candidateId expiresAtMs nowMs).1
  | .responseAffinityCandidate key nowMs => (scheduler.responseAffinityCandidate key nowMs).1
  | .hasResponseAffinity key nowMs => (scheduler.hasResponseAffinity key nowMs).1
  | .invalidateResponseAffinity key => (scheduler.invalidateResponseAffinity key).1
  | .bindPromptAffinity key candidateId nowMs =>
    (scheduler.bindPromptAffinity key candidateId nowMs).1
  | .bindPromptAffinitySticky key candidateId nowMs =>
    (scheduler.bindPromptAffinitySticky key candidateId nowMs).1
  | .restorePromptAffinity key candidateId expiresAtMs nowMs =>
    (scheduler.restorePromptAffinity key candidateId expiresAtMs nowMs).1
  | .hasPromptAffinity key nowMs => (scheduler.hasPromptAffinity key nowMs).1
  | .invalidatePromptAffinity key => (scheduler.invalidatePromptAffinity key).1
  | .invalidatePromptAffinityForCandidate key candidateId =>
    (scheduler.invalidatePromptAffinityForCandidate key candidateId).1
  | .recordSuccess candidateId model nowMs => (scheduler.recordSuccess candidateId model nowMs).1
  | .setCooldownWithReason candidateId request =>
    (scheduler.setCooldownWithReason candidateId request).1
  | .clearCooldown candidateId model => (scheduler.clearCooldown candidateId model).1
  | .observeSharedRateLimit candidateId bucket request nowMs =>
    scheduler.observeSharedRateLimit candidateId bucket request nowMs
  | .resetSharedRateLimitBackoff candidateId model nowMs =>
    scheduler.resetSharedRateLimitBackoff candidateId model nowMs

abbrev runOperations (scheduler : PoolScheduler) (operations : List SchedulerOperation) :
    PoolScheduler :=
  Execution.run apply scheduler operations

/-- Reachable from a new scheduler by any operations in any order. -/
abbrev Reachable (scheduler : PoolScheduler) : Prop :=
  Execution.Reachable apply create scheduler

end PoolScheduler

/-- Two activities that count the same requests in flight. -/
structure SchedulerActivity.SameLoad (before after : SchedulerActivity) : Prop where
  text : after.textInFlight = before.textInFlight
  image : after.imageInFlight = before.imageInFlight
  models : after.activeModels = before.activeModels

theorem SchedulerActivity.SameLoad.refl (activity : SchedulerActivity) :
    activity.SameLoad activity := ⟨rfl, rfl, rfl⟩

theorem SchedulerActivity.SameLoad.trans {first second third : SchedulerActivity}
    (early : first.SameLoad second) (late : second.SameLoad third) : first.SameLoad third :=
  ⟨late.text.trans early.text, late.image.trans early.image, late.models.trans early.models⟩

theorem SchedulerActivity.recordDispatch_load (activity : SchedulerActivity)
    (candidateId : String) (lane : InFlightLane) :
    activity.SameLoad (activity.recordDispatch candidateId lane) := by
  cases lane <;> exact ⟨rfl, rfl, rfl⟩

/-- What an operation leaves alone that moves no work: members, tombstones,
reservations and their activity. A lease may be settled, none is added; a key may
lose its response owner, only the key of `bound` may gain one. -/
structure SameWork (bound : Option (String × String)) (before after : PoolScheduler) : Prop where
  members : ∀ candidateId : String, (after.candidates[candidateId]?).map RuntimeCandidate.memberKey =
    (before.candidates[candidateId]?).map RuntimeCandidate.memberKey
  retired : after.retiredCandidates = before.retiredCandidates
  activity : before.activity.SameLoad after.activity
  memberActivity : before.memberActivity.SameLoad after.memberActivity
  reservations : after.reservations = before.reservations
  leases : ∀ (reservationId : ReservationId) (lease : RotationLease),
    after.rotationLeases[reservationId]? = some lease →
      before.rotationLeases[reservationId]? = some lease
  response : ∀ key candidateId, after.responseAffinity.owner key = some candidateId →
    before.responseAffinity.owner key = some candidateId ∨ bound = some (key, candidateId)

namespace SameWork

variable {bound : Option (String × String)} {before after : PoolScheduler}

theorem of_owner (candidates : after.candidates = before.candidates)
    (retired : after.retiredCandidates = before.retiredCandidates)
    (activity : after.activity = before.activity)
    (memberActivity : after.memberActivity = before.memberActivity)
    (reservations : after.reservations = before.reservations)
    (leases : after.rotationLeases = before.rotationLeases)
    (response : ∀ key candidateId, after.responseAffinity.owner key = some candidateId →
      before.responseAffinity.owner key = some candidateId ∨ bound = some (key, candidateId)) :
    SameWork bound before after where
  members _ := by rw [candidates]
  retired := retired
  activity := activity ▸ .refl _
  memberActivity := memberActivity ▸ .refl _
  reservations := reservations
  leases _ _ found := leases ▸ found
  response := response

theorem of_eq (candidates : after.candidates = before.candidates)
    (retired : after.retiredCandidates = before.retiredCandidates)
    (activity : after.activity = before.activity)
    (memberActivity : after.memberActivity = before.memberActivity)
    (reservations : after.reservations = before.reservations)
    (leases : after.rotationLeases = before.rotationLeases)
    (response : before.responseAffinity.Forgets after.responseAffinity) :
    SameWork bound before after :=
  .of_owner candidates retired activity memberActivity reservations leases
    fun key candidateId owned => .inl (response key candidateId owned)

theorem refl (scheduler : PoolScheduler) : SameWork bound scheduler scheduler :=
  .of_eq rfl rfl rfl rfl rfl rfl (.refl _)

/-- An edit of one record that leaves its physical member alone. -/
theorem of_edit {candidateId : String} {edit : RuntimeCandidate → RuntimeCandidate}
    (candidates : after.candidates = before.candidates.modify candidateId edit)
    (keeps : ∀ candidate, (edit candidate).memberKey = candidate.memberKey)
    (retired : after.retiredCandidates = before.retiredCandidates)
    (activity : before.activity.SameLoad after.activity)
    (memberActivity : before.memberActivity.SameLoad after.memberActivity)
    (reservations : after.reservations = before.reservations)
    (leases : after.rotationLeases = before.rotationLeases)
    (response : after.responseAffinity = before.responseAffinity) :
    SameWork bound before after where
  members other := by
    rw [candidates, BTreeMap.lookup_modify]
    split
    · cases before.candidates[other]? <;> simp [keeps]
    · rfl
  retired := retired
  activity := activity
  memberActivity := memberActivity
  reservations := reservations
  leases _ _ found := leases ▸ found
  response _ _ owned := .inl (response ▸ owned)

theorem trans {first second third : PoolScheduler} (early : SameWork none first second)
    (late : SameWork bound second third) : SameWork bound first third where
  members candidateId := (late.members candidateId).trans (early.members candidateId)
  retired := late.retired.trans early.retired
  activity := early.activity.trans late.activity
  memberActivity := early.memberActivity.trans late.memberActivity
  reservations := late.reservations.trans early.reservations
  leases reservationId lease found :=
    early.leases reservationId lease (late.leases reservationId lease found)
  response key candidateId owned := by
    rcases late.response key candidateId owned with earlier | written
    · rcases early.response key candidateId earlier with first | absurd
      · exact .inl first
      · cases absurd
    · exact .inr written

end SameWork

namespace PoolScheduler

variable (scheduler : PoolScheduler) {bound : Option (String × String)}

theorem selectForOperation_state (request : SelectionRequest) (lane : InFlightLane)
    (operation : RotationOperation) (freshRequestId : RequestId) :
    (scheduler.selectForOperation request lane operation freshRequestId).1 =
      (scheduler.prepareRotationRequest request operation freshRequestId).1 := by
  unfold selectForOperation
  split
  next prepared equal => rw [equal]
  next prepared rotationRequest equal =>
    rw [equal]
    dsimp only
    split
    · rfl
    · split <;> rfl

/-- An admission query syncs the engine and prunes expired bindings. -/
theorem prepareRotationRequest_same (request : SelectionRequest) (operation : RotationOperation)
    (freshRequestId : RequestId) :
    ∃ rotation responseAffinity promptAffinity,
      (scheduler.prepareRotationRequest request operation freshRequestId).1 =
        { scheduler with rotation, responseAffinity, promptAffinity } ∧
      scheduler.responseAffinity.Forgets responseAffinity := by
  unfold prepareRotationRequest
  split
  · exact ⟨_, _, _, rfl, .refl _⟩
  unfold rotationRequestFromSyncedState
  split
  · exact ⟨_, _, _, rfl, .refl _⟩
  dsimp only
  cases request.responseAffinityKey with
  | none =>
      dsimp only
      split <;> exact ⟨_, _, _, rfl, .refl _⟩
  | some key =>
      dsimp only
      split <;> exact ⟨_, _, _, rfl, AffinityCache.get_forgets _ _ _⟩

private theorem editCandidate_sameWork (candidateId : String)
    (edit : RuntimeCandidate → RuntimeCandidate)
    (keeps : ∀ candidate, (edit candidate).memberKey = candidate.memberKey) :
    SameWork bound scheduler (scheduler.editCandidate candidateId edit).1 :=
  .of_edit rfl keeps rfl (.refl _) (.refl _) rfl rfl rfl

private theorem recordSuccess_sameWork (candidateId model : String) (nowMs : Nat) :
    SameWork bound scheduler (scheduler.recordSuccess candidateId model nowMs).1 := by
  unfold recordSuccess
  split
  next => exact .refl _
  next =>
    exact .of_edit rfl (fun _ => rfl) rfl (.refl _) (.refl _) rfl rfl rfl

theorem setCooldownWithReason_sameWork (candidateId : String) (request : CooldownRequest) :
    SameWork bound scheduler (scheduler.setCooldownWithReason candidateId request).1 := by
  unfold setCooldownWithReason
  split
  next => exact .refl _
  next =>
    dsimp only
    generalize (if request.scope = "*" then "*" else Text.toAsciiLowercase request.scope) = scope
    split
    next => exact .refl _
    next =>
      exact .of_edit rfl (fun _ => rfl) rfl (.refl _) (.refl _) rfl rfl rfl

private theorem clearCooldown_sameWork (candidateId model : String) :
    SameWork bound scheduler (scheduler.clearCooldown candidateId model).1 := by
  unfold clearCooldown
  split
  next => exact .refl _
  next =>
    dsimp only
    split <;> exact .of_edit rfl (fun _ => rfl) rfl (.refl _) (.refl _) rfl rfl rfl

/-- A relation that every cooldown of a list keeps, all of them keep. -/
theorem foldl_setCooldown (related : PoolScheduler → Prop) (members : List String)
    (request : CooldownRequest) {start : PoolScheduler} (initial : related start)
    (preserved : ∀ scheduler member, related scheduler →
      related (scheduler.setCooldownWithReason member request).1) :
    related (members.foldl
      (fun scheduler member => (scheduler.setCooldownWithReason member request).1) start) := by
  induction members generalizing start with
  | nil => exact initial
  | cons member members ih => exact ih (preserved start member initial)

private theorem observeSharedRateLimit_sameWork (candidateId : String) (bucket : BitVec 256)
    (request : CooldownRequest) (nowMs : Nat) :
    SameWork none scheduler (scheduler.observeSharedRateLimit candidateId bucket request nowMs) := by
  unfold observeSharedRateLimit
  split
  next => exact .refl _
  next =>
    apply foldl_setCooldown (SameWork none scheduler)
    · exact .of_eq rfl rfl rfl rfl rfl rfl (.refl _)
    · intro current member same
      exact same.trans (current.setCooldownWithReason_sameWork member _)

theorem settleRotationLease_sameWork (reservationId : ReservationId)
    (settle : RotationLease → RotationEngine × Except SettlementError RotationSettlement) :
    SameWork bound scheduler (scheduler.settleRotationLease reservationId settle).1 := by
  unfold settleRotationLease
  split
  next => exact .refl _
  next =>
    split
    next => exact .of_eq rfl rfl rfl rfl rfl rfl (.refl _)
    next =>
      refine ⟨fun _ => rfl, rfl, .refl _, .refl _, rfl, ?_, fun _ _ owned => .inl owned⟩
      intro other lease found
      by_cases same : other = reservationId <;> simp [same] at found ⊢
      exact found

private theorem releaseRotationUnstarted_sameWork (reservationId : ReservationId) :
    SameWork bound scheduler (scheduler.releaseRotationUnstarted reservationId).1 := by
  unfold releaseRotationUnstarted
  split
  next => exact .refl _
  next =>
    split
    next =>
      refine ⟨fun _ => rfl, rfl, .refl _, .refl _, rfl, ?_, fun _ _ owned => .inl owned⟩
      intro other lease found
      by_cases same : other = reservationId <;> simp [same] at found ⊢
      exact found
    next => exact .of_eq rfl rfl rfl rfl rfl rfl (.refl _)

private theorem recordReservationDispatch_sameWork (reservationId : ReservationId) (unixTimeMs : Nat) :
    SameWork bound scheduler (scheduler.recordReservationDispatch reservationId unixTimeMs) := by
  unfold recordReservationDispatch
  split
  next => exact .refl _
  next =>
    exact .of_edit rfl (fun _ => rfl) rfl (SchedulerActivity.recordDispatch_load _ _ _)
      (SchedulerActivity.recordDispatch_load _ _ _) rfl rfl rfl

private theorem beginRotationDispatch_sameWork (reservationId : ReservationId) (budget : RequestBudget)
    (clock : ClockReadings) (unixTimeMs : Nat) :
    SameWork bound scheduler
      (scheduler.beginRotationDispatch reservationId budget clock unixTimeMs).1 := by
  unfold beginRotationDispatch
  split
  next => exact .refl _
  next =>
    dsimp only
    split
    next => exact .of_eq rfl rfl rfl rfl rfl rfl (.refl _)
    next =>
      split
      next => exact .of_eq rfl rfl rfl rfl rfl rfl (.refl _)
      next rotation _ _ _ =>
        have synced : SameWork none scheduler { scheduler.syncAllRotationCandidates with rotation } :=
          .of_eq rfl rfl rfl rfl rfl rfl (.refl _)
        exact synced.trans (recordReservationDispatch_sameWork _ reservationId unixTimeMs)

theorem setPoolRouting_same (policy : PoolRoutingPolicy) :
    ∃ poolRouting rotation,
      (scheduler.setPoolRouting policy).1 = { scheduler with poolRouting, rotation } := by
  unfold setPoolRouting
  split
  next => exact ⟨_, _, rfl⟩
  next =>
    split
    next =>
      unfold syncRotationMode
      dsimp only
      split <;> exact ⟨_, _, rfl⟩
    next => exact ⟨_, _, rfl⟩

theorem beginExecutionFence_same (candidateId : String) :
    ∃ executionFences nextExecutionFenceEpoch,
      (scheduler.beginExecutionFence candidateId).1 =
        { scheduler with executionFences, nextExecutionFenceEpoch } := by
  unfold beginExecutionFence
  split
  · exact ⟨_, _, rfl⟩
  split <;> split <;> exact ⟨_, _, rfl⟩

theorem endExecutionFence_same (candidateId : String) (epoch : Nat) :
    ∃ executionFences, scheduler.endExecutionFence candidateId epoch =
      { scheduler with executionFences } := by
  unfold endExecutionFence
  split
  · exact ⟨_, rfl⟩
  split
  · exact ⟨_, rfl⟩
  split <;> exact ⟨_, rfl⟩

private theorem setExecutionFence_same (candidateId : String) (fenced : Bool) :
    ∃ executionFences nextExecutionFenceEpoch,
      (scheduler.setExecutionFence candidateId fenced).1 =
        { scheduler with executionFences, nextExecutionFenceEpoch } := by
  unfold setExecutionFence
  split
  · exact scheduler.beginExecutionFence_same candidateId
  split
  · exact ⟨_, _, rfl⟩
  split
  next epoch _ _ =>
    obtain ⟨fences, ended⟩ := scheduler.endExecutionFence_same candidateId epoch
    exact ⟨fences, _, ended⟩
  next => exact ⟨_, _, rfl⟩

theorem resetSharedRateLimitBackoff_same (candidateId model : String) (nowMs : Nat) :
    ∃ sharedRateLimits, scheduler.resetSharedRateLimitBackoff candidateId model nowMs =
      { scheduler with sharedRateLimits } := by
  unfold resetSharedRateLimitBackoff
  dsimp only
  split <;> exact ⟨_, rfl⟩

/-- The prompt-cache operations write the prompt affinity and nothing else. -/
theorem promptAffinity_same (key candidateId : String) (expiresAtMs nowMs : Nat) :
    (∃ promptAffinity, (scheduler.bindPromptAffinity key candidateId nowMs).1 =
      { scheduler with promptAffinity }) ∧
    (∃ promptAffinity, (scheduler.bindPromptAffinitySticky key candidateId nowMs).1 =
      { scheduler with promptAffinity }) ∧
    (∃ promptAffinity, (scheduler.restorePromptAffinity key candidateId expiresAtMs nowMs).1 =
      { scheduler with promptAffinity }) ∧
    (∃ promptAffinity, (scheduler.invalidatePromptAffinity key).1 =
      { scheduler with promptAffinity }) ∧
    ∃ promptAffinity, (scheduler.invalidatePromptAffinityForCandidate key candidateId).1 =
      { scheduler with promptAffinity } := by
  refine ⟨?_, ?_, ?_, ?_, ?_⟩
  · unfold bindPromptAffinity
    split <;> exact ⟨_, rfl⟩
  · unfold bindPromptAffinitySticky
    split
    · exact ⟨_, rfl⟩
    dsimp only
    split
    · exact ⟨_, rfl⟩
    split <;> exact ⟨_, rfl⟩
  · unfold restorePromptAffinity
    split
    · exact ⟨_, rfl⟩
    dsimp only
    split <;> exact ⟨_, rfl⟩
  · unfold invalidatePromptAffinity
    split <;> exact ⟨_, rfl⟩
  · unfold invalidatePromptAffinityForCandidate
    split <;> exact ⟨_, rfl⟩

theorem bindResponseAffinity_same (key candidateId : String) (nowMs : Nat) :
    ∃ responseAffinity, (scheduler.bindResponseAffinity key candidateId nowMs).1 =
        { scheduler with responseAffinity } ∧
      ∀ other owned, responseAffinity.owner other = some owned →
        scheduler.responseAffinity.owner other = some owned ∨ (other = key ∧ owned = candidateId) := by
  unfold bindResponseAffinity
  split
  · exact ⟨_, rfl, fun _ _ owned => .inl owned⟩
  · exact ⟨_, rfl, fun _ _ => AffinityCache.bind_owner⟩

theorem restoreResponseAffinity_same (key candidateId : String) (expiresAtMs nowMs : Nat) :
    ∃ responseAffinity, (scheduler.restoreResponseAffinity key candidateId expiresAtMs nowMs).1 =
        { scheduler with responseAffinity } ∧
      ∀ other owned, responseAffinity.owner other = some owned →
        scheduler.responseAffinity.owner other = some owned ∨ (other = key ∧ owned = candidateId) := by
  unfold restoreResponseAffinity
  split
  · exact ⟨_, rfl, fun _ _ owned => .inl owned⟩
  · exact ⟨_, rfl, fun _ _ => AffinityCache.restore_owner⟩

/-- Only the four operations that move work change members, tombstones,
reservations or the activity of reserved requests. -/
theorem apply_sameWork (operation : SchedulerOperation) (idle : operation.movesWork = false) :
    SameWork operation.boundOwner scheduler (scheduler.apply operation) := by
  cases operation with
  | upsert | remove | reserveRequestWithOperation | releaseReservation =>
      cases idle
  | retireForReplacement | syncAllRotationCandidates | setNativeRoute
  | invalidateQuotaReferenceSource | setQuotaStaleAfterMs | hasPromptAffinity
  | clearCapabilityBlocks =>
      exact .of_eq rfl rfl rfl rfl rfl rfl (.refl _)
  | responseAffinityCandidate key nowMs | hasResponseAffinity key nowMs =>
      exact .of_eq rfl rfl rfl rfl rfl rfl (AffinityCache.prune_forgets _ nowMs)
  | invalidateResponseAffinity key =>
      exact .of_eq rfl rfl rfl rfl rfl rfl (AffinityCache.invalidate_forgets _ key)
  | setQuotaReferences references =>
      rw [apply]
      unfold setQuotaReferences
      dsimp only
      split <;> exact .of_eq rfl rfl rfl rfl rfl rfl (.refl _)
  | setProtectedCandidate candidateId reserveBasisPoints =>
      rw [apply]
      unfold setProtectedCandidate
      split
      · exact .of_eq rfl rfl rfl rfl rfl rfl (.refl _)
      · split <;> exact .of_eq rfl rfl rfl rfl rfl rfl (.refl _)
  | blockCapability candidateId model =>
      rw [apply]
      unfold blockCapability
      split <;> exact .of_eq rfl rfl rfl rfl rfl rfl (.refl _)
  | prepareRotationRequest request operation freshRequestId =>
      obtain ⟨rotation, response, prompt, same, forgets⟩ :=
        scheduler.prepareRotationRequest_same request operation freshRequestId
      rw [apply, same]
      exact .of_eq rfl rfl rfl rfl rfl rfl forgets
  | selectForOperation request lane operation freshRequestId =>
      obtain ⟨rotation, response, prompt, same, forgets⟩ :=
        scheduler.prepareRotationRequest_same request operation freshRequestId
      rw [apply, selectForOperation_state, same]
      exact .of_eq rfl rfl rfl rfl rfl rfl forgets
  | setPoolRouting policy =>
      obtain ⟨routing, rotation, same⟩ := scheduler.setPoolRouting_same policy
      rw [apply, same]
      exact .of_eq rfl rfl rfl rfl rfl rfl (.refl _)
  | setExecutionFence candidateId fenced =>
      obtain ⟨fences, epoch, same⟩ := scheduler.setExecutionFence_same candidateId fenced
      rw [apply, same]
      exact .of_eq rfl rfl rfl rfl rfl rfl (.refl _)
  | beginExecutionFence candidateId =>
      obtain ⟨fences, epoch, same⟩ := scheduler.beginExecutionFence_same candidateId
      rw [apply, same]
      exact .of_eq rfl rfl rfl rfl rfl rfl (.refl _)
  | endExecutionFence candidateId epoch =>
      obtain ⟨fences, same⟩ := scheduler.endExecutionFence_same candidateId epoch
      rw [apply, same]
      exact .of_eq rfl rfl rfl rfl rfl rfl (.refl _)
  | resetSharedRateLimitBackoff candidateId model nowMs =>
      obtain ⟨limits, same⟩ := scheduler.resetSharedRateLimitBackoff_same candidateId model nowMs
      rw [apply, same]
      exact .of_eq rfl rfl rfl rfl rfl rfl (.refl _)
  | bindResponseAffinity key candidateId nowMs =>
      obtain ⟨response, same, owned⟩ := scheduler.bindResponseAffinity_same key candidateId nowMs
      rw [apply, same]
      refine .of_owner rfl rfl rfl rfl rfl rfl fun other owner stored => ?_
      exact (owned other owner stored).imp_right fun written => by
        rw [SchedulerOperation.boundOwner, written.1, written.2]
  | restoreResponseAffinity key candidateId expiresAtMs nowMs =>
      obtain ⟨response, same, owned⟩ :=
        scheduler.restoreResponseAffinity_same key candidateId expiresAtMs nowMs
      rw [apply, same]
      refine .of_owner rfl rfl rfl rfl rfl rfl fun other owner stored => ?_
      exact (owned other owner stored).imp_right fun written => by
        rw [SchedulerOperation.boundOwner, written.1, written.2]
  | bindPromptAffinity key candidateId nowMs =>
      obtain ⟨prompt, same⟩ := (scheduler.promptAffinity_same key candidateId 0 nowMs).1
      rw [apply, same]
      exact .of_eq rfl rfl rfl rfl rfl rfl (.refl _)
  | bindPromptAffinitySticky key candidateId nowMs =>
      obtain ⟨prompt, same⟩ := (scheduler.promptAffinity_same key candidateId 0 nowMs).2.1
      rw [apply, same]
      exact .of_eq rfl rfl rfl rfl rfl rfl (.refl _)
  | restorePromptAffinity key candidateId expiresAtMs nowMs =>
      obtain ⟨prompt, same⟩ :=
        (scheduler.promptAffinity_same key candidateId expiresAtMs nowMs).2.2.1
      rw [apply, same]
      exact .of_eq rfl rfl rfl rfl rfl rfl (.refl _)
  | invalidatePromptAffinity key =>
      obtain ⟨prompt, same⟩ := (scheduler.promptAffinity_same key "" 0 0).2.2.2.1
      rw [apply, same]
      exact .of_eq rfl rfl rfl rfl rfl rfl (.refl _)
  | invalidatePromptAffinityForCandidate key candidateId =>
      obtain ⟨prompt, same⟩ := (scheduler.promptAffinity_same key candidateId 0 0).2.2.2.2
      rw [apply, same]
      exact .of_eq rfl rfl rfl rfl rfl rfl (.refl _)
  | updateCandidateAvailabilityAt candidateId | updateCandidateAvailabilityWithQuotaAt candidateId
  | updateCandidateQuotaAt candidateId | setCandidateHealth candidateId =>
      exact scheduler.editCandidate_sameWork candidateId _ fun _ => rfl
  | beginRotationDispatch reservationId budget clock unixTimeMs =>
      exact scheduler.beginRotationDispatch_sameWork reservationId budget clock unixTimeMs
  | settleRotationWithLatency reservationId =>
      exact scheduler.settleRotationLease_sameWork reservationId _
  | cancelRotation reservationId =>
      exact scheduler.settleRotationLease_sameWork reservationId _
  | releaseRotationUnstarted reservationId =>
      exact scheduler.releaseRotationUnstarted_sameWork reservationId
  | recordSuccess candidateId model nowMs =>
      exact scheduler.recordSuccess_sameWork candidateId model nowMs
  | setCooldownWithReason candidateId request =>
      exact scheduler.setCooldownWithReason_sameWork candidateId request
  | clearCooldown candidateId model => exact scheduler.clearCooldown_sameWork candidateId model
  | observeSharedRateLimit candidateId bucket request nowMs =>
      exact scheduler.observeSharedRateLimit_sameWork candidateId bucket request nowMs

end PoolScheduler

end ZenithRelay.Scheduler
