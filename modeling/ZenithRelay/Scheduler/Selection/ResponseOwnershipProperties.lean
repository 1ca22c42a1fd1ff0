import ZenithRelay.Scheduler.Selection.Operation

/-!
# Response ownership

A removed candidate keeps the conversations it owned until its id is added again;
the new candidate must not inherit them. Between the removal and the addition the
id is absent or a tombstone, and only the absent id is cleaned on arrival.
-/

set_option autoImplicit false

namespace ZenithRelay.Scheduler.PoolScheduler

open Rotation

variable {scheduler : PoolScheduler} {candidateId : String}

/-- Removed: not configured, or kept as a tombstone for its work in flight. -/
def Gone (scheduler : PoolScheduler) (candidateId : String) : Prop :=
  scheduler.candidates[candidateId]? = none ∨
    scheduler.retiredCandidates.contains candidateId = true

/-- The step adds no candidate whose tombstone is still there. -/
def AddsNoTombstone (scheduler : PoolScheduler) : SchedulerOperation → Prop
  | .upsert candidate => scheduler.retiredCandidates.contains candidate.id = false
  | _ => True

/-- The candidate that an operation adds or replaces. -/
def upserted : SchedulerOperation → Option RuntimeCandidate
  | .upsert candidate => some candidate
  | _ => none

private theorem addsNoTombstone_iff {operation : SchedulerOperation} :
    (∀ candidate ∈ upserted operation, scheduler.retiredCandidates.contains candidate.id = false) ↔
      scheduler.AddsNoTombstone operation := by
  cases operation <;> simp [AddsNoTombstone, upserted]

instance (scheduler : PoolScheduler) (operation : SchedulerOperation) :
    Decidable (scheduler.AddsNoTombstone operation) :=
  decidable_of_iff _ addsNoTombstone_iff

theorem Gone.of_same {after : PoolScheduler} (gone : scheduler.Gone candidateId)
    (candidates : scheduler.candidates[candidateId]? = none →
      after.candidates[candidateId]? = none)
    (retired : scheduler.retiredCandidates.contains candidateId = true →
      after.retiredCandidates.contains candidateId = true) : after.Gone candidateId :=
  gone.imp candidates retired

theorem removeNow_gone (scheduler : PoolScheduler) (candidateId : String) :
    (scheduler.removeNow candidateId).1.Gone candidateId := by
  obtain ⟨memberActivity, same⟩ := scheduler.removeNow_same candidateId
  rw [same]
  exact .inl (by simp [eraseCandidate])

theorem Gone.removeNow (gone : scheduler.Gone candidateId) (other : String) :
    (scheduler.removeNow other).1.Gone candidateId := by
  by_cases same : candidateId = other
  · rw [same]
    exact scheduler.removeNow_gone other
  · obtain ⟨memberActivity, equal⟩ := scheduler.removeNow_same other
    rw [equal]
    apply gone.of_same
    · intro absent
      simp [eraseCandidate, absent]
    · intro tombstone
      simpa [eraseCandidate, Ne.symm same] using tombstone

theorem Gone.finalizeRetiredIfIdle (gone : scheduler.Gone candidateId) (other : String) :
    (scheduler.finalizeRetiredIfIdle other).Gone candidateId := by
  unfold PoolScheduler.finalizeRetiredIfIdle
  split
  · exact gone.removeNow other
  · exact gone

private theorem remove_gone (scheduler : PoolScheduler) (candidateId : String) :
    (scheduler.remove candidateId).1.Gone candidateId := by
  obtain ⟨limits, references, absent | retired | dropped⟩ := scheduler.remove_cases candidateId
  · rw [absent.2]
    exact .inl absent.1
  · rw [retired.2.2]
    exact .inr (by simp [retireCandidate])
  · obtain ⟨rotation, -, -, equal⟩ := dropped
    rw [equal]
    exact removeNow_gone _ candidateId

theorem Gone.remove (gone : scheduler.Gone candidateId) (other : String) :
    (scheduler.remove other).1.Gone candidateId := by
  obtain ⟨limits, references, absent | retired | dropped⟩ := scheduler.remove_cases other
  · rw [absent.2]
    exact gone
  · rw [retired.2.2]
    apply gone.of_same
    · intro absent
      simp [retireCandidate, absent]
    · intro tombstone
      simp [retireCandidate, tombstone]
  · obtain ⟨rotation, -, -, equal⟩ := dropped
    rw [equal]
    refine Gone.removeNow ?_ other
    exact gone

/-- Nothing but an addition of the id itself brings a removed candidate back. -/
theorem Gone.apply (gone : scheduler.Gone candidateId) {operation : SchedulerOperation}
    (other : ∀ candidate, operation = .upsert candidate → candidate.id ≠ candidateId) :
    (scheduler.apply operation).Gone candidateId := by
  cases moves : operation.movesWork with
  | false =>
      have same := scheduler.apply_sameWork operation moves
      apply gone.of_same
      · intro absent
        simpa [absent] using same.members candidateId
      · intro tombstone
        rwa [same.retired]
  | true =>
      cases operation with
      | upsert candidate =>
          have different := other candidate rfl
          obtain ⟨limits, revisions, refused | installed⟩ := scheduler.upsert_cases candidate
          · rw [PoolScheduler.apply, refused]
            exact gone
          · rw [PoolScheduler.apply, installed]
            apply gone.of_same
            · intro absent
              simp [installCandidate, absent, different.symm]
            · intro tombstone
              simpa [installCandidate, different] using tombstone
      | remove removed => exact gone.remove removed
      | reserveRequestWithOperation request =>
          obtain ⟨rotation, refused | ⟨candidate, lease, -, reserved⟩⟩ :=
            scheduler.reserveRequestWithOperation_cases request
          · rw [PoolScheduler.apply, refused]
            exact gone
          · rw [PoolScheduler.apply, reserved]
            exact gone
      | releaseReservation reservationId =>
          obtain ⟨rotation, leases, -, refused | ⟨reservation, -, -, -, released⟩⟩ :=
            scheduler.releaseReservation_cases reservationId
          · rw [PoolScheduler.apply, refused]
            exact gone
          · rw [PoolScheduler.apply, released]
            refine Gone.finalizeRetiredIfIdle ?_ _
            exact gone
      | _ => cases moves

theorem Gone.run (gone : scheduler.Gone candidateId) {operations : List SchedulerOperation}
    (others : ∀ candidate, .upsert candidate ∈ operations → candidate.id ≠ candidateId) :
    (scheduler.runOperations operations).Gone candidateId := by
  induction operations generalizing scheduler with
  | nil => exact gone
  | cons operation operations ih =>
      have next : (scheduler.apply operation).Gone candidateId :=
        gone.apply fun candidate same => others candidate (by simp [same])
      exact ih next fun candidate member => others candidate (by simp [member])

/-! ## Owners along a run -/

theorem removeNow_affinity (scheduler : PoolScheduler) (candidateId : String) :
    (scheduler.removeNow candidateId).1.responseAffinity = scheduler.responseAffinity := by
  obtain ⟨memberActivity, same⟩ := scheduler.removeNow_same candidateId
  rw [same]
  rfl

private theorem finalizeRetiredIfIdle_affinity (scheduler : PoolScheduler) (candidateId : String) :
    (scheduler.finalizeRetiredIfIdle candidateId).responseAffinity =
      scheduler.responseAffinity := by
  unfold finalizeRetiredIfIdle
  split
  · exact removeNow_affinity _ _
  · rfl

private theorem installCandidate_affinity (scheduler : PoolScheduler) (candidate : RuntimeCandidate) :
    scheduler.responseAffinity.Forgets
      (scheduler.installCandidate candidate).responseAffinity := by
  unfold installCandidate
  dsimp only
  split
  · exact .refl _
  · intro key owner owned
    rw [AffinityCache.invalidateCandidate_owner] at owned
    exact (Option.filter_eq_some_iff.mp owned).1

/-- A key has the owner it had, or the one the step bound it to. -/
theorem apply_owner {operation : SchedulerOperation} {key owner : String}
    (owned : (scheduler.apply operation).responseAffinity.owner key = some owner) :
    scheduler.responseAffinity.owner key = some owner ∨
      operation.boundOwner = some (key, owner) := by
  cases moves : operation.movesWork with
  | false => exact (scheduler.apply_sameWork operation moves).response key owner owned
  | true =>
      apply Or.inl
      cases operation with
      | upsert candidate =>
          obtain ⟨limits, revisions, refused | installed⟩ := scheduler.upsert_cases candidate
          · rw [apply, refused] at owned
            exact owned
          · rw [apply, installed] at owned
            exact installCandidate_affinity { scheduler with
              sharedRateLimits := limits
              candidatePermissionRevisions := revisions } candidate key owner owned
      | remove removed =>
          obtain ⟨limits, references, absent | retired | dropped⟩ := scheduler.remove_cases removed
          · rw [apply, absent.2] at owned
            exact owned
          · rw [apply, retired.2.2] at owned
            exact owned
          · obtain ⟨rotation, -, -, equal⟩ := dropped
            rw [apply, equal, removeNow_affinity] at owned
            exact owned
      | reserveRequestWithOperation request =>
          obtain ⟨rotation, refused | ⟨candidate, lease, -, reserved⟩⟩ :=
            scheduler.reserveRequestWithOperation_cases request
          · rw [apply, refused] at owned
            exact owned
          · rw [apply, reserved] at owned
            exact owned
      | releaseReservation reservationId =>
          obtain ⟨rotation, leases, -, refused | ⟨reservation, -, -, -, released⟩⟩ :=
            scheduler.releaseReservation_cases reservationId
          · rw [apply, refused] at owned
            exact owned
          · rw [apply, released, finalizeRetiredIfIdle_affinity] at owned
            exact owned
      | _ => cases moves

theorem run_owner {operations : List SchedulerOperation} {key owner : String}
    (unbound : ∀ operation ∈ operations, operation.boundOwner ≠ some (key, owner))
    (owned : (scheduler.runOperations operations).responseAffinity.owner key = some owner) :
    scheduler.responseAffinity.owner key = some owner := by
  induction operations generalizing scheduler with
  | nil => exact owned
  | cons operation operations ih =>
      have earlier := ih (fun later member => unbound later (by simp [member])) owned
      exact (apply_owner earlier).resolve_right (unbound operation (by simp))

/-- An added candidate that is not configured yet owns nothing. -/
private theorem upsert_owns_nothing {candidate : RuntimeCandidate}
    (absent : scheduler.candidates[candidate.id]? = none) (key : String) :
    (scheduler.apply (.upsert candidate)).responseAffinity.owner key ≠ some candidate.id := by
  have missing : scheduler.candidates.contains candidate.id = false := by
    rw [Std.ExtTreeMap.contains_eq_isSome_getElem?, absent]
    rfl
  have installed : (scheduler.apply (.upsert candidate)).responseAffinity =
      (scheduler.responseAffinity.invalidateCandidate candidate.id).1 := by
    simp [apply, upsert, absent, installCandidate, missing]
  rw [installed, AffinityCache.invalidateCandidate_owner]
  intro owned
  simpa using (Option.filter_eq_some_iff.mp owned).2

/-! ## A re-added id starts without conversations -/

/-- The first addition of an id after its removal, made when its tombstone is gone:
no key resolves to the new candidate unless it is bound to it again, and a key of
the old candidate that is not bound again resolves to nothing. -/
theorem readded_candidate_inherits_nothing (scheduler : PoolScheduler)
    (candidate : RuntimeCandidate) (before after : List SchedulerOperation)
    (first : ∀ other, .upsert other ∈ before → other.id ≠ candidate.id)
    (fresh : ((scheduler.apply (.remove candidate.id)).runOperations before).AddsNoTombstone
      (.upsert candidate)) (key : String) (nowMs : Nat) :
    let final := scheduler.runOperations
      (.remove candidate.id :: before ++ .upsert candidate :: after)
    ((∀ operation ∈ after, operation.boundOwner ≠ some (key, candidate.id)) →
      (final.responseAffinityCandidate key nowMs).2 ≠ some candidate.id) ∧
    (scheduler.responseAffinity.owner key = some candidate.id →
      (∀ operation ∈ before ++ after, ∀ owner, operation.boundOwner ≠ some (key, owner)) →
      (final.responseAffinityCandidate key nowMs).2 = none) := by
  let removed := scheduler.apply (.remove candidate.id)
  let drained := removed.runOperations before
  let added := drained.apply (.upsert candidate)
  have split : scheduler.runOperations
      (.remove candidate.id :: before ++ .upsert candidate :: after) =
        added.runOperations after := by
    rw [runOperations, List.cons_append, Execution.run_cons, Execution.run_append]
    rfl
  have gone : drained.Gone candidate.id := (scheduler.remove_gone candidate.id).run first
  have absent : drained.candidates[candidate.id]? = none := by
    refine gone.resolve_right fun tombstone => ?_
    have cleared : drained.retiredCandidates.contains candidate.id = false := fresh
    simp [cleared] at tombstone
  have nothing := upsert_owns_nothing absent key
  intro final
  have resolved : ∀ {owner}, (final.responseAffinityCandidate key nowMs).2 = some owner →
      (added.runOperations after).responseAffinity.owner key = some owner := by
    intro owner found
    rw [← split]
    exact AffinityCache.get_owner found
  constructor
  · intro unbound found
    exact nothing (run_owner unbound (resolved found))
  · intro owned unbound
    cases found : (final.responseAffinityCandidate key nowMs).2 with
    | none => rfl
    | some owner =>
        have late : added.responseAffinity.owner key = some owner :=
          run_owner (fun operation member => unbound operation (by simp [member]) owner)
            (resolved found)
        have middle : drained.responseAffinity.owner key = some owner :=
          (apply_owner late).resolve_right (by simp [SchedulerOperation.boundOwner])
        have early : removed.responseAffinity.owner key = some owner :=
          run_owner (fun operation member => unbound operation (by simp [member]) owner) middle
        have start : scheduler.responseAffinity.owner key = some owner :=
          (apply_owner early).resolve_right (by simp [SchedulerOperation.boundOwner])
        rw [owned] at start
        cases start
        exact absurd late nothing

/-- An account that serves one model over Responses. -/
def sampleCandidate (candidateId accountId : String) : RuntimeCandidate where
  id := candidateId
  kind := .oAuthAccount
  sourceId := "source"
  accountId := some accountId
  protocol := .responses
  modelProtocols := ∅
  enabled := true
  draining := false
  priority := 0
  weight := 1
  models := (∅ : BTreeSet String).insert "gpt-5"
  modelRules := .default
  health := .healthy
  quota := .unknown
  providerCreditsMicroUnits := none
  providerCreditsUnlimited := false
  providerCreditsObservedAtMs := none
  quotaUpdatedAtMs := none
  quotaResetAtMs := none
  cooldowns := ∅
  lastUsedAt := none
  secretAvailable := true

def sampleReserve (candidateId : String) (requestId : RequestId) : ReserveRequest where
  candidateId
  model := "gpt-5"
  nowMs := 0
  image := false
  operation := .text
  requestId := some requestId
  rotationRequest := none
  freshRequestId := 0

/-- An idle owner is removed and added again: its conversation resolves to nothing. -/
theorem readded_candidate_inherits_nothing_idle :
    let scheduler := create.runOperations
      [.upsert (sampleCandidate "owner" "account"), .bindResponseAffinity "response" "owner" 0]
    ((scheduler.runOperations [.remove "owner", .upsert (sampleCandidate "owner" "account")]
      ).responseAffinityCandidate "response" 1).2 = none := by
  intro scheduler
  refine (readded_candidate_inherits_nothing scheduler (sampleCandidate "owner" "account") [] []
    (by simp) (by decide +kernel) "response" 1).2 (by decide +kernel) (by simp)

/-- A removal under a request in flight leaves a tombstone; added over it, the new
candidate answers for the old one's conversation. -/
theorem tombstone_inherits_conversation :
    let scheduler := create.runOperations
      [.upsert (sampleCandidate "owner" "account"), .bindResponseAffinity "response" "owner" 0,
        .reserveRequestWithOperation (sampleReserve "owner" 1)]
    scheduler.Reachable ∧ scheduler.responseAffinity.owner "response" = some "owner" ∧
      ((scheduler.runOperations [.remove "owner", .upsert (sampleCandidate "owner" "account")]
        ).responseAffinityCandidate "response" 1).2 = some "owner" := by
  refine ⟨⟨_, rfl⟩, ?_, ?_⟩
  · decide +kernel
  · decide +kernel

end ZenithRelay.Scheduler.PoolScheduler
