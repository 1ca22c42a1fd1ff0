import ZenithRelay.Scheduler.Selection.Projection

/-!
# Registry

Member observations, configuration updates and draining removal.
-/

set_option autoImplicit false

namespace ZenithRelay.Scheduler.PoolScheduler

open Rotation

def invalidateQuotaReferenceSource (scheduler : PoolScheduler) (accountId : String) :
    PoolScheduler × Bool :=
  let kept := scheduler.quotaReferences.filter fun _ reference =>
    reference.sourceAccountId ≠ accountId
  ({ scheduler with quotaReferences := kept }, kept.size != scheduler.quotaReferences.size)

def setQuotaReferences (scheduler : PoolScheduler)
    (references : BTreeMap String CandidateQuotaReference) : PoolScheduler × Bool :=
  let kept := references.filter fun id reference =>
    id ≠ reference.sourceAccountId &&
      scheduler.candidates[id]?.any fun candidate =>
        candidate.kind = .oAuthAccount && !scheduler.retiredCandidates.contains id
  if scheduler.quotaReferences = kept then (scheduler, false)
  else ({ scheduler with quotaReferences := kept }, true)

def setQuotaStaleAfterMs (scheduler : PoolScheduler) (staleAfterMs : Nat) : PoolScheduler :=
  { scheduler with quotaStaleAfterMs := max staleAfterMs 1 }

def forgetSharedRateLimits (scheduler : PoolScheduler) (candidateId : String) : PoolScheduler :=
  { scheduler with
    sharedRateLimits := scheduler.sharedRateLimits.filter fun key _ => key.1 ≠ candidateId }

/-- Whether an edit changes what a candidate is permitted to serve. -/
def permissionEdit (previous candidate : RuntimeCandidate) : Bool :=
  previous.enabled != candidate.enabled || previous.draining != candidate.draining ||
    previous.secretAvailable != candidate.secretAvailable || previous.kind != candidate.kind ||
    previous.sourceId != candidate.sourceId || previous.accountId != candidate.accountId ||
    previous.protocol != candidate.protocol ||
    previous.modelProtocols != candidate.modelProtocols ||
    previous.modelRules != candidate.modelRules ||
    previous.models.toList.any fun model => !candidate.models.contains model

/-- The part of `upsert` that installs the record: a reintroduced id must not
inherit an opaque response owner, existing candidates are updated in place. -/
def installCandidate (scheduler : PoolScheduler) (candidate : RuntimeCandidate) : PoolScheduler :=
  { scheduler with
    responseAffinity :=
      if scheduler.candidates.contains candidate.id then scheduler.responseAffinity
      else (scheduler.responseAffinity.invalidateCandidate candidate.id).1
    retiredCandidates := scheduler.retiredCandidates.erase candidate.id
    cooldownReasons := scheduler.cooldownReasons.filter fun key _ =>
      key.1 ≠ candidate.id || candidate.cooldowns.contains key.2
    candidates := scheduler.candidates.insert candidate.id candidate }

def upsert (scheduler : PoolScheduler) (candidate : RuntimeCandidate) :
    PoolScheduler × Outcome Unit :=
  if scheduler.candidates[candidate.id]?.any fun previous => permissionEdit previous candidate then
    let forgotten := scheduler.forgetSharedRateLimits candidate.id
    let revision := forgotten.candidatePermissionRevisions[candidate.id]?.getD 0
    if revision < u64Max then
      ({ forgotten with
          candidatePermissionRevisions :=
            forgotten.candidatePermissionRevisions.insert candidate.id
              (revision + 1) }.installCandidate candidate, .returned ())
    else (forgotten, .panicked "candidate permission revision exhausted")
  else (scheduler.installCandidate candidate, .returned ())

/-- Activity of a physical member is dropped with the last candidate it has. -/
def removeMemberActivity (scheduler : PoolScheduler) (candidate : RuntimeCandidate) :
    PoolScheduler :=
  if scheduler.candidates.values.any fun other => other.memberKey == candidate.memberKey then
    scheduler
  else
    { scheduler with
      memberActivity := scheduler.memberActivity.removeCandidate candidate.memberKey }

/-- The part of `remove_now` that drops the record and all that is kept under its id. -/
def eraseCandidate (scheduler : PoolScheduler) (candidateId : String) : PoolScheduler :=
  { scheduler with
    rotation := (scheduler.rotation.remove candidateId).1
    retiredCandidates := scheduler.retiredCandidates.erase candidateId
    -- The response owner stays, so that a pending continuation finds its replay.
    promptAffinity := (scheduler.promptAffinity.invalidateCandidate candidateId).1
    activity := scheduler.activity.removeCandidate candidateId
    reservations := scheduler.reservations.removeCandidate candidateId
    executionFences := scheduler.executionFences.erase candidateId
    candidatePermissionRevisions := scheduler.candidatePermissionRevisions.erase candidateId
    capabilityBlocks := scheduler.capabilityBlocks.filter fun block => block.1 ≠ candidateId
    cooldownReasons := scheduler.cooldownReasons.filter fun key _ => key.1 ≠ candidateId
    protectedCandidate := scheduler.protectedCandidate.filter fun entry => entry.1 ≠ candidateId
    candidates := scheduler.candidates.erase candidateId }

def removeNow (scheduler : PoolScheduler) (candidateId : String) :
    PoolScheduler × Option RuntimeCandidate :=
  match scheduler.candidates[candidateId]? with
  | none => (scheduler.eraseCandidate candidateId, none)
  | some candidate =>
    ((scheduler.eraseCandidate candidateId).removeMemberActivity candidate, some candidate)

/-- A removed candidate with work in flight: ineligible at once, finalized when
its last lease is released. -/
def retireCandidate (scheduler : PoolScheduler) (candidateId : String) : PoolScheduler :=
  { scheduler with
    rotation := (scheduler.rotation.remove candidateId).1
    promptAffinity := (scheduler.promptAffinity.invalidateCandidate candidateId).1
    candidates := scheduler.candidates.modify candidateId fun candidate =>
      { candidate with enabled := false, draining := true }
    retiredCandidates := scheduler.retiredCandidates.insert candidateId }

/-- The part of `remove` that runs whether or not the candidate exists. -/
def forgetCandidateEvidence (scheduler : PoolScheduler) (candidateId : String) : PoolScheduler :=
  { scheduler.forgetSharedRateLimits candidateId with
    quotaReferences := scheduler.quotaReferences.filter fun id reference =>
      id ≠ candidateId && reference.sourceAccountId ≠ candidateId }

def remove (scheduler : PoolScheduler) (candidateId : String) :
    PoolScheduler × Option RuntimeCandidate :=
  let forgotten := scheduler.forgetCandidateEvidence candidateId
  match forgotten.candidates[candidateId]? with
  | none => (forgotten, none)
  | some existing =>
    if forgotten.activeRequestCount candidateId > 0 then
      (forgotten.retireCandidate candidateId, some existing)
    else
      { forgotten with rotation := (forgotten.rotation.remove candidateId).1 }.removeNow candidateId

def finalizeRetiredIfIdle (scheduler : PoolScheduler) (candidateId : String) : PoolScheduler :=
  if scheduler.retiredCandidates.contains candidateId ∧
      scheduler.activeRequestCount candidateId = 0 then
    (scheduler.removeNow candidateId).1
  else scheduler

def candidatePermissionRevision (scheduler : PoolScheduler) (candidateId : String) : Nat :=
  scheduler.candidatePermissionRevisions[candidateId]?.getD 0

def setProtectedCandidate (scheduler : PoolScheduler) (candidateId : Option String)
    (reserveBasisPoints : Nat) : PoolScheduler × Bool :=
  match candidateId with
  | none => ({ scheduler with protectedCandidate := none }, true)
  | some candidateId =>
    if scheduler.candidates.contains candidateId then
      ({ scheduler with protectedCandidate := some (candidateId, reserveBasisPoints) }, true)
    else (scheduler, false)

/-- Applies `edit` to a stored record; the observation setters are its instances. -/
def editCandidate (scheduler : PoolScheduler) (candidateId : String)
    (edit : RuntimeCandidate → RuntimeCandidate) : PoolScheduler × Bool :=
  ({ scheduler with candidates := scheduler.candidates.modify candidateId edit },
    scheduler.candidates.contains candidateId)

def updateCandidateAvailabilityAt (scheduler : PoolScheduler) (candidateId : String)
    (enabled : Bool) (health : CandidateHealth) (quota : CandidateQuota)
    (quotaUpdatedAtMs : Option Nat) : PoolScheduler × Bool :=
  scheduler.editCandidate candidateId fun candidate =>
    { candidate with
      enabled
      health
      quota
      quotaUpdatedAtMs :=
        if candidate.quota ≠ quota ∨
            (quotaUpdatedAtMs.isSome ∧ candidate.quotaUpdatedAtMs ≠ quotaUpdatedAtMs) then
          quotaUpdatedAtMs
        else candidate.quotaUpdatedAtMs }

def updateCandidateAvailabilityWithQuotaAt (scheduler : PoolScheduler) (candidateId : String)
    (enabled : Bool) (health : CandidateHealth) (quotaState : CandidateQuotaState) :
    PoolScheduler × Bool :=
  scheduler.editCandidate candidateId fun candidate =>
    { candidate with enabled, health }.setQuotaState quotaState

def updateCandidateQuotaAt (scheduler : PoolScheduler) (candidateId : String)
    (quotaState : CandidateQuotaState) : PoolScheduler × Bool :=
  scheduler.editCandidate candidateId fun candidate => candidate.setQuotaState quotaState

def setCandidateHealth (scheduler : PoolScheduler) (candidateId : String)
    (health : CandidateHealth) : PoolScheduler × Bool :=
  scheduler.editCandidate candidateId fun candidate => { candidate with health }

def beginExecutionFence (scheduler : PoolScheduler) (candidateId : String) :
    PoolScheduler × Outcome (Option Nat) :=
  if !scheduler.candidates.contains candidateId then (scheduler, .returned none)
  else
    match scheduler.executionFences[candidateId]? with
    | some (epoch, count) =>
      if count < u32Max then
        ({ scheduler with
            executionFences := scheduler.executionFences.insert candidateId (epoch, count + 1) },
          .returned (some epoch))
      else (scheduler, .panicked "execution fence count exhausted")
    | none =>
      if scheduler.nextExecutionFenceEpoch < u64Max then
        let epoch := scheduler.nextExecutionFenceEpoch + 1
        ({ scheduler with
            nextExecutionFenceEpoch := epoch
            executionFences := scheduler.executionFences.insert candidateId (epoch, 1) },
          .returned (some epoch))
      else (scheduler, .panicked "execution fence epoch exhausted")

def endExecutionFence (scheduler : PoolScheduler) (candidateId : String) (epoch : Nat) :
    PoolScheduler :=
  match scheduler.executionFences[candidateId]? with
  | none => scheduler
  | some (currentEpoch, count) =>
    -- A removed and re-added candidate owns a different fence group.
    if currentEpoch ≠ epoch then scheduler
    else if count ≤ 1 then
      { scheduler with executionFences := scheduler.executionFences.erase candidateId }
    else
      { scheduler with
        executionFences := scheduler.executionFences.insert candidateId (epoch, count - 1) }

def setExecutionFence (scheduler : PoolScheduler) (candidateId : String) (fenced : Bool) :
    PoolScheduler × Outcome Bool :=
  if fenced then
    let (begun, outcome) := scheduler.beginExecutionFence candidateId
    (begun, outcome.map (·.isSome))
  else if !scheduler.candidates.contains candidateId then (scheduler, .returned false)
  else
    match scheduler.executionFences[candidateId]? with
    | some (epoch, _) => (scheduler.endExecutionFence candidateId epoch, .returned true)
    | none => (scheduler, .returned true)

def blockCapability (scheduler : PoolScheduler) (candidateId model : String) :
    PoolScheduler × Bool :=
  if scheduler.candidates.contains candidateId then
    let block := (candidateId, modelIdKey model)
    ({ scheduler with capabilityBlocks := scheduler.capabilityBlocks.insert block },
      !scheduler.capabilityBlocks.contains block)
  else (scheduler, false)

def clearCapabilityBlocks (scheduler : PoolScheduler) (candidateId : String) :
    PoolScheduler × Bool :=
  let kept := scheduler.capabilityBlocks.filter fun block => block.1 ≠ candidateId
  ({ scheduler with capabilityBlocks := kept }, kept.size != scheduler.capabilityBlocks.size)

/-! ## What an upsert and a removal do -/

/-- An upsert panics and leaves the records as they were, or it installs the record. -/
theorem upsert_cases (scheduler : PoolScheduler) (candidate : RuntimeCandidate) :
    ∃ sharedRateLimits candidatePermissionRevisions,
      (scheduler.upsert candidate).1 =
          { scheduler with sharedRateLimits, candidatePermissionRevisions } ∨
        (scheduler.upsert candidate).1 =
          { scheduler with sharedRateLimits, candidatePermissionRevisions }.installCandidate
            candidate := by
  unfold upsert
  split
  · dsimp only
    split
    · exact ⟨_, _, .inr rfl⟩
    · exact ⟨_, _, .inl rfl⟩
  · exact ⟨_, _, .inr rfl⟩

/-- A removal finds no candidate, retires one with work in flight, or drops one. -/
theorem remove_cases (scheduler : PoolScheduler) (candidateId : String) :
    ∃ sharedRateLimits quotaReferences,
      (scheduler.candidates[candidateId]? = none ∧
        (scheduler.remove candidateId).1 = { scheduler with sharedRateLimits, quotaReferences }) ∨
      (scheduler.candidates[candidateId]?.isSome ∧ 0 < scheduler.activeRequestCount candidateId ∧
        (scheduler.remove candidateId).1 =
          { scheduler with sharedRateLimits, quotaReferences }.retireCandidate candidateId) ∨
      ∃ rotation, scheduler.candidates[candidateId]?.isSome ∧
        scheduler.activeRequestCount candidateId = 0 ∧
        (scheduler.remove candidateId).1 =
          ({ scheduler with sharedRateLimits, quotaReferences, rotation }.removeNow candidateId).1 := by
  refine ⟨(scheduler.forgetCandidateEvidence candidateId).sharedRateLimits,
    (scheduler.forgetCandidateEvidence candidateId).quotaReferences, ?_⟩
  unfold remove
  dsimp only
  split
  next absent => exact .inl ⟨absent, rfl⟩
  next existing found =>
    have present : scheduler.candidates[candidateId]?.isSome := by
      have same : scheduler.candidates[candidateId]? = some existing := found
      simp [same]
    split
    next active => exact .inr (.inl ⟨present, active, rfl⟩)
    next idle => exact .inr (.inr ⟨_, present, Nat.eq_zero_of_not_pos idle, rfl⟩)

private theorem removeMemberActivity_same (scheduler : PoolScheduler) (candidate : RuntimeCandidate) :
    ∃ memberActivity, scheduler.removeMemberActivity candidate =
      { scheduler with memberActivity } := by
  unfold removeMemberActivity
  split <;> exact ⟨_, rfl⟩

theorem removeNow_same (scheduler : PoolScheduler) (candidateId : String) :
    ∃ memberActivity, (scheduler.removeNow candidateId).1 =
      { scheduler.eraseCandidate candidateId with memberActivity } := by
  unfold removeNow
  split
  · exact ⟨_, rfl⟩
  · exact removeMemberActivity_same _ _

end ZenithRelay.Scheduler.PoolScheduler
