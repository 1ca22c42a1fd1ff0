import ZenithRelay.Scheduler.AffinityProperties
import ZenithRelay.Scheduler.Rotation.Engine.ResourceLeadProperties
import ZenithRelay.Scheduler.Selection.Ownership

/-!
# Cache owners

The durable owner of a prompt-cache key while requests complete in any order. It
changes only to a member with a resource lead over it, so it never comes back to a
member it has left while the same observations are fresh.
-/

set_option autoImplicit false

namespace ZenithRelay.Scheduler.PoolScheduler

open Rotation

/-- A request that completed on a candidate with the given cache key. -/
structure CompletedRequest where
  key : String
  candidateId : String
  nowMs : Nat
  deriving DecidableEq, Repr

/-- The scheduler after the request's affinity was bound. -/
def complete (scheduler : PoolScheduler) (request : CompletedRequest) : PoolScheduler :=
  (scheduler.bindPromptAffinitySticky request.key request.candidateId request.nowMs).1

/-- The binding of `key` is live when the request completes, and the observations that were
fresh at `nowMs` are. -/
def KeepsOwner (key : String) (nowMs : Nat) (scheduler : PoolScheduler)
    (request : CompletedRequest) : Prop :=
  (scheduler.promptAffinity.getWithExpiry key request.nowMs).isSome ∧
    scheduler.rotation.SameObservations nowMs request.nowMs

variable {scheduler : PoolScheduler} {key : String} {nowMs : Nat}

theorem complete_rotation (scheduler : PoolScheduler) (request : CompletedRequest) :
    (scheduler.complete request).rotation = scheduler.rotation := by
  unfold complete bindPromptAffinitySticky
  dsimp only
  split
  · rfl
  · split
    · rfl
    · split <;> rfl

/-- A live binding is the one that `get` shows. -/
theorem get_of_live {cache : AffinityCache} {owner : String} {expiresAt : Nat}
    (live : cache.getWithExpiry key nowMs = some (owner, expiresAt)) :
    (cache.get key nowMs).2 = some owner ∧ cache.owner key = some owner := by
  obtain ⟨binding, found, seen⟩ := Option.map_eq_some_iff.mp live
  obtain ⟨rfl, rfl⟩ := Prod.mk.inj seen
  have shown : (cache.get key nowMs).2 = some binding.candidateId := by
    unfold AffinityCache.get AffinityCache.getWithRevision AffinityCache.prune
    dsimp only
    rw [BTreeMap.lookup_filter, found]
    rfl
  exact ⟨shown, AffinityCache.get_owner shown⟩

/-- A live binding survives the look that showed it. -/
private theorem get_again {cache : AffinityCache} {owner : String} {expiresAt : Nat}
    (live : cache.getWithExpiry key nowMs = some (owner, expiresAt)) (other : String) :
    ((cache.get other nowMs).1.get key nowMs).2 = some owner := by
  obtain ⟨binding, found, seen⟩ := Option.map_eq_some_iff.mp live
  obtain ⟨rfl, rfl⟩ := Prod.mk.inj seen
  have still : (cache.get other nowMs).1.getWithExpiry key nowMs =
      some (binding.candidateId, binding.expiresAt) := by
    unfold AffinityCache.getWithExpiry AffinityCache.get AffinityCache.getWithRevision
      AffinityCache.prune
    dsimp only
    rw [BTreeMap.lookup_filter, found, Option.filter_some,
      if_pos (Option.filter_eq_some_iff.mp found).2]
    rfl
  exact (get_of_live still).1

/-- A completed request leaves a live owner in place, or moves the key to a member that leads it. -/
private theorem complete_owner {request : CompletedRequest} {owner later : String} {expiresAt : Nat}
    (live : scheduler.promptAffinity.getWithExpiry key request.nowMs = some (owner, expiresAt))
    (after : (scheduler.complete request).promptAffinity.owner key = some later) :
    later = owner ∨ scheduler.rotation.Leads request.nowMs later owner := by
  obtain ⟨shown, owned⟩ := get_of_live live
  have kept : scheduler.promptAffinity.owner key = some later → later = owner := fun same =>
    Option.some.inj (same.symm.trans owned)
  have pruned := scheduler.promptAffinity.get_forgets request.key request.nowMs
  unfold complete bindPromptAffinitySticky at after
  dsimp only at after
  split at after
  · exact .inl (kept after)
  split at after
  next moves =>
    rcases AffinityCache.bind_owner after with earlier | ⟨rfl, rfl⟩
    · exact .inl (kept (pruned key later earlier))
    · rw [shown] at moves
      simp only [Option.any_some, Bool.and_eq_true] at moves
      exact .inr moves.2
  next stays =>
  have bound : ∀ {result : AffinityCache × Outcome Bool},
      ((scheduler.promptAffinity.get request.key request.nowMs).1.bindIfUnboundOrSame request.key
        request.candidateId request.nowMs) = result →
      result.1.owner key = some later → later = owner := by
    rintro result rfl later_owned
    unfold AffinityCache.bindIfUnboundOrSame at later_owned
    have again := (scheduler.promptAffinity.get request.key request.nowMs).1.get_forgets
      request.key request.nowMs
    split at later_owned
    next middle holder found =>
      rw [found] at again
      split at later_owned
      · exact kept (pruned key later (again key later
          (middle.refresh_forgets request.key request.nowMs key later later_owned)))
      · exact kept (pruned key later (again key later later_owned))
    next middle found =>
      rw [found] at again
      rcases AffinityCache.bind_owner later_owned with earlier | ⟨rfl, rfl⟩
      · exact kept (pruned key later (again key later earlier))
      · -- The key is bound and live, so it is not found unbound.
        have still := get_again live request.key
        rw [found] at still
        cases still
  split at after
  next result found =>
    exact .inl (bound found (AffinityCache.rememberAlternative_forgets _ _ _ _ key later after))
  next result outcome other found => exact .inl (bound found after)

/-- The scheduler after requests completed one after another. -/
abbrev completeAll (scheduler : PoolScheduler) (requests : List CompletedRequest) :
    PoolScheduler :=
  Execution.run complete scheduler requests

/-- While a key stays bound, its later owner leads its earlier one through a chain of leads. -/
theorem completeAll_leads {requests : List CompletedRequest} {owner later : String}
    (keeps : Execution.Along complete (KeepsOwner key nowMs) scheduler requests)
    (before : scheduler.promptAffinity.owner key = some owner)
    (after : (scheduler.completeAll requests).promptAffinity.owner key = some later) :
    Relation.ReflTransGen (scheduler.rotation.Leads nowMs) later owner := by
  induction requests generalizing scheduler owner with
  | nil =>
      obtain rfl : owner = later := Option.some.inj (before.symm.trans after)
      exact .refl
  | cons request requests ih =>
      obtain ⟨⟨live, same⟩, rest⟩ := keeps
      obtain ⟨⟨holder, expiresAt⟩, shown⟩ := Option.isSome_iff_exists.mp live
      obtain rfl : holder = owner := Option.some.inj ((get_of_live shown).2.symm.trans before)
      have bound : ∃ middle, (scheduler.complete request).promptAffinity.owner key =
          some middle := by
        cases requests with
        | nil => exact ⟨later, after⟩
        | cons next others =>
            obtain ⟨⟨middle, _⟩, found⟩ := Option.isSome_iff_exists.mp rest.1.1
            exact ⟨middle, (get_of_live found).2⟩
      obtain ⟨middle, held⟩ := bound
      have chain := ih rest held after
      rw [complete_rotation] at chain
      rcases complete_owner shown held with rfl | leads
      · exact chain
      · exact chain.tail (same.leads leads)

/-- A durable owner that was replaced does not come back while the key stays bound. -/
private theorem owner_never_returns {first second : List CompletedRequest} {owner later : String}
    (keeps : Execution.Along complete (KeepsOwner key nowMs) scheduler (first ++ second))
    (before : scheduler.promptAffinity.owner key = some owner)
    (replaced : (scheduler.completeAll first).promptAffinity.owner key = some later)
    (different : later ≠ owner) :
    (scheduler.completeAll (first ++ second)).promptAffinity.owner key ≠ some owner := by
  intro back
  obtain ⟨early, late⟩ := (Execution.along_append complete).mp keeps
  have rotation : (scheduler.completeAll first).rotation = scheduler.rotation := by
    refine Execution.run_invariant (fun reached : PoolScheduler =>
      reached.rotation = scheduler.rotation) (fun reached request same => ?_) rfl first
    exact (complete_rotation reached request).trans same
  have away := completeAll_leads early before replaced
  rw [completeAll, Execution.run_append] at back
  have home := completeAll_leads late replaced back
  rw [rotation] at home
  rcases Relation.reflTransGen_iff_eq_or_transGen.mp away with same | leads
  · exact different same.symm
  · exact scheduler.rotation.leads_acyclic nowMs owner (leads.trans_right home)

/-- Cache-owner migration agrees with admission: in automatic mode a member leads the preferred
owner of a load group only if the owner is filtered out, the best-resourced member leads an owner
that is filtered out, and leads neither form a cycle nor bring an owner back. -/
theorem cache_owner_migration (reachable : scheduler.rotation.Reachable)
    (automatic : scheduler.rotation.mode = .automatic) (nowMs : Nat) :
    (∀ (request : RotationRequest) (candidate owner : ReadyCandidate),
      request.preferred = some owner.id →
      candidate ∈ scheduler.rotation.loadGroup request nowMs →
      owner ∈ scheduler.rotation.loadGroup request nowMs →
      scheduler.rotation.hasMaterialResourceLead candidate.id owner.id nowMs = true →
      owner ∉ scheduler.rotation.resourceGroup (scheduler.rotation.loadGroup request nowMs)
        request nowMs) ∧
    (∀ (request : RotationRequest) (best owner : ReadyCandidate),
      request.preferred = some owner.id →
      owner ∈ scheduler.rotation.loadGroup request nowMs →
      scheduler.rotation.BestResourced (scheduler.rotation.loadGroup request nowMs) nowMs best →
      owner ∉ scheduler.rotation.resourceGroup (scheduler.rotation.loadGroup request nowMs)
        request nowMs →
      scheduler.rotation.hasMaterialResourceLead best.id owner.id nowMs = true) ∧
    (∀ candidateId, ¬Relation.TransGen (scheduler.rotation.Leads nowMs) candidateId candidateId) ∧
    ∀ (key owner later : String) (first second : List CompletedRequest),
      Execution.Along complete (KeepsOwner key nowMs) scheduler (first ++ second) →
      scheduler.promptAffinity.owner key = some owner →
      (scheduler.completeAll first).promptAffinity.owner key = some later → later ≠ owner →
      (scheduler.completeAll (first ++ second)).promptAffinity.owner key ≠ some owner :=
  ⟨fun _ _ _ _ inside _ leads => RotationEngine.lead_removes inside leads,
    fun _ _ _ preferred inside best removed =>
      RotationEngine.removed_leads reachable.registered automatic preferred inside best removed,
    scheduler.rotation.leads_acyclic nowMs,
    fun _ _ _ _ _ keeps before replaced different =>
      owner_never_returns keeps before replaced different⟩

/-- Members a and b with ten percent of quota between them. -/
def quotaLeadRun : List EngineOperation := [
  .upsert (.create "a" "r" "m"), .upsert (.create "b" "r" "m"),
  .setQuota "a" .available, .setQuotaRemaining "a" (some 9000) (some 100),
  .setQuota "b" .available, .setQuotaRemaining "b" (some 8000) (some 100)]

/-- An idle member as selection sees it. -/
def idleMember (candidateId : String) : ReadyCandidate :=
  ⟨candidateId, candidateId, 0, 1024, 0, 1, false, none, 0, none⟩

/-- A request that prefers b is served without it, as a leads b. -/
theorem cache_owner_migration_quota :
    idleMember "b" ∉ (RotationEngine.default.runOperations quotaLeadRun).resourceGroup
      ((RotationEngine.default.runOperations quotaLeadRun).loadGroup
        { RotationRequest.create 1 "r" "m" with preferred := some "b" } 100)
      { RotationRequest.create 1 "r" "m" with preferred := some "b" } 100 :=
  (@cache_owner_migration { PoolScheduler.create with
      rotation := RotationEngine.default.runOperations quotaLeadRun } ⟨quotaLeadRun, rfl⟩
    (by decide +kernel) 100).1 { RotationRequest.create 1 "r" "m" with preferred := some "b" }
    (idleMember "a") (idleMember "b") rfl (by decide +kernel) (by decide +kernel)
    (by decide +kernel)

end ZenithRelay.Scheduler.PoolScheduler
