import ZenithRelay.Scheduler.Rotation.Engine.WaitingProperties

/-!
# Resource leads

The comparison that moves cache owners, beside the filter that admission puts a
load group through: an owner that some member leads is filtered out, and an owner
that is filtered out is led by the best-resourced member. A lead raises the rank of
quota, then of credits, so leads do not go in circles.
-/

set_option autoImplicit false

namespace ZenithRelay.Scheduler.Rotation.RotationEngine

variable {engine : RotationEngine} {request : RotationRequest} {nowMs : Nat}

/-- A member that no other member of the group has more quota than; without quota, a member
without less credits than any other. -/
structure BestResourced (engine : RotationEngine) (group : List ReadyCandidate) (nowMs : Nat)
    (best : ReadyCandidate) : Prop where
  member : best ∈ group
  quota : ∀ other ∈ group,
    engine.freshQuotaRemaining other.id nowMs ≤ engine.freshQuotaRemaining best.id nowMs
  credits : engine.freshQuotaRemaining best.id nowMs = none → ∀ other ∈ group,
    engine.freshProviderCredits other.id nowMs ≤ engine.freshProviderCredits best.id nowMs

/-- The load group a request is served from. -/
def loadGroup (engine : RotationEngine) (request : RotationRequest) (nowMs : Nat) :
    List ReadyCandidate :=
  cacheAwareLoadGroup (engine.selectionCandidates request nowMs).1 request

section Filter

variable {group : List ReadyCandidate} (observe : String → Option Nat)

/-- A group with an observation has a largest one, and it bounds every other. -/
theorem observed_max {member : ReadyCandidate} {value : Nat} (inside : member ∈ group)
    (observed : observe member.id = some value) :
    ∃ best, (group.filterMap fun candidate => observe candidate.id).max? = some best ∧
      value ≤ best := by
  have present : value ∈ group.filterMap fun candidate => observe candidate.id :=
    List.mem_filterMap.mpr ⟨member, inside, observed⟩
  obtain ⟨best, largest⟩ := Option.isSome_iff_exists.mp (List.isSome_max?_of_mem present)
  exact ⟨best, largest, (List.max?_eq_some_iff.mp largest).2 value present⟩

/-- A member that no other has more than holds the largest observation. -/
theorem observed_best {member : ReadyCandidate} {best : Nat}
    (largest : (group.filterMap fun candidate => observe candidate.id).max? = some best)
    (bounds : ∀ other ∈ group, observe other.id ≤ observe member.id) (inside : member ∈ group) :
    observe member.id = some best := by
  obtain ⟨holder, held, observed⟩ := List.mem_filterMap.mp (List.max?_mem largest)
  have above := bounds holder held
  rw [observed] at above
  cases own : observe member.id with
  | none =>
      rw [own] at above
      exact absurd above (by simp)
  | some value =>
      rw [own] at above
      have atMost := (List.max?_eq_some_iff.mp largest).2 value
        (List.mem_filterMap.mpr ⟨member, inside, own⟩)
      exact congrArg some (le_antisymm atMost (by simpa using above))

/-- Nobody observed, no largest observation. -/
theorem observed_none (unobserved : (group.filterMap fun candidate => observe candidate.id).max? =
    none) {member : ReadyCandidate} (inside : member ∈ group) : observe member.id = none := by
  cases own : observe member.id with
  | none => rfl
  | some value =>
      obtain ⟨best, largest, -⟩ := observed_max observe inside own
      rw [unobserved] at largest
      cases largest

end Filter

/-- A candidate that a request pinned to an owner sees is that owner. -/
theorem loadGroup_owned (registered : Registered engine) {candidate : ReadyCandidate}
    (member : candidate ∈ engine.loadGroup request nowMs) {owner : String}
    (pinned : request.owner = some owner) : candidate.id = owner := by
  have seen := (selectionCandidates_mem
    ((cacheAwareLoadGroup_narrows _ request).subset member)).1
  obtain ⟨runtime, eligible, -⟩ := ready_iff.mp (readyCandidates_ready registered seen)
  have owned := eligible.owned
  rw [pinned] at owned
  simpa using eq_comm.mp (by simpa using owned)

/-- What a lead compares: quota of both, quota of one, or credits where neither has quota. -/
theorem lead_iff {candidateId ownerId : String} :
    engine.hasMaterialResourceLead candidateId ownerId nowMs = true ↔
      engine.mode = .automatic ∧
        ((∃ remaining ownerRemaining,
            engine.freshQuotaRemaining candidateId nowMs = some remaining ∧
            engine.freshQuotaRemaining ownerId nowMs = some ownerRemaining ∧
            cacheAffinityQuotaSwitchMarginBasisPoints ≤ remaining - ownerRemaining) ∨
          ((engine.freshQuotaRemaining candidateId nowMs).isSome ∧
            engine.freshQuotaRemaining ownerId nowMs = none) ∨
          engine.freshQuotaRemaining candidateId nowMs = none ∧
            engine.freshQuotaRemaining ownerId nowMs = none ∧
            ((∃ credits ownerCredits,
                engine.freshProviderCredits candidateId nowMs = some credits ∧
                engine.freshProviderCredits ownerId nowMs = some ownerCredits ∧
                providerCreditSwitchMarginMicroUnits ≤ credits - ownerCredits) ∨
              (engine.freshProviderCredits candidateId nowMs).isSome ∧
                engine.freshProviderCredits ownerId nowMs = none)) := by
  unfold hasMaterialResourceLead
  by_cases mode : engine.mode = .automatic
  · rw [if_neg (not_not.mpr mode)]
    cases engine.freshQuotaRemaining candidateId nowMs <;>
      cases engine.freshQuotaRemaining ownerId nowMs <;>
      cases engine.freshProviderCredits candidateId nowMs <;>
      cases engine.freshProviderCredits ownerId nowMs <;> simp [mode]
  · rw [if_pos mode]
    exact iff_of_false Bool.false_ne_true fun lead => mode lead.1

private theorem quotaSwitchMargin_le (engine : RotationEngine) (request : RotationRequest)
    (candidateId : String) :
    engine.quotaSwitchMargin request candidateId ≤ cacheAffinityQuotaSwitchMarginBasisPoints := by
  unfold quotaSwitchMargin
  split <;> decide

/-- An owner with a lead over it is filtered out of the group. -/
theorem lead_removes {group : List ReadyCandidate} {candidate owner : ReadyCandidate}
    (inside : candidate ∈ group)
    (leads : engine.hasMaterialResourceLead candidate.id owner.id nowMs = true) :
    owner ∉ engine.resourceGroup group request nowMs := by
  obtain ⟨-, quotaLead | quotaAlone | ⟨noQuota, ownerNone, credits⟩⟩ := lead_iff.mp leads
  · obtain ⟨remaining, ownerRemaining, own, owners, margin⟩ := quotaLead
    obtain ⟨best, largest, above⟩ := observed_max (engine.freshQuotaRemaining · nowMs) inside own
    unfold resourceGroup
    simp only [largest, List.mem_filter, not_and]
    intro member
    have narrow := engine.quotaSwitchMargin_le request owner.id
    simp only [withinQuotaBand, owners, Option.any_some, decide_eq_true_eq]
    omega
  · obtain ⟨own, owners⟩ := quotaAlone
    obtain ⟨remaining, own⟩ := Option.isSome_iff_exists.mp own
    obtain ⟨best, largest, -⟩ := observed_max (engine.freshQuotaRemaining · nowMs) inside own
    unfold resourceGroup
    simp [largest, withinQuotaBand, owners]
  · unfold resourceGroup
    dsimp only
    cases quota : (group.filterMap fun candidate =>
        engine.freshQuotaRemaining candidate.id nowMs).max? with
    | some best => simp [withinQuotaBand, ownerNone]
    | none =>
        obtain ⟨held, own⟩ : ∃ credits, engine.freshProviderCredits candidate.id nowMs =
            some credits := by
          rcases credits with ⟨held, -, own, -⟩ | ⟨own, -⟩
          · exact ⟨held, own⟩
          · exact Option.isSome_iff_exists.mp own
        obtain ⟨best, largest, above⟩ :=
          observed_max (engine.freshProviderCredits · nowMs) inside own
        simp only [largest, List.mem_filter, not_and]
        intro member
        rcases credits with ⟨heldToo, ownerCredits, ownToo, owners, margin⟩ | ⟨-, owners⟩
        · obtain rfl : heldToo = held := Option.some.inj (ownToo.symm.trans own)
          have positive : 0 < providerCreditSwitchMarginMicroUnits := by decide
          simp only [owners, Option.any_some, Bool.or_eq_true, Bool.and_eq_true,
            decide_eq_true_eq, not_or, not_and]
          exact ⟨by omega, fun _ => by omega⟩
        · simp [owners]

/-- A preferred owner that is filtered out is led by the best-resourced member. -/
theorem removed_leads (registered : Registered engine) (automatic : engine.mode = .automatic)
    {best owner : ReadyCandidate} (preferred : request.preferred = some owner.id)
    (inside : owner ∈ engine.loadGroup request nowMs)
    (resourced : engine.BestResourced (engine.loadGroup request nowMs) nowMs best)
    (removed : owner ∉ engine.resourceGroup (engine.loadGroup request nowMs) request nowMs) :
    engine.hasMaterialResourceLead best.id owner.id nowMs = true := by
  refine lead_iff.mpr ⟨automatic, ?_⟩
  unfold resourceGroup at removed
  dsimp only at removed
  cases quota : ((engine.loadGroup request nowMs).filterMap fun candidate =>
      engine.freshQuotaRemaining candidate.id nowMs).max? with
  | some most =>
      have own := observed_best (engine.freshQuotaRemaining · nowMs) quota resourced.quota
        resourced.member
      cases owners : engine.freshQuotaRemaining owner.id nowMs with
      | none => exact .inr (.inl ⟨by simp [own], rfl⟩)
      | some ownerRemaining =>
          refine .inl ⟨most, ownerRemaining, own, rfl, ?_⟩
          simp only [quota, List.mem_filter, inside, true_and, withinQuotaBand, owners,
            Option.any_some, decide_eq_true_eq, not_lt] at removed
          cases pinned : request.owner with
          | none => simpa [quotaSwitchMargin, automatic, pinned, preferred] using removed
          | some pin =>
              -- A pinned request sees its owner alone, which is then the best-resourced one.
              have same : best.id = owner.id :=
                (loadGroup_owned registered resourced.member pinned).trans
                  (loadGroup_owned registered inside pinned).symm
              rw [same, owners] at own
              obtain rfl := Option.some.inj own
              have positive : 0 < engine.quotaSwitchMargin request owner.id := by
                unfold quotaSwitchMargin
                split <;> decide
              omega
  | none =>
      have noQuota := observed_none (engine.freshQuotaRemaining · nowMs) quota resourced.member
      have ownerNone := observed_none (engine.freshQuotaRemaining · nowMs) quota inside
      refine .inr (.inr ⟨noQuota, ownerNone, ?_⟩)
      cases credits : ((engine.loadGroup request nowMs).filterMap fun candidate =>
          engine.freshProviderCredits candidate.id nowMs).max? with
      | none =>
          simp only [quota, credits] at removed
          exact absurd inside removed
      | some most =>
          have own := observed_best (engine.freshProviderCredits · nowMs) credits
            (resourced.credits noQuota) resourced.member
          cases owners : engine.freshProviderCredits owner.id nowMs with
          | none => exact .inr ⟨by simp [own], rfl⟩
          | some ownerCredits =>
              refine .inl ⟨most, ownerCredits, own, rfl, ?_⟩
              simp only [quota, credits, List.mem_filter, inside, true_and, owners,
                Option.any_some, Bool.or_eq_true, decide_eq_true_eq, Bool.and_eq_true, preferred,
                not_or, not_lt] at removed
              exact removed.2

/-- An observation is worth more than none, and more the larger it is. -/
def observationRank (observed : Option Nat) : Nat := (observed.map (· + 1)).getD 0

/-- Quota first, then credits. -/
def resourceRank (engine : RotationEngine) (nowMs : Nat) (candidateId : String) : Nat ×ₗ Nat :=
  toLex (observationRank (engine.freshQuotaRemaining candidateId nowMs),
    observationRank (engine.freshProviderCredits candidateId nowMs))

theorem lead_raises_rank {candidateId ownerId : String}
    (leads : engine.hasMaterialResourceLead candidateId ownerId nowMs = true) :
    engine.resourceRank nowMs ownerId < engine.resourceRank nowMs candidateId := by
  unfold resourceRank observationRank
  rw [Prod.Lex.toLex_lt_toLex]
  have quotaMargin : 0 < cacheAffinityQuotaSwitchMarginBasisPoints := by decide
  have creditMargin : 0 < providerCreditSwitchMarginMicroUnits := by decide
  obtain ⟨-, quotaLead | ⟨own, owners⟩ | ⟨own, owners, credits⟩⟩ := lead_iff.mp leads
  · obtain ⟨remaining, ownerRemaining, own, owners, margin⟩ := quotaLead
    refine .inl ?_
    rw [own, owners]
    exact Nat.add_lt_add_right (by omega) 1
  · obtain ⟨remaining, own⟩ := Option.isSome_iff_exists.mp own
    refine .inl ?_
    rw [own, owners]
    exact Nat.succ_pos remaining
  · refine .inr ⟨by rw [own, owners], ?_⟩
    rcases credits with ⟨held, ownerCredits, ownHeld, ownersHeld, margin⟩ | ⟨ownHeld, ownersHeld⟩
    · rw [ownHeld, ownersHeld]
      exact Nat.add_lt_add_right (by omega) 1
    · obtain ⟨held, ownHeld⟩ := Option.isSome_iff_exists.mp ownHeld
      rw [ownHeld, ownersHeld]
      exact Nat.succ_pos held

/-- A lead at one time, as a relation between members. -/
def Leads (engine : RotationEngine) (nowMs : Nat) (candidateId ownerId : String) : Prop :=
  engine.hasMaterialResourceLead candidateId ownerId nowMs = true

/-- No chain of leads comes back to where it began. -/
theorem leads_acyclic (engine : RotationEngine) (nowMs : Nat) (candidateId : String) :
    ¬Relation.TransGen (engine.Leads nowMs) candidateId candidateId := by
  intro cycle
  have rises : ∀ {first last : String}, Relation.TransGen (engine.Leads nowMs) first last →
      engine.resourceRank nowMs last < engine.resourceRank nowMs first := by
    intro first last chain
    induction chain with
    | single leads => exact lead_raises_rank leads
    | tail _ leads ih => exact (lead_raises_rank leads).trans ih
  exact lt_irrefl _ (rises cycle)

/-- Two times at which the same observations are fresh. -/
def SameObservations (engine : RotationEngine) (nowMs atMs : Nat) : Prop :=
  ∀ candidateId, engine.freshQuotaRemaining candidateId atMs =
      engine.freshQuotaRemaining candidateId nowMs ∧
    engine.freshProviderCredits candidateId atMs = engine.freshProviderCredits candidateId nowMs

theorem SameObservations.leads {atMs : Nat} (same : engine.SameObservations nowMs atMs)
    {candidateId ownerId : String}
    (leads : engine.hasMaterialResourceLead candidateId ownerId atMs = true) :
    engine.Leads nowMs candidateId ownerId := by
  unfold Leads
  rw [← leads]
  unfold hasMaterialResourceLead
  rw [(same candidateId).1, (same candidateId).2, (same ownerId).1, (same ownerId).2]

end ZenithRelay.Scheduler.Rotation.RotationEngine
