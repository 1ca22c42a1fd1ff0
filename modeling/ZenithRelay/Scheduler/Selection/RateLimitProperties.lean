import ZenithRelay.Scheduler.Selection.ResponseOwnershipProperties

/-!
# Shared provider deadlines

A deadline read from one member cools every member of its bucket. Deadlines are
joined by their maximum, in the observations and in the cooldowns of candidates.
-/

set_option autoImplicit false

namespace ZenithRelay.Scheduler

/-- The calls that read or write provider deadlines. -/
inductive RateLimitCall where
  | setCooldown (candidateId model : String) (retryAtMs : Nat)
  | setCooldownWithReason (candidateId : String) (request : CooldownRequest)
  | observeSharedRateLimit (candidateId : String) (bucket : BitVec 256)
      (request : CooldownRequest) (nowMs : Nat)
  | recordSuccess (candidateId model : String) (nowMs : Nat)
  | resetSharedRateLimitBackoff (candidateId model : String) (nowMs : Nat)
  deriving DecidableEq, Repr

def RateLimitCall.clockMs : RateLimitCall → Option Nat
  | .observeSharedRateLimit _ _ _ nowMs => some nowMs
  | .recordSuccess _ _ nowMs => some nowMs
  | .resetSharedRateLimitBackoff _ _ nowMs => some nowMs
  | _ => none

namespace PoolScheduler

def applyRateLimit (scheduler : PoolScheduler) : RateLimitCall → PoolScheduler
  | .setCooldown candidateId model retryAtMs =>
    (scheduler.setCooldown candidateId model retryAtMs).1
  | .setCooldownWithReason candidateId request =>
    (scheduler.setCooldownWithReason candidateId request).1
  | .observeSharedRateLimit candidateId bucket request nowMs =>
    scheduler.observeSharedRateLimit candidateId bucket request nowMs
  | .recordSuccess candidateId model nowMs => (scheduler.recordSuccess candidateId model nowMs).1
  | .resetSharedRateLimitBackoff candidateId model nowMs =>
    scheduler.resetSharedRateLimitBackoff candidateId model nowMs

def runRateLimits : PoolScheduler → List RateLimitCall → PoolScheduler :=
  Execution.run applyRateLimit

/-- A candidate is cooled until `deadlineMs` or later for a scope, however its letters are
cased. -/
def CoolsUntil (scheduler : PoolScheduler) (candidateId scope : String) (deadlineMs : Nat) :
    Prop :=
  ∃ (candidate : RuntimeCandidate) (cased : String) (retryAtMs : Nat),
    scheduler.candidates[candidateId]? = some candidate ∧
      Text.eqIgnoreAsciiCase cased scope = true ∧ candidate.cooldowns[cased]? = some retryAtMs ∧
        deadlineMs ≤ retryAtMs

variable {scheduler : PoolScheduler} {candidateId scope : String} {deadlineMs : Nat}

/-! ## Cooldowns -/

/-- The edited candidate keeps a deadline that its new cooldowns keep. -/
theorem CoolsUntil.modify {edited : PoolScheduler} {editedId : String}
    {update : RuntimeCandidate → RuntimeCandidate}
    (cools : scheduler.CoolsUntil candidateId scope deadlineMs)
    (candidates : edited.candidates = scheduler.candidates.modify editedId update)
    (kept : ∀ candidate, scheduler.candidates[editedId]? = some candidate →
      ∀ (cased : String) (retryAtMs : Nat), candidate.cooldowns[cased]? = some retryAtMs →
        deadlineMs ≤ retryAtMs → ∃ laterMs, (update candidate).cooldowns[cased]? = some laterMs ∧
          retryAtMs ≤ laterMs) :
    edited.CoolsUntil candidateId scope deadlineMs := by
  obtain ⟨candidate, cased, retryAtMs, found, same, cooled, late⟩ := cools
  by_cases own : candidateId = editedId
  · subst own
    obtain ⟨laterMs, stored, later⟩ := kept candidate found cased retryAtMs cooled late
    refine ⟨update candidate, cased, laterMs, ?_, same, stored, late.trans later⟩
    rw [candidates, BTreeMap.lookup_modify, if_pos rfl, found]
    rfl
  · refine ⟨candidate, cased, retryAtMs, ?_, same, cooled, late⟩
    rw [candidates, BTreeMap.lookup_modify, if_neg own, found]

theorem CoolsUntil.setCooldownWithReason (cools : scheduler.CoolsUntil candidateId scope deadlineMs)
    (member : String) (request : CooldownRequest) :
    (scheduler.setCooldownWithReason member request).1.CoolsUntil candidateId scope deadlineMs := by
  unfold PoolScheduler.setCooldownWithReason
  split
  · exact cools
  dsimp only
  generalize (if request.scope = "*" then "*" else Text.toAsciiLowercase request.scope) = cooled
  split
  · exact cools
  next candidate found =>
    refine cools.modify rfl ?_
    intro stored held cased retryAtMs recorded late
    obtain rfl := Option.some.inj (found.symm.trans held)
    dsimp only
    rw [BTreeMap.lookup_insert]
    split
    next own =>
      subst own
      exact ⟨_, rfl, by rw [recorded]; exact Nat.le_max_left _ _⟩
    · exact ⟨retryAtMs, recorded, le_rfl⟩

theorem CoolsUntil.recordSuccess (cools : scheduler.CoolsUntil candidateId scope deadlineMs)
    (member model : String) {nowMs : Nat} (unexpired : nowMs < deadlineMs) :
    (scheduler.recordSuccess member model nowMs).1.CoolsUntil candidateId scope deadlineMs := by
  unfold PoolScheduler.recordSuccess
  split
  · exact cools
  next candidate found =>
    refine cools.modify rfl ?_
    intro stored held cased retryAtMs recorded late
    obtain rfl := Option.some.inj (found.symm.trans held)
    refine ⟨retryAtMs, ?_, le_rfl⟩
    dsimp only
    rw [BTreeMap.lookup_filter, recorded]
    simp [Option.filter, unexpired.trans_le late]

theorem CoolsUntil.of_candidates {edited : PoolScheduler}
    (cools : scheduler.CoolsUntil candidateId scope deadlineMs)
    (same : edited.candidates = scheduler.candidates) :
    edited.CoolsUntil candidateId scope deadlineMs := by
  unfold CoolsUntil at cools ⊢
  rwa [same]

theorem CoolsUntil.apply (cools : scheduler.CoolsUntil candidateId scope deadlineMs)
    (call : RateLimitCall)
    (unexpired : ∀ nowMs, call.clockMs = some nowMs → nowMs < deadlineMs) :
    (scheduler.applyRateLimit call).CoolsUntil candidateId scope deadlineMs := by
  cases call with
  | setCooldown member model retryAtMs => exact cools.setCooldownWithReason member _
  | setCooldownWithReason member request => exact cools.setCooldownWithReason member request
  | recordSuccess member model nowMs =>
      exact cools.recordSuccess member model (unexpired nowMs rfl)
  | observeSharedRateLimit member bucket request nowMs =>
      rw [applyRateLimit]
      unfold observeSharedRateLimit
      split
      · exact cools
      · apply foldl_setCooldown (CoolsUntil · candidateId scope deadlineMs)
        · exact cools.of_candidates rfl
        · exact fun _ member cools => cools.setCooldownWithReason member _
  | resetSharedRateLimitBackoff member model nowMs =>
      rw [applyRateLimit]
      unfold resetSharedRateLimitBackoff
      dsimp only
      split
      · exact cools
      · exact cools.of_candidates rfl

theorem CoolsUntil.run {calls : List RateLimitCall}
    (cools : scheduler.CoolsUntil candidateId scope deadlineMs)
    (unexpired : ∀ call ∈ calls, ∀ nowMs, call.clockMs = some nowMs → nowMs < deadlineMs) :
    (scheduler.runRateLimits calls).CoolsUntil candidateId scope deadlineMs := by
  induction calls generalizing scheduler with
  | nil => exact cools
  | cons call calls ih =>
      exact ih (cools.apply call (unexpired call (by simp)))
        fun later member => unexpired later (by simp [member])

/-- A cooldown that is set is kept by every later one. -/
private theorem setCooldownWithReason_cools (member : String) {request : CooldownRequest}
    (lasting : request.reason ≠ .transient) (known : member ∈ scheduler.candidates) :
    (scheduler.setCooldownWithReason member request).1.CoolsUntil member
      (Text.toAsciiLowercase request.scope) request.retryAtMs := by
  obtain ⟨candidate, found⟩ :=
    Option.isSome_iff_exists.mp (Std.ExtTreeMap.mem_iff_isSome_getElem?.mp known)
  have named : (if request.scope = "*" then "*" else Text.toAsciiLowercase request.scope) =
      Text.toAsciiLowercase request.scope := by
    split
    next any => rw [any]; decide
    · rfl
  unfold setCooldownWithReason
  rw [if_neg lasting, named]
  dsimp only
  rw [found]
  dsimp only
  refine ⟨{ candidate with
    cooldowns := candidate.cooldowns.insert (Text.toAsciiLowercase request.scope)
      ((candidate.cooldowns[Text.toAsciiLowercase request.scope]?.map fun current =>
        max current request.retryAtMs).getD request.retryAtMs) },
    Text.toAsciiLowercase request.scope, _, ?_, Text.eqIgnoreAsciiCase_refl _,
    BTreeMap.lookup_insert .. |>.trans (if_pos rfl), ?_⟩
  · rw [BTreeMap.lookup_modify, if_pos rfl, found]
    rfl
  · cases candidate.cooldowns[Text.toAsciiLowercase request.scope]? with
    | none => exact le_rfl
    | some current => exact Nat.le_max_right _ _

private theorem setCooldownWithReason_sharedRateLimits (scheduler : PoolScheduler) (member : String)
    (request : CooldownRequest) :
    (scheduler.setCooldownWithReason member request).1.sharedRateLimits =
      scheduler.sharedRateLimits := by
  unfold setCooldownWithReason
  split
  · rfl
  · dsimp only
    split <;> rfl

private theorem foldl_sharedRateLimits (members : List String) (request : CooldownRequest)
    (start : PoolScheduler) :
    (members.foldl (fun scheduler member => (scheduler.setCooldownWithReason member request).1)
      start).sharedRateLimits = start.sharedRateLimits :=
  foldl_setCooldown (fun current => current.sharedRateLimits = start.sharedRateLimits) members
    request rfl fun current member same =>
      (setCooldownWithReason_sharedRateLimits current member request).trans same

private theorem setCooldownWithReason_keeps (member : String) (request : CooldownRequest)
    (known : candidateId ∈ scheduler.candidates) :
    candidateId ∈ (scheduler.setCooldownWithReason member request).1.candidates := by
  unfold setCooldownWithReason
  split
  · exact known
  · dsimp only
    split
    · exact known
    · exact Std.ExtTreeMap.mem_modify.mpr known

/-- Every member of the list is cooled by the fold over it. -/
private theorem foldl_cools {members : List String} {request : CooldownRequest} {start : PoolScheduler}
    (lasting : request.reason ≠ .transient) {member : String} (listed : member ∈ members)
    (known : member ∈ start.candidates) :
    (members.foldl (fun scheduler member => (scheduler.setCooldownWithReason member request).1)
      start).CoolsUntil member (Text.toAsciiLowercase request.scope) request.retryAtMs := by
  induction members generalizing start with
  | nil => cases listed
  | cons first members ih =>
      rw [List.foldl_cons]
      rcases List.mem_cons.mp listed with rfl | later
      · apply foldl_setCooldown
          (CoolsUntil · member (Text.toAsciiLowercase request.scope) request.retryAtMs)
        · exact setCooldownWithReason_cools member lasting known
        · exact fun _ other cools => cools.setCooldownWithReason other request
      · exact ih later (setCooldownWithReason_keeps first request known)

/-! ## Observations of one bucket -/

private theorem nextBackoffMs_bounded (previous : Option RateLimitObservation) (nowMs : Nat) :
    minBackoffMs ≤ nextBackoffMs previous nowMs ∧ nextBackoffMs previous nowMs ≤ maxBackoffMs := by
  cases previous with
  | none => exact ⟨le_rfl, show minBackoffMs ≤ maxBackoffMs by decide⟩
  | some observation =>
      have ordered : minBackoffMs ≤ maxBackoffMs := by decide
      unfold nextBackoffMs
      dsimp only
      omega

/-- A backoff within its bounds. -/
def clampBackoff (backoffMs : Nat) : Nat := max minBackoffMs (min backoffMs maxBackoffMs)

private theorem nextBackoffMs_some (previous : RateLimitObservation) (nowMs : Nat) :
    (nowMs < previous.retryAtMs →
      nextBackoffMs (some previous) nowMs = clampBackoff previous.backoffMs) ∧
    (previous.retryAtMs ≤ nowMs →
      nextBackoffMs (some previous) nowMs = clampBackoff (2 * previous.backoffMs)) := by
  unfold nextBackoffMs clampBackoff
  dsimp only
  constructor
  · intro running
    rw [if_neg (Nat.not_le_of_lt running)]
  · intro passed
    have wide : maxBackoffMs ≤ u64Max := by decide
    rw [if_pos passed, saturatingMul]
    omega

/-- One observation of a bucket. `counts` says which earlier observations are still known, and
`paced nowMs backoffMs` is the time that the backoff leads to. -/
structure SharedDeadline (counts : RateLimitObservation → Prop) (paced : Nat → Nat → Nat)
    (before after : PoolScheduler) (bucket : BitVec 256) (request : CooldownRequest)
    (nowMs retryAtMs backoffMs : Nat) : Prop where
  caller : request.retryAtMs ≤ retryAtMs
  backoff : paced nowMs backoffMs ≤ retryAtMs
  bounded : minBackoffMs ≤ backoffMs ∧ backoffMs ≤ maxBackoffMs
  earlier : ∀ (member : String) (observation : RateLimitObservation),
    before.sharedRateLimits[(member, Text.toAsciiLowercase request.scope)]? = some observation →
    observation.bucket = bucket → counts observation → observation.retryAtMs ≤ retryAtMs
  common : ∀ (member : String) (observation : RateLimitObservation),
    after.sharedRateLimits[(member, Text.toAsciiLowercase request.scope)]? = some observation →
    observation.bucket = bucket →
      observation.retryAtMs = retryAtMs ∧ observation.backoffMs = backoffMs ∧
        (request.reason ≠ .transient → member ∈ before.candidates →
          after.CoolsUntil member (Text.toAsciiLowercase request.scope) retryAtMs)
  /-- The latest known observation sets the pace; it doubles once its deadline has passed. -/
  doubles :
    (backoffMs = minBackoffMs ∧ ∀ (member : String) (observation : RateLimitObservation),
      before.sharedRateLimits[(member, Text.toAsciiLowercase request.scope)]? = some observation →
      observation.bucket = bucket → ¬counts observation) ∨
    ∃ (member : String) (latest : RateLimitObservation),
      before.sharedRateLimits[(member, Text.toAsciiLowercase request.scope)]? = some latest ∧
      latest.bucket = bucket ∧ counts latest ∧
      (∀ (other : String) (observation : RateLimitObservation),
        before.sharedRateLimits[(other, Text.toAsciiLowercase request.scope)]? =
          some observation → observation.bucket = bucket → counts observation →
            observation.retryAtMs ≤ latest.retryAtMs) ∧
      (nowMs < latest.retryAtMs → backoffMs = clampBackoff latest.backoffMs) ∧
      (latest.retryAtMs ≤ nowMs → backoffMs = clampBackoff (2 * latest.backoffMs))

/-- An observation that the next call does not drop for its age. -/
def Recent (nowMs : Nat) (observation : RateLimitObservation) : Prop :=
  nowMs - observation.observedAtMs < observationTtlMs

instance transRetryAt : Std.TransCmp fun (left right : RateLimitObservation) =>
    compare left.retryAtMs right.retryAtMs :=
  inferInstanceAs (Std.TransCmp (compareOn RateLimitObservation.retryAtMs))

/-- The latest of the observations in a list, as the call folds it into its own deadline. -/
private theorem latest_observation {observations : List RateLimitObservation}
    {latest : Option RateLimitObservation}
    (chosen : Selection.maxBy (fun left right => compare left.retryAtMs right.retryAtMs)
      observations = latest) (pacedMs : Nat) :
    pacedMs ≤ (latest.map fun observation => max pacedMs observation.retryAtMs).getD pacedMs ∧
    ∀ observation ∈ observations, observation.retryAtMs ≤
      (latest.map fun observation => max pacedMs observation.retryAtMs).getD pacedMs := by
  cases latest with
  | none =>
      refine ⟨le_rfl, fun observation member => ?_⟩
      obtain ⟨best, found⟩ := @Selection.maxBy_isSome _
        (fun (left right : RateLimitObservation) => compare left.retryAtMs right.retryAtMs) _
        (List.ne_nil_of_mem member)
      rw [chosen] at found
      cases found
  | some best =>
      refine ⟨Nat.le_max_left _ _, fun observation member => ?_⟩
      have dominated := Selection.maxBy_dominates chosen observation member
      exact (Nat.isLE_compare.mp dominated).trans (Nat.le_max_right _ _)

/-- The observations of a bucket that a call at `nowMs` still knows. -/
theorem mem_recent_iff {bucket : BitVec 256} {model : String} {nowMs : Nat}
    {observation : RateLimitObservation} :
    observation ∈ (((scheduler.sharedRateLimits.filter fun _ observation =>
        nowMs - observation.observedAtMs < observationTtlMs).toList.filter fun entry =>
          entry.1.2 == model && entry.2.bucket == bucket).map Prod.snd) ↔
      ∃ member : String, scheduler.sharedRateLimits[(member, model)]? = some observation ∧
        observation.bucket = bucket ∧ Recent nowMs observation := by
  simp only [List.mem_map, List.mem_filter, BTreeMap.mem_toList_iff, BTreeMap.lookup_filter,
    Option.filter_eq_some_iff, Prod.exists, Bool.and_eq_true, beq_iff_eq, decide_eq_true_eq,
    Recent]
  constructor
  · rintro ⟨member, named, stored, ⟨⟨found, recent⟩, rfl, own⟩, rfl⟩
    exact ⟨member, found, own, recent⟩
  · rintro ⟨member, found, own, recent⟩
    exact ⟨member, model, observation, ⟨⟨found, recent⟩, rfl, own⟩, rfl⟩

private theorem observeSharedRateLimit_shares (bucket : BitVec 256) (request : CooldownRequest)
    (nowMs : Nat) (known : candidateId ∈ scheduler.candidates)
    (active : candidateId ∉ scheduler.retiredCandidates) :
    ∃ retryAtMs backoffMs, SharedDeadline (Recent nowMs) (saturatingAdd u64Max) scheduler
      (scheduler.observeSharedRateLimit candidateId bucket request nowMs) bucket request nowMs
      retryAtMs backoffMs := by
  unfold observeSharedRateLimit
  rw [if_neg (by simp [Std.ExtTreeMap.contains_iff_mem.mpr known, active])]
  dsimp only
  generalize latest : Selection.maxBy
    (fun (left right : RateLimitObservation) => compare left.retryAtMs right.retryAtMs) _ = previous
  obtain ⟨paces, covers⟩ := latest_observation latest
    (max request.retryAtMs (saturatingAdd u64Max nowMs (nextBackoffMs previous nowMs)))
  generalize (previous.map fun observation => max (max request.retryAtMs
    (saturatingAdd u64Max nowMs (nextBackoffMs previous nowMs))) observation.retryAtMs).getD
      (max request.retryAtMs (saturatingAdd u64Max nowMs (nextBackoffMs previous nowMs))) =
        retryAtMs at paces covers ⊢
  generalize (evictOldestObservation _ _).insert _ _ = observed
  refine ⟨retryAtMs, nextBackoffMs previous nowMs, ?_⟩
  constructor
  · exact (Nat.le_max_left _ _).trans paces
  · exact (Nat.le_max_right _ _).trans paces
  · exact nextBackoffMs_bounded previous nowMs
  · intro member observation found own recent
    exact covers observation (mem_recent_iff.mpr ⟨member, found, own, recent⟩)
  · intro member observation stored own
    rw [foldl_sharedRateLimits, Std.ExtTreeMap.getElem?_map] at stored
    obtain ⟨held, found, rfl⟩ := Option.map_eq_some_iff.mp stored
    have shares : held.bucket = bucket := by
      split at own <;> exact own
    rw [if_pos (by simp [shares])]
    refine ⟨rfl, rfl, fun lasting present => ?_⟩
    refine @foldl_cools _ { request with retryAtMs := retryAtMs } _ lasting _ ?_ present
    refine List.mem_map.mpr ⟨((member, Text.toAsciiLowercase request.scope), held), ?_, rfl⟩
    exact List.mem_filter.mpr ⟨BTreeMap.mem_toList_iff.mpr found, by simp [shares]⟩
  · cases previous with
    | none =>
        refine .inl ⟨rfl, fun member observation found own recent => ?_⟩
        obtain ⟨best, chosen⟩ := @Selection.maxBy_isSome _
          (fun (left right : RateLimitObservation) => compare left.retryAtMs right.retryAtMs) _
          (List.ne_nil_of_mem (mem_recent_iff.mpr ⟨member, found, own, recent⟩))
        rw [latest] at chosen
        cases chosen
    | some best =>
        obtain ⟨member, found, own, recent⟩ := mem_recent_iff.mp (Selection.maxBy_mem latest)
        refine .inr ⟨member, best, found, own, recent, ?_, nextBackoffMs_some best nowMs⟩
        intro other observation stored shares kept
        exact Nat.isLE_compare.mp (Selection.maxBy_dominates latest observation
          (mem_recent_iff.mpr ⟨other, stored, shares, kept⟩))

/-- Provider deadlines are never shortened: no call drops or lowers an unexpired cooldown, and an
observation joins every deadline of its bucket that is still known. -/
theorem provider_deadlines_kept (scheduler : PoolScheduler) (calls : List RateLimitCall) :
    (∀ candidateId scope deadlineMs, scheduler.CoolsUntil candidateId scope deadlineMs →
      (∀ call ∈ calls, ∀ nowMs, call.clockMs = some nowMs → nowMs < deadlineMs) →
        (scheduler.runRateLimits calls).CoolsUntil candidateId scope deadlineMs) ∧
    ∀ before candidateId bucket request nowMs after,
      calls = before ++ .observeSharedRateLimit candidateId bucket request nowMs :: after →
      candidateId ∈ (scheduler.runRateLimits before).candidates →
      candidateId ∉ (scheduler.runRateLimits before).retiredCandidates →
        ∃ retryAtMs backoffMs, SharedDeadline (Recent nowMs) (saturatingAdd u64Max)
          (scheduler.runRateLimits before)
          (scheduler.runRateLimits
            (before ++ [.observeSharedRateLimit candidateId bucket request nowMs]))
          bucket request nowMs retryAtMs backoffMs := by
  refine ⟨fun _ _ _ cools unexpired => cools.run unexpired, ?_⟩
  rintro before candidateId bucket request nowMs after - known active
  have split : scheduler.runRateLimits
      (before ++ [.observeSharedRateLimit candidateId bucket request nowMs]) =
        (scheduler.runRateLimits before).observeSharedRateLimit candidateId bucket request nowMs :=
    Execution.run_append ..
  rw [split]
  exact observeSharedRateLimit_shares bucket request nowMs known active

/-- Two candidates; `a` was told at the start to wait for an hour. -/
def hourAgo : PoolScheduler :=
  ((create.upsert (sampleCandidate "a" "a")).1.upsert (sampleCandidate "b" "b")).1.runRateLimits
    [.observeSharedRateLimit "a" 1 ⟨"gpt-5", 3600000, .rateLimit⟩ 0]

/-- The bucket and the deadline of the observation that a candidate has. -/
def recordedDeadline (scheduler : PoolScheduler) (candidateId : String) :
    Option (BitVec 256 × Nat) :=
  scheduler.sharedRateLimits[(candidateId, "gpt-5")]?.map fun observation =>
    (observation.bucket, observation.retryAtMs)

/-- An observation that is ten minutes old no longer holds the members that join its bucket,
although its deadline is still ahead; nor does one that its candidate has replaced by an
observation of another bucket. -/
theorem forgotten_deadline_shortened :
    ("b" ∈ hourAgo.candidates ∧ "b" ∉ hourAgo.retiredCandidates ∧
      ¬∃ retryAtMs backoffMs, SharedDeadline (fun _ => True) (· + ·) hourAgo
        (hourAgo.runRateLimits
          [.observeSharedRateLimit "b" 1 ⟨"gpt-5", 0, .rateLimit⟩ 600000])
        1 ⟨"gpt-5", 0, .rateLimit⟩ 600000 retryAtMs backoffMs) ∧
    hourAgo.recordedDeadline "a" = some (1, 3600000) ∧
    (hourAgo.runRateLimits
      [.observeSharedRateLimit "a" 2 ⟨"gpt-5", 0, .rateLimit⟩ 1000,
        .observeSharedRateLimit "b" 1 ⟨"gpt-5", 0, .rateLimit⟩ 2000]).recordedDeadline "b" =
      some (1, 7000) := by
  refine ⟨⟨by decide +kernel, by decide +kernel, ?_⟩, by decide +kernel, by decide +kernel⟩
  rintro ⟨retryAtMs, backoffMs, shares⟩
  have recorded : hourAgo.recordedDeadline "a" = some (1, 3600000) := by decide +kernel
  have joined : (hourAgo.runRateLimits
      [.observeSharedRateLimit "b" 1 ⟨"gpt-5", 0, .rateLimit⟩ 600000]).recordedDeadline "b" =
      some (1, 605000) := by decide +kernel
  obtain ⟨first, stored, same⟩ := Option.map_eq_some_iff.mp recorded
  obtain ⟨bucket, retry⟩ := Prod.mk.inj same
  obtain ⟨later, found, other⟩ := Option.map_eq_some_iff.mp joined
  obtain ⟨laterBucket, laterRetry⟩ := Prod.mk.inj other
  have earlier := shares.earlier "a" first stored bucket trivial
  have common := (shares.common "b" later found laterBucket).1
  omega

end PoolScheduler

end ZenithRelay.Scheduler
