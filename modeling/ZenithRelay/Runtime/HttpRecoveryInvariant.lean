import ZenithRelay.Runtime.HttpRecoverySteps

/-!
# What the routes of HTTP recovery keep

A generation belongs to one route, no pool that failed is current, and the last failure
of a route is the last that was counted for it.
-/

set_option autoImplicit false

namespace ZenithRelay.Runtime

/-! ### The invariant -/

/-- What holds of the entry of a route; its last failure is the last that was counted. -/
structure EntrySound (nextGeneration now : Nat) (log : List Counted) (key : RouteKey)
    (entry : Observation) : Prop where
  below : entry.pool.generation < nextGeneration
  unfailed : entry.pool.generation ∉ log.filterMap Counted.failedGeneration
  period : entry.http1Until.isSome = entry.pool.http1Only
  bounded : ∀ expiry, entry.http1Until = some expiry → expiry ≤ entry.touched + http1Cooldown
  touched : entry.touched ≤ now
  failures : entry.lastFailure.isSome → 1 ≤ entry.failures
  last : ∀ failedAt, entry.lastFailure = some failedAt ↔
    ∃ generation, log.find? (·.key = key) = some (.failure key generation failedAt)

theorem EntrySound.later {nextGeneration now laterGeneration later : Nat} {log items : List Counted}
    {key : RouteKey} {entry : Observation} (sound : EntrySound nextGeneration now log key entry)
    (grows : nextGeneration ≤ laterGeneration) (passes : now ≤ later)
    (others : ∀ item ∈ items, item.key ≠ key)
    (unfailed : entry.pool.generation ∉ items.filterMap Counted.failedGeneration) :
    EntrySound laterGeneration later (items ++ log) key entry where
  below := sound.below.trans_le grows
  unfailed := by
    rw [List.filterMap_append, List.mem_append, not_or]
    exact ⟨unfailed, sound.unfailed⟩
  period := sound.period
  bounded := sound.bounded
  touched := sound.touched.trans passes
  failures := sound.failures
  last failedAt := by
    have skipped : items.find? (·.key = key) = none :=
      List.find?_eq_none.mpr fun item member => by simpa using others item member
    rw [List.find?_append, skipped, Option.none_or]
    exact sound.last failedAt

namespace HttpRun

structure Sound (run : HttpRun) : Prop where
  entries : ∀ key entry, run.recovery.observations[key]? = some entry →
    EntrySound run.recovery.nextGeneration run.now run.log key entry
  distinct : ∀ (key other : RouteKey) (entry otherEntry : Observation), run.recovery.observations[key]? = some entry →
    run.recovery.observations[other]? = some otherEntry →
    entry.pool.generation = otherEntry.pool.generation → key = other
  leases : ∀ lease ∈ run.recovery.leases,
    lease.pool.generation < run.recovery.nextGeneration ∧
      ∀ key entry, run.recovery.observations[key]? = some entry →
        entry.pool.generation = lease.pool.generation → key = lease.key ∧ entry.pool = lease.pool
  failed : ∀ generation ∈ run.log.filterMap Counted.failedGeneration,
    generation < run.recovery.nextGeneration
  once : (run.log.filterMap Counted.failedGeneration).Nodup
  bounded : run.recovery.observations.size ≤ maxRoutes

private theorem start_sound : start.Sound where
  entries key entry found := by simp [start, HttpRecovery.empty] at found
  distinct key other entry otherEntry found := by simp [start, HttpRecovery.empty] at found
  leases lease member := by cases member
  failed generation member := by cases member
  once := List.nodup_nil
  bounded := by simp [start, HttpRecovery.empty, maxRoutes]

variable {run : HttpRun} {recovery : HttpRecovery} {key : RouteKey} {now : Nat}
  {items : List Counted}

/-- A step on one route, whose pool is kept or is new. -/
structure Advance (run : HttpRun) (key : RouteKey) (recovery : HttpRecovery) (now : Nat)
    (items : List Counted) : Prop where
  passes : run.now ≤ now
  grows : run.recovery.nextGeneration ≤ recovery.nextGeneration
  bounded : recovery.observations.size ≤ maxRoutes
  keyed : ∀ item ∈ items, item.key = key
  others : ∀ (other : RouteKey) (entry : Observation), other ≠ key → recovery.observations[other]? = some entry →
    run.recovery.observations[other]? = some entry
  pools : ∀ entry, recovery.observations[key]? = some entry →
    run.recovery.current key = some entry.pool ∨
      entry.pool.generation = run.recovery.nextGeneration
  sound : ∀ entry, recovery.observations[key]? = some entry →
    EntrySound recovery.nextGeneration now (items ++ run.log) key entry
  leases : ∀ lease ∈ recovery.leases, lease ∈ run.recovery.leases ∨
    lease.key = key ∧ recovery.current key = some lease.pool
  failed : ∀ generation ∈ items.filterMap Counted.failedGeneration,
    ∃ entry, run.recovery.observations[key]? = some entry ∧ entry.pool.generation = generation
  single : (items.filterMap Counted.failedGeneration).Nodup

theorem Advance.entry_cases (advance : run.Advance key recovery now items) {other : RouteKey}
    {entry : Observation} (found : recovery.observations[other]? = some entry) :
    run.recovery.current other = some entry.pool ∨
      (other = key ∧ entry.pool.generation = run.recovery.nextGeneration) := by
  by_cases own : other = key
  · subst own
    exact (advance.pools entry found).imp_right fun new => ⟨rfl, new⟩
  · exact .inl (HttpRecovery.current_eq_some.mpr ⟨entry, advance.others other entry own found, rfl⟩)

theorem Sound.distinct_after (sound : run.Sound) (advance : run.Advance key recovery now items)
    {left right : RouteKey} {leftEntry rightEntry : Observation}
    (leftFound : recovery.observations[left]? = some leftEntry)
    (rightFound : recovery.observations[right]? = some rightEntry)
    (same : leftEntry.pool.generation = rightEntry.pool.generation) : left = right := by
  have old {other : RouteKey} {pool : Pool} (kept : run.recovery.current other = some pool) :
      pool.generation < run.recovery.nextGeneration := by
    obtain ⟨entry, found, rfl⟩ := HttpRecovery.current_eq_some.mp kept
    exact (sound.entries _ _ found).below
  rcases advance.entry_cases leftFound with leftKept | ⟨rfl, leftNew⟩
  · rcases advance.entry_cases rightFound with rightKept | ⟨rfl, rightNew⟩
    · obtain ⟨first, firstFound, firstPool⟩ := HttpRecovery.current_eq_some.mp leftKept
      obtain ⟨second, secondFound, secondPool⟩ := HttpRecovery.current_eq_some.mp rightKept
      exact sound.distinct _ _ _ _ firstFound secondFound (by rw [firstPool, secondPool, same])
    · exact absurd (old leftKept) (by omega)
  · rcases advance.entry_cases rightFound with rightKept | ⟨rfl, rightNew⟩
    · exact absurd (old rightKept) (by omega)
    · rfl

theorem Sound.advance (sound : run.Sound) (advance : run.Advance key recovery now items) :
    Sound ⟨recovery, now, items ++ run.log⟩ where
  entries other entry found := by
    by_cases own : other = key
    · subst own
      exact advance.sound entry found
    · have kept := advance.others other entry own found
      refine (sound.entries other entry kept).later advance.grows advance.passes
        (fun item member same => own (same.symm.trans (advance.keyed item member))) fun failed => ?_
      obtain ⟨failing, failingFound, generation⟩ := advance.failed _ failed
      exact own (sound.distinct _ _ _ _ kept failingFound generation.symm)
  distinct _ _ _ _ leftFound rightFound same :=
    sound.distinct_after advance leftFound rightFound same
  leases lease member := by
    rcases advance.leases lease member with old | ⟨own, current⟩
    · obtain ⟨below, agrees⟩ := sound.leases lease old
      refine ⟨below.trans_le advance.grows, fun other entry found same => ?_⟩
      rcases advance.entry_cases found with kept | ⟨_, new⟩
      · obtain ⟨before, beforeFound, pool⟩ := HttpRecovery.current_eq_some.mp kept
        rw [← pool] at same ⊢
        exact agrees other before beforeFound same
      · exact absurd below (by omega)
    · obtain ⟨entry, found, pool⟩ := HttpRecovery.current_eq_some.mp current
      refine ⟨pool ▸ (advance.sound entry found).below, fun other otherEntry otherFound same => ?_⟩
      obtain rfl : other = key :=
        sound.distinct_after advance otherFound found (by rw [same, pool])
      cases otherFound.symm.trans found
      exact ⟨own.symm, pool⟩
  failed generation member := by
    rw [List.filterMap_append, List.mem_append] at member
    rcases member with new | old
    · obtain ⟨entry, found, rfl⟩ := advance.failed generation new
      exact (sound.entries _ _ found).below.trans_le advance.grows
    · exact (sound.failed generation old).trans_le advance.grows
  once := by
    rw [List.filterMap_append, List.nodup_append]
    refine ⟨advance.single, sound.once, fun generation new other old same => ?_⟩
    obtain ⟨entry, found, own⟩ := advance.failed generation new
    exact (sound.entries _ _ found).unfailed (by rw [own, same]; exact old)
  bounded := advance.bounded

/-- A step that counts nothing and changes no entry. -/
theorem Sound.quiet (sound : run.Sound) (key : RouteKey) (passes : run.now ≤ now)
    (same : recovery.nextGeneration = run.recovery.nextGeneration)
    (bounded : recovery.observations.size ≤ maxRoutes)
    (kept : ∀ (other : RouteKey) (entry : Observation),
      recovery.observations[other]? = some entry → run.recovery.observations[other]? = some entry)
    (leases : ∀ lease ∈ recovery.leases, lease ∈ run.recovery.leases) :
    run.Advance key recovery now [] where
  passes := passes
  grows := same.ge
  bounded := bounded
  keyed := by simp
  others other entry _ found := kept other entry found
  pools entry found := .inl (HttpRecovery.current_eq_some.mpr ⟨entry, kept _ _ found, rfl⟩)
  sound entry found :=
    (sound.entries key entry (kept _ _ found)).later same.ge passes (by simp) (by simp)
  leases lease member := .inl (leases lease member)
  failed := by simp
  single := List.nodup_nil

/-- A step that puts an entry, and gives out at most its pool. -/
theorem Advance.of_put {observations : BTreeMap RouteKey Observation} {entry : Observation}
    {nextGeneration : Nat} {leases : List HttpPoolLease} (passes : run.now ≤ now)
    (grows : run.recovery.nextGeneration ≤ nextGeneration)
    (kept : ∀ (other : RouteKey) (old : Observation), observations[other]? = some old →
      run.recovery.observations[other]? = some old)
    (bounded : (observations.insert key entry).size ≤ maxRoutes)
    (keyed : ∀ item ∈ items, item.key = key)
    (pool : run.recovery.current key = some entry.pool ∨
      entry.pool.generation = run.recovery.nextGeneration)
    (sound : EntrySound nextGeneration now (items ++ run.log) key entry)
    (leased : ∀ lease ∈ leases, lease ∈ run.recovery.leases ∨ lease = ⟨key, entry.pool⟩)
    (failed : ∀ generation ∈ items.filterMap Counted.failedGeneration,
      ∃ entry, run.recovery.observations[key]? = some entry ∧ entry.pool.generation = generation)
    (single : (items.filterMap Counted.failedGeneration).Nodup) :
    run.Advance key ⟨observations.insert key entry, nextGeneration, leases⟩ now items where
  passes := passes
  grows := grows
  bounded := bounded
  keyed := keyed
  others other old away found := by
    rw [BTreeMap.lookup_insert, if_neg away] at found
    exact kept other old found
  pools put found := by
    rw [BTreeMap.lookup_insert, if_pos rfl] at found
    cases found
    exact pool
  sound put found := by
    rw [BTreeMap.lookup_insert, if_pos rfl] at found
    cases found
    exact sound
  leases lease member := by
    refine (leased lease member).imp_right ?_
    rintro rfl
    refine ⟨rfl, HttpRecovery.current_eq_some.mpr ⟨entry, ?_, rfl⟩⟩
    rw [BTreeMap.lookup_insert, if_pos rfl]
  failed := failed
  single := single

private theorem Sound.retained_le (sound : run.Sound) (now : Nat) :
    (run.recovery.retained now).size ≤ maxRoutes :=
  Std.ExtTreeMap.size_filter_le_size.trans sound.bounded

theorem Sound.unfailed (sound : run.Sound) :
    run.recovery.nextGeneration ∉ run.log.filterMap Counted.failedGeneration :=
  fun failed => absurd (sound.failed _ failed) (Nat.lt_irrefl _)

theorem Sound.opened (sound : run.Sound) (now : Nat) (key : RouteKey) :
    EntrySound (run.recovery.nextGeneration + 1) now
      ([.opened key run.recovery.nextGeneration] ++ run.log) key
      (HttpRecovery.newObservation run.recovery.nextGeneration now) where
  below := Nat.lt_succ_self _
  unfailed := sound.unfailed
  period := rfl
  bounded := by rintro _ ⟨⟩
  touched := le_rfl
  failures := by rintro ⟨⟩
  last failedAt := by simp [HttpRecovery.newObservation, Counted.key]

theorem Sound.select (sound : run.Sound) (passes : run.now ≤ now) (key : RouteKey) (built : Bool) :
    run.Advance key (run.recovery.selectAt key built now).1 now
      (run.recovery.counted now (.select key built)) := by
  have retained := sound.retained_le now
  have kept (other : RouteKey) (entry : Observation)
      (found : (run.recovery.retained now)[other]? = some entry) :
      run.recovery.observations[other]? = some entry := HttpRecovery.retained_found found
  have chosen := run.recovery.selectAt_selected key built now
  rw [HttpRecovery.counted_select]
  generalize run.recovery.selectAt key built now = result at chosen
  cases chosen with
  | full _ _ closed =>
      rw [closed, if_neg (by decide)]
      exact sound.quiet key passes rfl retained kept fun lease member => member
  | stuck _ _ _ _ _ _ closed =>
      rw [closed, if_neg (by decide)]
      exact sound.quiet key passes rfl retained kept fun lease member => member
  | opened opens =>
      rw [opens, if_pos rfl]
      refine .of_put passes (Nat.le_succ _) kept ?_ (by simp [Counted.key]) (.inr rfl)
        (sound.opened now key) (fun lease member => (List.mem_cons.mp member).symm)
        (by simp [Counted.failedGeneration]) List.nodup_nil
      cases found : (run.recovery.retained now)[key]? with
      | none =>
          rw [HttpRecovery.opens_absent found] at opens
          rw [BTreeMap.size_insert_fresh found]
          exact of_decide_eq_true opens
      | some entry => rwa [BTreeMap.size_replace found]
  | lent entry found within closed =>
      rw [closed, if_neg (by decide)]
      have old := sound.entries key entry (kept key entry found)
      refine .of_put passes le_rfl kept (by rwa [BTreeMap.size_replace found]) (by simp)
        (.inl (HttpRecovery.current_eq_some.mpr ⟨entry, kept key entry found, rfl⟩)) ?_
        (fun lease member => (List.mem_cons.mp member).symm) (by simp) List.nodup_nil
      exact ⟨old.below, old.unfailed, old.period,
        fun expiry period => (old.bounded expiry period).trans
          (Nat.add_le_add_right (old.touched.trans passes) _), le_rfl, old.failures, old.last⟩

/-- A lease whose pool is not its route's counts nothing. -/
theorem current_any_eq_false {lease : HttpPoolLease}
    (stale : ∀ entry, recovery.observations[lease.key]? = some entry →
      entry.pool.generation ≠ lease.pool.generation) :
    (recovery.current lease.key).any (·.generation = lease.pool.generation) = false := by
  unfold HttpRecovery.current
  cases found : recovery.observations[lease.key]? with
  | none => rfl
  | some entry => simpa using stale entry found

theorem current_any_eq_true {lease : HttpPoolLease} {entry : Observation}
    (found : recovery.observations[lease.key]? = some entry)
    (own : entry.pool.generation = lease.pool.generation) :
    (recovery.current lease.key).any (·.generation = lease.pool.generation) = true := by
  rw [HttpRecovery.current, found]
  simpa using own

theorem Sound.retire (sound : run.Sound) (passes : run.now ≤ now) {lease : HttpPoolLease}
    (held : lease ∈ run.recovery.leases) (built : Bool) :
    run.Advance lease.key (run.recovery.retire lease built now) now
      (run.recovery.counted now (.retire lease built)) := by
  have cases_ := run.recovery.retire_retired lease built now
  rw [HttpRecovery.counted_retire]
  generalize run.recovery.retire lease built now = result at cases_
  cases cases_ with
  | ignored stale =>
      have ignored : (built && (run.recovery.current lease.key).any
          (·.generation = lease.pool.generation)) = false := by
        rcases stale with unbuilt | stale
        · rw [unbuilt, Bool.false_and]
        · rw [current_any_eq_false stale, Bool.and_false]
      rw [ignored, if_neg (by decide)]
      exact sound.quiet lease.key passes rfl sound.bounded (fun _ _ found => found)
        fun _ member => member
  | replaced entry failures http1Only found own isBuilt counts version =>
      have old := sound.entries lease.key entry found
      have same : entry.pool = lease.pool :=
        ((sound.leases lease held).2 lease.key entry found own).2
      rw [isBuilt, current_any_eq_true found own, Bool.and_self, if_pos rfl]
      refine .of_put passes (Nat.le_succ _) (fun _ _ found => found)
        (by rw [BTreeMap.size_replace found]; exact sound.bounded) (by simp [Counted.key])
        (.inr rfl) ?_ (fun _ member => .inl member) ?_ (by simp [Counted.failedGeneration])
      · refine ⟨Nat.lt_succ_self _, ?_, ?_, ?_, le_rfl, ?_, ?_⟩
        · rw [List.filterMap_append, List.mem_append, not_or]
          refine ⟨?_, sound.unfailed⟩
          simp only [List.filterMap_cons, List.filterMap_nil, Counted.failedGeneration,
            List.mem_singleton]
          exact (Nat.ne_of_lt (own ▸ old.below)).symm
        · dsimp only
          cases period : entry.http1Until with
          | none => cases http1Only <;> rfl
          | some expiry =>
              have already : lease.pool.http1Only = true := by
                rw [← same, ← old.period, period]
                rfl
              rw [version, already]
              rfl
        · intro expiry set
          dsimp only at set ⊢
          split at set
          · cases set
            exact le_rfl
          · exact (old.bounded expiry set).trans
              (Nat.add_le_add_right (old.touched.trans passes) _)
        · intro _
          dsimp only
          rw [counts]
          split <;> omega
        · intro failedAt
          simp [Counted.key]
      · intro generation member
        simp only [List.filterMap_cons, List.filterMap_nil, Counted.failedGeneration,
          List.mem_singleton] at member
        exact ⟨entry, found, own.trans member.symm⟩

theorem Sound.completed (sound : run.Sound) (passes : run.now ≤ now) (lease : HttpPoolLease) :
    run.Advance lease.key (run.recovery.completed lease) now
      (run.recovery.counted now (.completed lease)) := by
  have cases_ := run.recovery.completed_completed lease
  rw [HttpRecovery.counted_completed]
  generalize run.recovery.completed lease = result at cases_
  cases cases_ with
  | ignored stale =>
      have ignored : ((run.recovery.current lease.key).any
          (·.generation = lease.pool.generation) && !lease.pool.http1Only) = false := by
        rcases stale with single | stale
        · rw [single, Bool.not_true, Bool.and_false]
        · rw [current_any_eq_false stale, Bool.false_and]
      rw [ignored, if_neg (by decide)]
      exact sound.quiet lease.key passes rfl sound.bounded (fun _ _ found => found)
        fun _ member => member
  | cleared entry found own multiplexed =>
      have old := sound.entries lease.key entry found
      rw [multiplexed, current_any_eq_true found own, Bool.not_false, Bool.and_self, if_pos rfl]
      refine .of_put passes le_rfl (fun _ _ found => found)
        (by rw [BTreeMap.size_replace found]; exact sound.bounded) (by simp [Counted.key])
        (.inl (HttpRecovery.current_eq_some.mpr ⟨entry, found, rfl⟩)) ?_
        (fun _ member => .inl member) (by simp [Counted.failedGeneration]) List.nodup_nil
      refine ⟨old.below, by simpa [Counted.failedGeneration] using old.unfailed, old.period,
        old.bounded, old.touched.trans passes, by rintro ⟨⟩, fun failedAt => ?_⟩
      simp [Counted.key]

/-- Each operation is a step on one route. -/
theorem Sound.perform (sound : run.Sound) (passes : run.now ≤ now) (operation : HttpOperation)
    (held : ∀ lease, operation.lease? = some lease → lease ∈ run.recovery.leases) :
    ∃ key, run.Advance key (run.recovery.perform now operation) now
      (run.recovery.counted now operation) := by
  cases operation with
  | select key built => exact ⟨key, sound.select passes key built⟩
  | retire lease built => exact ⟨lease.key, sound.retire passes (held lease rfl) built⟩
  | completed lease => exact ⟨lease.key, sound.completed passes lease⟩
  | clone lease =>
      refine ⟨lease.key, sound.quiet lease.key passes rfl sound.bounded (fun _ _ found => found) ?_⟩
      intro other member
      rcases List.mem_cons.mp member with rfl | member
      · exact held other rfl
      · exact member
  | drop lease =>
      exact ⟨lease.key, sound.quiet lease.key passes rfl sound.bounded (fun _ _ found => found)
        fun other member => List.mem_of_mem_erase member⟩

theorem Sound.step (sound : run.Sound) {later : HttpRun} (step : Step run later) :
    later.Sound := by
  cases step with
  | perform passes held =>
      obtain ⟨key, advance⟩ := sound.perform passes _ held
      exact sound.advance advance

theorem Sound.steps (sound : run.Sound) {later : HttpRun}
    (steps : Relation.ReflTransGen Step run later) : later.Sound := by
  induction steps with
  | refl => exact sound
  | tail _ step ih => exact ih.step step

theorem Reachable.sound (reachable : run.Reachable) : run.Sound := start_sound.steps reachable

end HttpRun

end ZenithRelay.Runtime
