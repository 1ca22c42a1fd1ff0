import ZenithRelay.Runtime.HttpRecovery

/-!
# The steps of HTTP recovery

What selecting a pool, retiring one and completing a request leave of the routes.
-/

set_option autoImplicit false

namespace ZenithRelay

namespace BTreeMap

theorem size_filter_lt {Key Value : Type} [Ord Key] [Std.TransOrd Key] [Std.LawfulEqOrd Key]
    [DecidableEq Key] {map : BTreeMap Key Value}
    {keep : Key → Value → Bool} {key : Key} {value : Value} (found : map[key]? = some value)
    (dropped : (map.filter keep)[key]? = none) : (map.filter keep).size < map.size := by
  have same : map.filter keep = (map.erase key).filter keep := by
    refine ext_lookup fun other => ?_
    rw [lookup_filter, lookup_filter, lookup_erase]
    split
    next own => rw [own, ← lookup_filter, dropped, Option.filter_none]
    next => rfl
  calc (map.filter keep).size = ((map.erase key).filter keep).size := by rw [← same]
    _ ≤ (map.erase key).size := Std.ExtTreeMap.size_filter_le_size
    _ < (map.erase key).size + 1 := Nat.lt_succ_self _
    _ = map.size := size_erase_found found

end BTreeMap

end ZenithRelay

namespace ZenithRelay.Runtime

namespace HttpRecovery

variable {recovery : HttpRecovery} {key other : RouteKey} {built : Bool} {now : Nat}
  {entry : Observation} {lease : HttpPoolLease}

theorem current_eq_some {pool : Pool} : recovery.current key = some pool ↔
    ∃ entry, recovery.observations[key]? = some entry ∧ entry.pool = pool :=
  Option.map_eq_some_iff

theorem lookup_retained : (recovery.retained now)[key]? =
    recovery.observations[key]?.filter fun entry =>
      recovery.isHeld entry.pool || now - entry.touched < idleTtl :=
  BTreeMap.lookup_filter ..

theorem retained_found (found : (recovery.retained now)[key]? = some entry) :
    recovery.observations[key]? = some entry := by
  rw [lookup_retained] at found
  exact (Option.filter_eq_some_iff.mp found).1

theorem opens_absent (absent : (recovery.retained now)[key]? = none) :
    recovery.opens key built now = decide ((recovery.retained now).size < maxRoutes) := by
  rw [opens, absent]

theorem opens_found (found : (recovery.retained now)[key]? = some entry) :
    recovery.opens key built now = (entry.http1Until.any (· ≤ now) && built) := by
  rw [opens, found]

theorem opens_within {expiry : Nat} (found : (recovery.retained now)[key]? = some entry)
    (period : entry.http1Until = some expiry) (within : now < expiry) :
    recovery.opens key built now = false := by
  rw [opens_found found, period]
  simp [within]

/-- The outcomes of `selectAt`. -/
inductive Selected (recovery : HttpRecovery) (key : RouteKey) (built : Bool) (now : Nat) :
    HttpRecovery × Option HttpPoolLease → Prop
  | full (absent : (recovery.retained now)[key]? = none)
      (bound : maxRoutes ≤ (recovery.retained now).size)
      (closed : recovery.opens key built now = false) :
      Selected recovery key built now
        ({ recovery with observations := recovery.retained now }, none)
  | stuck (entry : Observation) (expiry : Nat)
      (found : (recovery.retained now)[key]? = some entry)
      (period : entry.http1Until = some expiry) (passed : expiry ≤ now) (unbuilt : built = false)
      (closed : recovery.opens key built now = false) :
      Selected recovery key built now
        ({ recovery with observations := recovery.retained now }, none)
  | opened (opens : recovery.opens key built now = true) :
      Selected recovery key built now
        ({ observations := (recovery.retained now).insert key
             (newObservation recovery.nextGeneration now)
           nextGeneration := recovery.nextGeneration + 1
           leases := ⟨key, ⟨recovery.nextGeneration, false⟩⟩ :: recovery.leases },
          some ⟨key, ⟨recovery.nextGeneration, false⟩⟩)
  | lent (entry : Observation) (found : (recovery.retained now)[key]? = some entry)
      (within : ∀ expiry, entry.http1Until = some expiry → now < expiry)
      (closed : recovery.opens key built now = false) :
      Selected recovery key built now
        ({ recovery with
             observations := (recovery.retained now).insert key { entry with touched := now }
             leases := ⟨key, entry.pool⟩ :: recovery.leases },
          some ⟨key, entry.pool⟩)

theorem selectAt_selected (recovery : HttpRecovery) (key : RouteKey) (built : Bool) (now : Nat) :
    recovery.Selected key built now (recovery.selectAt key built now) := by
  have present : (recovery.retained now).contains key =
      (recovery.retained now)[key]?.isSome := Std.ExtTreeMap.contains_eq_isSome_getElem?
  unfold selectAt
  dsimp only
  rw [present]
  cases found : (recovery.retained now)[key]? with
  | none =>
      have opens := @opens_absent recovery key built now found
      by_cases bound : maxRoutes ≤ (recovery.retained now).size
      · rw [if_pos (by simpa using bound)]
        exact .full found bound (by simpa [opens] using bound)
      · rw [if_neg (by simpa using bound)]
        exact .opened (by simpa [opens] using bound)
  | some entry =>
      have opens := @opens_found recovery key built now entry found
      rw [if_neg (by simp)]
      dsimp only [Option.getD_some, Option.isSome_some, if_true]
      by_cases passed : entry.http1Until.any (· ≤ now) = true
      · rw [if_pos passed]
        cases built with
        | true => exact .opened (by rw [opens, passed, Bool.true_and])
        | false =>
            obtain ⟨expiry, period, before⟩ := (Option.any_eq_true ..).mp passed
            rw [BTreeMap.insert_eq_self_of_lookup found]
            exact .stuck entry expiry found period (of_decide_eq_true before) rfl
              (by rw [opens, Bool.and_false])
      · rw [if_neg passed]
        refine .lent entry found (fun expiry period => ?_) ?_
        · rw [period] at passed
          simpa using passed
        · rw [opens, Bool.eq_false_of_not_eq_true passed, Bool.false_and]

/-- The outcomes of `retire`. -/
inductive Retired (recovery : HttpRecovery) (lease : HttpPoolLease) (built : Bool) (now : Nat) :
    HttpRecovery → Prop
  | ignored (stale : built = false ∨ ∀ entry, recovery.observations[lease.key]? = some entry →
        entry.pool.generation ≠ lease.pool.generation) :
      Retired recovery lease built now recovery
  | replaced (entry : Observation) (failures : Nat) (http1Only : Bool)
      (found : recovery.observations[lease.key]? = some entry)
      (own : entry.pool.generation = lease.pool.generation) (isBuilt : built = true)
      (counts : failures = if entry.lastFailure.any fun last => now - last < failureWindow then
        min 255 (entry.failures + 1) else 1)
      (version : http1Only = (lease.pool.http1Only || 2 ≤ failures)) :
      Retired recovery lease built now { recovery with
        observations := recovery.observations.insert lease.key {
          pool := ⟨recovery.nextGeneration, http1Only⟩
          touched := now
          failures
          lastFailure := some now
          http1Until :=
            if http1Only && entry.http1Until.isNone then some (now + http1Cooldown)
            else entry.http1Until }
        nextGeneration := recovery.nextGeneration + 1 }

theorem retire_retired (recovery : HttpRecovery) (lease : HttpPoolLease) (built : Bool)
    (now : Nat) : recovery.Retired lease built now (recovery.retire lease built now) := by
  unfold retire
  split
  next absent => exact .ignored (.inr fun entry found => by cases absent.symm.trans found)
  next entry found =>
    by_cases own : entry.pool.generation = lease.pool.generation
    · rw [if_neg (not_not_intro own)]
      cases built with
      | true => exact .replaced entry _ _ found own rfl rfl rfl
      | false => exact .ignored (.inl rfl)
    · rw [if_pos own]
      refine .ignored (.inr fun other same => ?_)
      cases found.symm.trans same
      exact own

/-- The outcomes of `completed`. -/
inductive Completed (recovery : HttpRecovery) (lease : HttpPoolLease) : HttpRecovery → Prop
  | ignored (stale : lease.pool.http1Only = true ∨
        ∀ entry, recovery.observations[lease.key]? = some entry →
          entry.pool.generation ≠ lease.pool.generation) :
      Completed recovery lease recovery
  | cleared (entry : Observation) (found : recovery.observations[lease.key]? = some entry)
      (own : entry.pool.generation = lease.pool.generation)
      (multiplexed : lease.pool.http1Only = false) :
      Completed recovery lease { recovery with
        observations := recovery.observations.insert lease.key
          { entry with failures := 0, lastFailure := none } }

theorem completed_completed (recovery : HttpRecovery) (lease : HttpPoolLease) :
    recovery.Completed lease (recovery.completed lease) := by
  unfold completed
  split
  next absent => exact .ignored (.inr fun entry found => by cases absent.symm.trans found)
  next entry found =>
    split
    next both =>
      simp only [Bool.and_eq_true, decide_eq_true_eq, Bool.not_eq_true'] at both
      exact .cleared entry found both.1 both.2
    next either =>
      simp only [Bool.and_eq_true, decide_eq_true_eq, Bool.not_eq_true', not_and,
        Bool.not_eq_false] at either
      by_cases own : entry.pool.generation = lease.pool.generation
      · exact .ignored (.inl (either own))
      · refine .ignored (.inr fun other same => ?_)
        cases found.symm.trans same
        exact own

theorem counted_select (recovery : HttpRecovery) (now : Nat) (key : RouteKey) (built : Bool) :
    recovery.counted now (.select key built) =
      if recovery.opens key built now then [.opened key recovery.nextGeneration] else [] :=
  rfl

theorem counted_retire (recovery : HttpRecovery) (now : Nat) (lease : HttpPoolLease)
    (built : Bool) : recovery.counted now (.retire lease built) =
      if built && (recovery.current lease.key).any (·.generation = lease.pool.generation) then
        [.failure lease.key lease.pool.generation now]
      else [] :=
  rfl

theorem counted_completed (recovery : HttpRecovery) (now : Nat) (lease : HttpPoolLease) :
    recovery.counted now (.completed lease) =
      if (recovery.current lease.key).any (·.generation = lease.pool.generation) &&
          !lease.pool.http1Only then
        [.completion lease.key lease.pool.generation]
      else [] :=
  rfl

end HttpRecovery

end ZenithRelay.Runtime
