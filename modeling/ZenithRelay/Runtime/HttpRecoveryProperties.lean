import ZenithRelay.Runtime.HttpRecoveryInvariant

/-!
# Faults of HTTP pools are counted once, and HTTP/1 lasts for one cooldown

A pool that failed is replaced before its failure is counted, so what is left of its
requests counts nothing. A route turns to HTTP/1 after two failures of different pools
in the window with nothing between them.
-/

set_option autoImplicit false

namespace ZenithRelay.Runtime

namespace HttpRun

variable {run : HttpRun} {recovery : HttpRecovery} {key : RouteKey} {now : Nat}
  {items : List Counted}

/-! ### Pools that were replaced -/

/-- No route will use a pool of this generation again. -/
def Gone (run : HttpRun) (generation : Nat) : Prop :=
  generation < run.recovery.nextGeneration ∧
    ∀ (key : RouteKey) (entry : Observation), run.recovery.observations[key]? = some entry →
      entry.pool.generation ≠ generation

theorem Gone.step {generation : Nat} (gone : run.Gone generation) (sound : run.Sound)
    {later : HttpRun} (step : Step run later) : later.Gone generation := by
  obtain ⟨below, unused⟩ := gone
  cases step with
  | perform passes held =>
      obtain ⟨_, advance⟩ := sound.perform passes _ held
      refine ⟨below.trans_le advance.grows, fun other entry found => ?_⟩
      rcases advance.entry_cases found with kept | ⟨_, new⟩
      · obtain ⟨before, beforeFound, pool⟩ := HttpRecovery.current_eq_some.mp kept
        rw [← pool]
        exact unused other before beforeFound
      · exact new ▸ Nat.ne_of_gt below

theorem Gone.steps {generation : Nat} (gone : run.Gone generation) (sound : run.Sound)
    {later : HttpRun} (steps : Relation.ReflTransGen Step run later) : later.Gone generation := by
  induction steps with
  | refl => exact gone
  | tail before step ih => exact ih.step (sound.steps before) step

theorem Sound.gone (sound : run.Sound) {lease : HttpPoolLease}
    (held : lease ∈ run.recovery.leases)
    (stale : lease.pool.generation ∈ run.log.filterMap Counted.failedGeneration ∨
      run.recovery.current lease.key ≠ some lease.pool) : run.Gone lease.pool.generation := by
  obtain ⟨below, agrees⟩ := sound.leases lease held
  refine ⟨below, fun key entry found own => ?_⟩
  rcases stale with failed | replaced
  · exact (sound.entries key entry found).unfailed (own ▸ failed)
  · obtain ⟨rfl, pool⟩ := agrees key entry found own
    exact replaced (HttpRecovery.current_eq_some.mpr ⟨entry, found, pool⟩)

/-- A lease whose pool failed, was replaced or was dropped changes nothing any more. -/
def Inert (recovery : HttpRecovery) (lease : HttpPoolLease) : Prop :=
  ∀ now built, recovery.retire lease built now = recovery ∧
    recovery.completed lease = recovery ∧
    recovery.counted now (.retire lease built) = [] ∧
    recovery.counted now (.completed lease) = []

theorem Gone.inert {lease : HttpPoolLease} (gone : run.Gone lease.pool.generation) :
    Inert run.recovery lease := by
  intro now built
  obtain ⟨_, unused⟩ := gone
  have uncounted := current_any_eq_false (unused lease.key)
  refine ⟨?_, ?_, ?_, ?_⟩
  · have outcome := run.recovery.retire_retired lease built now
    generalize run.recovery.retire lease built now = result at outcome
    cases outcome with
    | ignored _ => rfl
    | replaced entry _ _ found own => exact absurd own (unused lease.key entry found)
  · have outcome := run.recovery.completed_completed lease
    generalize run.recovery.completed lease = result at outcome
    cases outcome with
    | ignored _ => rfl
    | cleared entry found own => exact absurd own (unused lease.key entry found)
  · rw [HttpRecovery.counted_retire, uncounted, Bool.and_false, if_neg (by decide)]
  · rw [HttpRecovery.counted_completed, uncounted, Bool.false_and, if_neg (by decide)]

/-! ### Turning to HTTP/1 -/

def OnHttp1 (recovery : HttpRecovery) (key : RouteKey) : Prop :=
  ∃ pool, recovery.current key = some pool ∧ pool.http1Only = true

theorem OnHttp1.of_kept {before after : HttpRecovery} (single : OnHttp1 after key)
    (kept : ∀ entry, after.observations[key]? = some entry →
      before.current key = some entry.pool ∨ entry.pool.http1Only = false) :
    OnHttp1 before key := by
  obtain ⟨pool, current, version⟩ := single
  obtain ⟨entry, found, rfl⟩ := HttpRecovery.current_eq_some.mp current
  rcases kept entry found with same | other
  · exact ⟨_, same, version⟩
  · cases version.symm.trans other

private theorem select_onHttp1 {other : RouteKey} {built : Bool}
    (single : OnHttp1 (recovery.selectAt other built now).1 key) : OnHttp1 recovery key := by
  have chosen := recovery.selectAt_selected other built now
  generalize recovery.selectAt other built now = result at chosen single
  have kept (entry : Observation) (found : (recovery.retained now)[key]? = some entry) :
      recovery.current key = some entry.pool :=
    HttpRecovery.current_eq_some.mpr ⟨entry, HttpRecovery.retained_found found, rfl⟩
  cases chosen with
  | full => exact single.of_kept fun entry found => .inl (kept entry found)
  | stuck => exact single.of_kept fun entry found => .inl (kept entry found)
  | opened =>
      refine single.of_kept fun entry found => ?_
      rw [BTreeMap.lookup_insert] at found
      split at found
      · cases found
        exact .inr rfl
      · exact .inl (kept entry found)
  | lent before present =>
      refine single.of_kept fun entry found => .inl ?_
      rw [BTreeMap.lookup_insert] at found
      split at found
      next own =>
        subst own
        cases found
        exact kept before present
      · exact kept entry found

private theorem completed_onHttp1 {lease : HttpPoolLease}
    (single : OnHttp1 (recovery.completed lease) key) : OnHttp1 recovery key := by
  have outcome := recovery.completed_completed lease
  generalize recovery.completed lease = result at outcome single
  cases outcome with
  | ignored => exact single
  | cleared before present =>
      refine single.of_kept fun entry found => .inl (HttpRecovery.current_eq_some.mpr ?_)
      rw [BTreeMap.lookup_insert] at found
      split at found
      next own =>
        subst own
        cases found
        exact ⟨before, present, rfl⟩
      · exact ⟨entry, found, rfl⟩

/-- The lease is of its route's pool, and the last that was counted for the route is a
failure of another pool in the window. -/
structure SecondFault (run : HttpRun) (now : Nat) (lease : HttpPoolLease) : Prop where
  current : run.recovery.current lease.key = some lease.pool
  multiplexed : lease.pool.http1Only = false
  first : ∃ generation failedAt,
    run.log.find? (·.key = lease.key) = some (.failure lease.key generation failedAt) ∧
      generation ≠ lease.pool.generation ∧ now - failedAt < failureWindow

private theorem Sound.retire_onHttp1 (sound : run.Sound) {lease : HttpPoolLease}
    (held : lease ∈ run.recovery.leases) {built : Bool}
    (single : OnHttp1 (run.recovery.retire lease built now) key)
    (before : ¬OnHttp1 run.recovery key) :
    built = true ∧ lease.key = key ∧ run.SecondFault now lease := by
  have outcome := run.recovery.retire_retired lease built now
  generalize run.recovery.retire lease built now = result at outcome single
  cases outcome with
  | ignored => exact absurd single before
  | replaced entry failures http1Only found own isBuilt counts version =>
      obtain ⟨pool, current, set⟩ := single
      obtain ⟨after, afterFound, rfl⟩ := HttpRecovery.current_eq_some.mp current
      rw [BTreeMap.lookup_insert] at afterFound
      split at afterFound
      next ownKey =>
        subst ownKey
        cases afterFound
        have same : entry.pool = lease.pool :=
          ((sound.leases lease held).2 _ entry found own).2
        have kept : run.recovery.current lease.key = some lease.pool :=
          HttpRecovery.current_eq_some.mpr ⟨entry, found, same⟩
        have multiplexed : lease.pool.http1Only = false :=
          Bool.eq_false_of_not_eq_true fun already => before ⟨_, kept, already⟩
        have twice : 2 ≤ failures := by
          have decided : http1Only = true := set
          rw [version, multiplexed, Bool.false_or] at decided
          exact of_decide_eq_true decided
        have recent : entry.lastFailure.any (fun last => now - last < failureWindow) = true := by
          by_contra none
          rw [if_neg none] at counts
          omega
        obtain ⟨failedAt, last, window⟩ := (Option.any_eq_true ..).mp recent
        have old := sound.entries _ entry found
        obtain ⟨generation, newest⟩ := (old.last failedAt).mp last
        refine ⟨isBuilt, rfl, kept, multiplexed, generation, failedAt, newest, fun again => ?_,
          of_decide_eq_true window⟩
        refine old.unfailed (List.mem_filterMap.mpr ⟨_, List.mem_of_find?_eq_some newest, ?_⟩)
        rw [own, ← again]
        rfl
      next => exact absurd ⟨_, HttpRecovery.current_eq_some.mpr ⟨after, afterFound, rfl⟩, set⟩ before

theorem Sound.secondFault_retire (sound : run.Sound) {lease : HttpPoolLease}
    (fault : run.SecondFault now lease) :
    ∃ entry, (run.recovery.retire lease true now).observations[lease.key]? = some entry ∧
      entry.pool.http1Only = true ∧ entry.http1Until = some (now + http1Cooldown) := by
  obtain ⟨before, found, pool⟩ := HttpRecovery.current_eq_some.mp fault.current
  obtain ⟨generation, failedAt, newest, _, window⟩ := fault.first
  have old := sound.entries _ before found
  have last := (old.last failedAt).mpr ⟨generation, newest⟩
  have none : before.http1Until = none := by
    rw [← Option.not_isSome_iff_eq_none, old.period, pool, fault.multiplexed]
    decide
  have outcome := run.recovery.retire_retired lease true now
  generalize run.recovery.retire lease true now = result at outcome
  cases outcome with
  | ignored stale =>
      rcases stale with unbuilt | stale
      · cases unbuilt
      · exact absurd (congrArg Pool.generation pool) (stale before found)
  | replaced entry failures http1Only entryFound own isBuilt counts version =>
      cases entryFound.symm.trans found
      have twice : 2 ≤ failures := by
        have counted := old.failures (by rw [last]; rfl)
        rw [last, Option.any_some, if_pos (decide_eq_true window)] at counts
        omega
      have single : http1Only = true := by
        rw [version, decide_eq_true twice, Bool.or_true]
      refine ⟨_, (BTreeMap.lookup_insert ..).trans (if_pos rfl), single, ?_⟩
      dsimp only
      rw [single, none]
      rfl

/-- A route turns to HTTP/1 in exactly the steps that retire its pool within the window of
a failure of another pool of the route, nothing else having been counted for the route
since: no completed response, no new start. -/
private theorem Sound.turns_iff (sound : run.Sound) {operation : HttpOperation}
    (held : ∀ lease, operation.lease? = some lease → lease ∈ run.recovery.leases) :
    (OnHttp1 (run.next now operation).recovery key ∧ ¬OnHttp1 run.recovery key) ↔
      ∃ lease, operation = .retire lease true ∧ lease.key = key ∧ run.SecondFault now lease := by
  constructor
  · rintro ⟨single, before⟩
    cases operation with
    | select other built => exact absurd (select_onHttp1 single) before
    | completed lease => exact absurd (completed_onHttp1 single) before
    | clone | drop => exact absurd single before
    | retire lease built =>
        obtain ⟨rfl, own, fault⟩ := sound.retire_onHttp1 (held lease rfl) single before
        exact ⟨lease, rfl, own, fault⟩
  · rintro ⟨lease, rfl, rfl, fault⟩
    obtain ⟨entry, found, single, _⟩ := sound.secondFault_retire fault
    refine ⟨⟨_, HttpRecovery.current_eq_some.mpr ⟨entry, found, rfl⟩, single⟩, ?_⟩
    rintro ⟨pool, current, version⟩
    cases current.symm.trans fault.current
    cases version.symm.trans fault.multiplexed

/-! ### The time on HTTP/1 -/

/-- The route is on HTTP/1 until `expiry`. -/
def Until (recovery : HttpRecovery) (key : RouteKey) (expiry : Nat) : Prop :=
  ∃ entry, recovery.observations[key]? = some entry ∧ entry.http1Until = some expiry

private theorem Sound.until_onHttp1 (sound : run.Sound) : OnHttp1 run.recovery key ↔
    ∃ expiry, Until run.recovery key expiry := by
  constructor
  · rintro ⟨_, current, version⟩
    obtain ⟨entry, found, rfl⟩ := HttpRecovery.current_eq_some.mp current
    rw [← (sound.entries key entry found).period] at version
    obtain ⟨expiry, period⟩ := Option.isSome_iff_exists.mp version
    exact ⟨expiry, entry, found, period⟩
  · rintro ⟨expiry, entry, found, period⟩
    refine ⟨_, HttpRecovery.current_eq_some.mpr ⟨entry, found, rfl⟩, ?_⟩
    rw [← (sound.entries key entry found).period, period]
    rfl

/-- A route on HTTP/1 is not idle for long enough to be dropped. -/
theorem Sound.retained_until (sound : run.Sound) {entry : Observation} {expiry : Nat}
    (found : run.recovery.observations[key]? = some entry)
    (period : entry.http1Until = some expiry) (within : now < expiry) :
    (run.recovery.retained now)[key]? = some entry := by
  have bounded := (sound.entries key entry found).bounded expiry period
  have recent : now - entry.touched < idleTtl := by
    have shorter : http1Cooldown < idleTtl := by decide
    omega
  rw [HttpRecovery.lookup_retained, found]
  exact Option.filter_eq_some_iff.mpr ⟨rfl, by simp [recent]⟩

/-- Neither failures nor completions end the time on HTTP/1. -/
theorem until_unselected {operation : HttpOperation} {expiry : Nat}
    (until_ : Until run.recovery key expiry)
    (unselected : ∀ other built, operation ≠ .select other built) :
    Until (run.next now operation).recovery key expiry := by
  obtain ⟨entry, found, period⟩ := until_
  cases operation with
  | clone | drop => exact ⟨entry, found, period⟩
  | select other built => exact absurd rfl (unselected other built)
  | retire lease built =>
      have outcome := run.recovery.retire_retired lease built now
      show Until (run.recovery.retire lease built now) key expiry
      generalize run.recovery.retire lease built now = result at outcome
      cases outcome with
      | ignored => exact ⟨entry, found, period⟩
      | replaced before _ _ present =>
          by_cases own : key = lease.key
          · subst own
            cases present.symm.trans found
            refine ⟨_, (BTreeMap.lookup_insert ..).trans (if_pos rfl), ?_⟩
            dsimp only
            rw [period, Option.isNone_some, Bool.and_false, if_neg (by decide)]
          · exact ⟨entry, by rw [BTreeMap.lookup_insert, if_neg own, found], period⟩
  | completed lease =>
      have outcome := run.recovery.completed_completed lease
      show Until (run.recovery.completed lease) key expiry
      generalize run.recovery.completed lease = result at outcome
      cases outcome with
      | ignored => exact ⟨entry, found, period⟩
      | cleared before present =>
          by_cases own : key = lease.key
          · subst own
            cases present.symm.trans found
            exact ⟨_, (BTreeMap.lookup_insert ..).trans (if_pos rfl), period⟩
          · exact ⟨entry, by rw [BTreeMap.lookup_insert, if_neg own, found], period⟩

/-- A selection before the end keeps the route on HTTP/1. -/
private theorem Sound.until_select (sound : run.Sound) {expiry : Nat}
    (until_ : Until run.recovery key expiry) (within : now < expiry) (other : RouteKey)
    (built : Bool) : Until (run.recovery.selectAt other built now).1 key expiry := by
  obtain ⟨entry, found, period⟩ := until_
  have kept := sound.retained_until found period within
  have chosen := run.recovery.selectAt_selected other built now
  generalize run.recovery.selectAt other built now = result at chosen
  cases chosen with
  | full | stuck => exact ⟨entry, kept, period⟩
  | opened opens =>
      refine ⟨entry, ?_, period⟩
      rw [BTreeMap.lookup_insert, if_neg, kept]
      rintro rfl
      cases (HttpRecovery.opens_within kept period within).symm.trans opens
  | lent before present =>
      by_cases own : key = other
      · subst own
        cases present.symm.trans kept
        exact ⟨_, (BTreeMap.lookup_insert ..).trans (if_pos rfl), period⟩
      · exact ⟨entry, by rw [BTreeMap.lookup_insert, if_neg own, kept], period⟩

/-- A selection after the end keeps the route as it is, or the route is on HTTP/1 no more. -/
private theorem select_passed {expiry : Nat} (until_ : Until run.recovery key expiry)
    (passed : expiry ≤ now) (other : RouteKey) (built : Bool) :
    Until (run.recovery.selectAt other built now).1 key expiry ∨
      ¬OnHttp1 (run.recovery.selectAt other built now).1 key := by
  obtain ⟨entry, found, period⟩ := until_
  have either {after : HttpRecovery}
      (same : after.observations[key]? = (run.recovery.retained now)[key]?) :
      Until after key expiry ∨ ¬OnHttp1 after key := by
    cases kept : (run.recovery.retained now)[key]? with
    | some before =>
        cases (HttpRecovery.retained_found kept).symm.trans found
        exact .inl ⟨entry, same.trans kept, period⟩
    | none =>
        refine .inr ?_
        rintro ⟨pool, current, _⟩
        obtain ⟨after, stored, _⟩ := HttpRecovery.current_eq_some.mp current
        cases stored.symm.trans (same.trans kept)
  have chosen := run.recovery.selectAt_selected other built now
  generalize run.recovery.selectAt other built now = result at chosen
  cases chosen with
  | full | stuck => exact either rfl
  | opened =>
      by_cases own : key = other
      · refine .inr ?_
        rintro ⟨pool, current, version⟩
        obtain ⟨after, stored, rfl⟩ := HttpRecovery.current_eq_some.mp current
        rw [BTreeMap.lookup_insert, if_pos own] at stored
        cases stored
        cases version
      · exact either ((BTreeMap.lookup_insert ..).trans (if_neg own))
  | lent before present within =>
      by_cases own : key = other
      · subst own
        cases (HttpRecovery.retained_found present).symm.trans found
        exact absurd (within expiry period) (Nat.not_lt.mpr passed)
      · exact either ((BTreeMap.lookup_insert ..).trans (if_neg own))

theorem Sound.until_next (sound : run.Sound) {operation : HttpOperation} {expiry : Nat}
    (until_ : Until run.recovery key expiry) (within : now < expiry) :
    Until (run.next now operation).recovery key expiry := by
  by_cases selects : ∃ other built, operation = .select other built
  · obtain ⟨other, built, rfl⟩ := selects
    exact sound.until_select until_ within other built
  · exact until_unselected until_ fun other built same => selects ⟨other, built, same⟩

private theorem Sound.until_ends (sound : run.Sound) {operation : HttpOperation} {expiry : Nat}
    (until_ : Until run.recovery key expiry)
    (ends : ¬Until (run.next now operation).recovery key expiry) :
    expiry ≤ now ∧ (∃ other built, operation = .select other built) ∧
      ¬OnHttp1 (run.next now operation).recovery key := by
  have passed : expiry ≤ now := Nat.not_lt.mp fun within => ends (sound.until_next until_ within)
  by_cases selects : ∃ other built, operation = .select other built
  · obtain ⟨other, built, rfl⟩ := selects
    exact ⟨passed, ⟨other, built, rfl⟩,
      (select_passed until_ passed other built).resolve_left ends⟩
  · exact absurd (until_unselected until_ fun other built same => selects ⟨other, built, same⟩) ends

theorem Step.passes {later : HttpRun} (step : Step run later) : run.now ≤ later.now := by
  cases step with
  | perform passes => exact passes

private theorem Sound.until_steps (sound : run.Sound) {later : HttpRun}
    (steps : Relation.ReflTransGen Step run later) {expiry : Nat}
    (until_ : Until run.recovery key expiry) (within : later.now < expiry) :
    Until later.recovery key expiry := by
  induction steps with
  | refl => exact until_
  | tail before step ih =>
      have earlier := ih (Nat.lt_of_le_of_lt step.passes within)
      cases step with
      | perform => exact (sound.steps before).until_next earlier within

private theorem Sound.select_within (sound : run.Sound) {entry : Observation} {expiry : Nat}
    (found : run.recovery.observations[key]? = some entry)
    (period : entry.http1Until = some expiry) (within : now < expiry) (built : Bool) :
    (run.recovery.selectAt key built now).2 = some ⟨key, entry.pool⟩ := by
  have kept := sound.retained_until found period within
  have chosen := run.recovery.selectAt_selected key built now
  generalize run.recovery.selectAt key built now = result at chosen
  cases chosen with
  | full absent => cases absent.symm.trans kept
  | stuck before expiry present ended passed =>
      cases present.symm.trans kept
      cases ended.symm.trans period
      exact absurd passed (Nat.not_le.mpr within)
  | opened opens =>
      cases (HttpRecovery.opens_within kept period within).symm.trans opens
  | lent before present =>
      cases present.symm.trans kept
      rfl

private theorem Sound.select_expired (sound : run.Sound) {entry : Observation} {expiry : Nat}
    (found : run.recovery.observations[key]? = some entry)
    (period : entry.http1Until = some expiry) (passed : expiry ≤ now) :
    (run.recovery.selectAt key true now).2 =
        some ⟨key, ⟨run.recovery.nextGeneration, false⟩⟩ ∧
      (run.recovery.selectAt key true now).1.observations[key]? =
        some (HttpRecovery.newObservation run.recovery.nextGeneration now) := by
  have opens : run.recovery.opens key true now = true := by
    cases kept : (run.recovery.retained now)[key]? with
    | some before =>
        cases (HttpRecovery.retained_found kept).symm.trans found
        rw [HttpRecovery.opens_found kept, period]
        simpa using passed
    | none =>
        -- The route itself left the table, so there is room.
        have fewer := BTreeMap.size_filter_lt found kept
        rw [HttpRecovery.opens_absent kept]
        exact decide_eq_true (Nat.lt_of_lt_of_le fewer sound.bounded)
  have chosen := run.recovery.selectAt_selected key true now
  generalize run.recovery.selectAt key true now = result at chosen
  cases chosen with
  | full _ _ closed => cases closed.symm.trans opens
  | stuck _ _ _ _ _ _ closed => cases closed.symm.trans opens
  | lent _ _ _ closed => cases closed.symm.trans opens
  | opened => exact ⟨rfl, (BTreeMap.lookup_insert ..).trans (if_pos rfl)⟩

/-- The route stays on HTTP/1 up to a fixed time, at most one cooldown ahead, whatever fails
or completes meanwhile. A request before the end goes through an HTTP/1 pool. Only a
selection at the end or after it takes the route off HTTP/1, and the route's own gives it a
pool that no request ever had, without a history. -/
def LastsOneCooldown (run : HttpRun) (key : RouteKey) : Prop :=
  ∃ expiry, Until run.recovery key expiry ∧ expiry ≤ run.now + http1Cooldown ∧
    ∀ later, Relation.ReflTransGen Step run later →
      (later.now < expiry → Until later.recovery key expiry) ∧
      (Until later.recovery key expiry →
        (∀ now operation, ¬Until (later.next now operation).recovery key expiry →
          expiry ≤ now ∧ (∃ other built, operation = .select other built) ∧
            ¬OnHttp1 (later.next now operation).recovery key) ∧
        (∀ now built, now < expiry → ∃ pool, pool.http1Only = true ∧
          (later.recovery.selectAt key built now).2 = some ⟨key, pool⟩) ∧
        ∀ now, expiry ≤ now →
          (later.recovery.selectAt key true now).2 =
            some ⟨key, ⟨later.recovery.nextGeneration, false⟩⟩ ∧
          (later.recovery.selectAt key true now).1.observations[key]? =
            some (HttpRecovery.newObservation later.recovery.nextGeneration now))

private theorem Sound.lastsOneCooldown (sound : run.Sound) (single : OnHttp1 run.recovery key) :
    run.LastsOneCooldown key := by
  obtain ⟨expiry, entry, found, period⟩ := sound.until_onHttp1.mp single
  have old := sound.entries key entry found
  refine ⟨expiry, ⟨entry, found, period⟩, (old.bounded expiry period).trans
    (Nat.add_le_add_right old.touched _), fun later steps => ⟨fun within =>
      sound.until_steps steps ⟨entry, found, period⟩ within, fun until_ => ?_⟩⟩
  have laterSound := sound.steps steps
  obtain ⟨current, stored, still⟩ := until_
  refine ⟨fun now operation ends => laterSound.until_ends ⟨current, stored, still⟩ ends,
    fun now built within => ⟨current.pool, ?_, laterSound.select_within stored still within built⟩,
    fun now passed => laterSound.select_expired stored still passed⟩
  rw [← (laterSound.entries key current stored).period, still]
  rfl

/-! ### The table of routes -/

/-- A route whose pool is held keeps its place in the table. -/
private theorem current_of_held {pool : Pool} (current : run.recovery.current key = some pool)
    (held : ∃ lease ∈ run.recovery.leases, lease.pool = pool) (now : Nat)
    (operation : HttpOperation) :
    ∃ after, (run.next now operation).recovery.current key = some after := by
  obtain ⟨entry, found, rfl⟩ := HttpRecovery.current_eq_some.mp current
  have stored {recovery : HttpRecovery} {stored : Observation}
      (present : recovery.observations[key]? = some stored) :
      ∃ after, recovery.current key = some after :=
    ⟨_, HttpRecovery.current_eq_some.mpr ⟨stored, present, rfl⟩⟩
  have inserted {observations : BTreeMap RouteKey Observation} {other : RouteKey}
      {changed : Observation} (present : observations[key]? = some entry) :
      ∃ stored, (observations.insert other changed)[key]? = some stored := by
    rw [BTreeMap.lookup_insert]
    split
    · exact ⟨changed, rfl⟩
    · exact ⟨entry, present⟩
  cases operation with
  | clone | drop => exact stored found
  | select other built =>
      obtain ⟨lease, member, own⟩ := held
      have kept : (run.recovery.retained now)[key]? = some entry := by
        have live : run.recovery.isHeld entry.pool = true :=
          List.any_eq_true.mpr ⟨lease, member, by rw [own, decide_eq_true rfl]⟩
        rw [HttpRecovery.lookup_retained, found]
        exact Option.filter_eq_some_iff.mpr ⟨rfl, by simp [live]⟩
      have chosen := run.recovery.selectAt_selected other built now
      show ∃ after, (run.recovery.selectAt other built now).1.current key = some after
      generalize run.recovery.selectAt other built now = result at chosen
      cases chosen with
      | full | stuck => exact stored kept
      | opened => exact (inserted kept).elim fun _ present => stored present
      | lent => exact (inserted kept).elim fun _ present => stored present
  | retire lease built =>
      have outcome := run.recovery.retire_retired lease built now
      show ∃ after, (run.recovery.retire lease built now).current key = some after
      generalize run.recovery.retire lease built now = result at outcome
      cases outcome with
      | ignored => exact stored found
      | replaced => exact (inserted found).elim fun _ present => stored present
  | completed lease =>
      have outcome := run.recovery.completed_completed lease
      show ∃ after, (run.recovery.completed lease).current key = some after
      generalize run.recovery.completed lease = result at outcome
      cases outcome with
      | ignored => exact stored found
      | cleared => exact (inserted found).elim fun _ present => stored present

/-! ### Recovery by generations -/

/-- What recovery by pool generations keeps of every route. -/
structure Fenced (run : HttpRun) : Prop where
  /-- The failures of one pool count once. -/
  once : (run.log.filterMap Counted.failedGeneration).Nodup
  stale : ∀ lease ∈ run.recovery.leases,
    (lease.pool.generation ∈ run.log.filterMap Counted.failedGeneration ∨
      run.recovery.current lease.key ≠ some lease.pool) →
    ∀ later, Relation.ReflTransGen Step run later → Inert later.recovery lease
  turns : ∀ key now operation,
    (∀ lease, operation.lease? = some lease → lease ∈ run.recovery.leases) →
    ((OnHttp1 (run.next now operation).recovery key ∧ ¬OnHttp1 run.recovery key) ↔
      ∃ lease, operation = .retire lease true ∧ lease.key = key ∧ run.SecondFault now lease)
  lasts : ∀ key, OnHttp1 run.recovery key → run.LastsOneCooldown key
  starts : ∀ lease now, run.SecondFault now lease →
    Until (run.next now (.retire lease true)).recovery lease.key (now + http1Cooldown)
  kept : ∀ key pool, run.recovery.current key = some pool →
    (∃ lease ∈ run.recovery.leases, lease.pool = pool) →
    ∀ now operation, ∃ after, (run.next now operation).recovery.current key = some after
  bounded : run.recovery.observations.size ≤ maxRoutes

/-- Whatever the order of selections, failures and completions, an observation counts for
the pool it was made through only, and the table of routes keeps its bound. -/
theorem recovery_fenced (reachable : run.Reachable) : run.Fenced where
  once := reachable.sound.once
  stale lease held stale later steps :=
    ((reachable.sound.gone held stale).steps reachable.sound steps).inert
  turns key now operation held := reachable.sound.turns_iff held
  lasts key single := reachable.sound.lastsOneCooldown single
  starts lease now fault := by
    obtain ⟨entry, found, _, expiry⟩ := reachable.sound.secondFault_retire fault
    exact ⟨entry, found, expiry⟩
  kept key pool current held now operation := current_of_held current held now operation
  bounded := reachable.sound.bounded

/-- A pool is selected and fails, and the pool that replaces it fails soon after. -/
def twoFaults : HttpRun :=
  (((start.next 0 (.select ("candidate", "https://origin") true)).next 1
    (.retire ⟨("candidate", "https://origin"), ⟨0, false⟩⟩ true)).next 2
    (.select ("candidate", "https://origin") true)).next 3
    (.retire ⟨("candidate", "https://origin"), ⟨1, false⟩⟩ true)

private theorem twoFaults_reachable : twoFaults.Reachable := by
  refine (((Relation.ReflTransGen.single (Step.perform start (Nat.zero_le 0) ?_)).tail
    (Step.perform _ (Nat.zero_le 1) ?_)).tail (Step.perform _ (by decide) ?_)).tail
    (Step.perform _ (by decide) ?_)
  · rintro _ ⟨⟩
  · rintro _ ⟨⟩
    decide +kernel
  · rintro _ ⟨⟩
  · rintro _ ⟨⟩
    decide +kernel

/-- The late failure of the first pool counts nothing, and the route is on HTTP/1. -/
theorem recovery_fenced_twoFaults :
    twoFaults.recovery.counted 4
        (.retire ⟨("candidate", "https://origin"), ⟨0, false⟩⟩ true) = [] ∧
      twoFaults.LastsOneCooldown ("candidate", "https://origin") := by
  have fenced := recovery_fenced twoFaults_reachable
  refine ⟨?_, fenced.lasts _ ⟨⟨2, true⟩, by decide +kernel, rfl⟩⟩
  exact ((fenced.stale _ (by decide +kernel) (.inl (by decide +kernel))) _ .refl 4 true).2.2.1

end HttpRun

end ZenithRelay.Runtime
