import ZenithRelay.Foundations.SmoothWeighted
import ZenithRelay.Scheduler.Rotation.Engine.RotationStateProperties

/-!
# Weighted shares

As long as no credit saturates, the rotation over steady members is smooth weighted
selection, and its fairness laws are those of the engine.
-/

set_option autoImplicit false

namespace ZenithRelay.Scheduler.Rotation

open SmoothWeighted

namespace RotationMember

variable {members : List RotationMember}

instance (earned : RotationMember → Int) : Std.TransCmp (compareEarned earned) :=
  inferInstanceAs (Std.TransCmp (compareLex
    (compareLex (compareOn earned) (compareOn (·.priority)))
    fun left right => compareOn (·.id) right left))

def share (member : RotationMember) : ℤ := member.weight

/-- The choice of the rotation, from credits that do not saturate. -/
def exactChoice (members : List RotationMember) (credit : RotationMember → ℤ) :
    Option RotationMember :=
  Selection.maxBy (compareEarned fun member => credit member + member.share) members

theorem exactChoice_isPick {credit : RotationMember → ℤ} {picked : RotationMember}
    (chosen : exactChoice members credit = some picked) :
    IsPick members.toFinset share credit picked := by
  refine ⟨List.mem_toFinset.mpr (Selection.maxBy_mem chosen), fun member inside => ?_⟩
  have dominated := Selection.maxBy_dominates chosen member (List.mem_toFinset.mp inside)
  unfold compareEarned at dominated
  exact Std.isLE_compare.mp
    (Ordering.isLE_then_iff_and.mp (Ordering.isLE_then_iff_and.mp dominated).1).1

private theorem exactChoice_reads (left right : RotationMember → ℤ)
    (same : ∀ member ∈ members.toFinset, left member = right member) :
    exactChoice members left = exactChoice members right := by
  refine Selection.maxBy_congr fun first firstMember second secondMember => ?_
  simp only [compareEarned, same first (List.mem_toFinset.mpr firstMember),
    same second (List.mem_toFinset.mpr secondMember)]

private theorem share_sum (members : List RotationMember) :
    (members.map share).sum = (totalWeight members : ℤ) := by
  induction members with
  | nil => rfl
  | cons member rest ih =>
      rw [List.map_cons, List.sum_cons, ih]
      simp [totalWeight, share]

namespace Proper

variable (proper : Proper members)
include proper

theorem nodup : members.Nodup := List.Nodup.of_map _ proper.distinct

theorem positive_share : ∀ member ∈ members.toFinset, 0 < member.share := by
  intro member inside
  have weight := proper.positive member (List.mem_toFinset.mp inside)
  unfold share
  omega

theorem total_share : total members.toFinset share = totalWeight members := by
  rw [total, List.sum_toFinset _ proper.nodup, share_sum]

theorem card : members.toFinset.card = members.length := List.toFinset_card_of_nodup proper.nodup

theorem find? {member : RotationMember} (inside : member ∈ members) :
    (members.find? fun other => other.capacityKey = member.capacityKey) = some member := by
  cases found : members.find? fun other => other.capacityKey = member.capacityKey with
  | none => simpa using List.find?_eq_none.mp found member inside
  | some other =>
      have same : other.capacityKey = member.capacityKey := by simpa using List.find?_some found
      rw [List.inj_on_of_nodup_map proper.distinct (List.mem_of_find?_eq_some found) inside same]

end Proper

private theorem one_le_harmonic {count : ℕ} (positive : 0 < count) : 1 ≤ harmonic count := by
  have first : harmonic 1 ≤ harmonic count :=
    Finset.sum_le_sum_of_subset_of_nonneg (Finset.range_subset_range.mpr positive)
      fun index _ _ => inv_nonneg.mpr (Nat.cast_nonneg _)
  simpa using first

/-- Credits that fit an `i64` with the weight of their member added. -/
theorem Schedule.room (proper : Proper members)
    (fits : (totalWeight members : ℚ) * harmonic members.length ≤ i64Max)
    {picks : List RotationMember} (schedule : Schedule members.toFinset share picks)
    {member : RotationMember} (inside : member ∈ members) :
    -i64Max < creditAfter members.toFinset share picks member ∧
      creditAfter members.toFinset share picks member + member.share ≤ i64Max ∧
      (totalWeight members : ℤ) ≤ i64Max := by
  have finite := List.mem_toFinset.mpr inside
  have high := schedule.credit_le_harmonic proper.positive_share finite
  have low := schedule.neg_total_lt proper.positive_share member finite
  rw [proper.card, proper.total_share] at high
  rw [proper.total_share] at low
  have weight : member.share ≤ totalWeight members :=
    Int.ofNat_le.mpr (List.single_le_sum (by simp) _ (List.mem_map_of_mem inside))
  have grows := one_le_harmonic (List.length_pos_of_mem inside)
  have totalNonneg : (0 : ℚ) ≤ totalWeight members := Nat.cast_nonneg _
  have totalFits : (totalWeight members : ℤ) ≤ i64Max := by
    have scaled := mul_le_mul_of_nonneg_left grows totalNonneg
    have rational : (totalWeight members : ℚ) ≤ i64Max := by linarith
    exact_mod_cast rational
  refine ⟨by omega, ?_, totalFits⟩
  have weightRational : (member.share : ℚ) ≤ totalWeight members := by exact_mod_cast weight
  have sum : (creditAfter members.toFinset share picks member : ℚ) + member.share ≤ i64Max := by
    push_cast at high
    linarith
  exact_mod_cast sum

/-- The rotation from empty credit is smooth weighted selection. -/
theorem Rotates.follows (proper : Proper members)
    (fits : (totalWeight members : ℚ) * harmonic members.length ≤ i64Max)
    {picks : List RotationMember} {credits : Credits}
    (rotates : Rotates members (fun _ => 0) picks credits) :
    Follows members.toFinset share (exactChoice members) picks ∧
      ∀ member ∈ members,
        credits member.capacityKey = creditAfter members.toFinset share picks member := by
  induction rotates with
  | nil => exact ⟨.nil, fun member _ => (creditAfter_nil _ _ member).symm⟩
  | @snoc picks credits picked earlier chosen ih =>
      obtain ⟨follows, exact⟩ := ih
      have schedule := follows.schedule fun _ _ => exactChoice_isPick
      have earns : ∀ member ∈ members,
          earned credits member = creditAfter members.toFinset share picks member + member.share := by
        intro member inside
        obtain ⟨low, high, -⟩ := Schedule.room proper fits schedule inside
        have weight : 0 ≤ member.share := Int.natCast_nonneg _
        have floor : i64Min ≤ -i64Max := by decide
        rw [earned, exact member inside]
        exact saturatingAddI64_eq (by unfold share at weight high; omega) high
      have same : exactChoice members (creditAfter members.toFinset share picks) = some picked := by
        rw [← chosen, choose, exactChoice]
        refine Selection.maxBy_congr fun first firstMember second secondMember => ?_
        unfold compareEarned
        rw [earns first firstMember, earns second secondMember]
      have next := follows.snoc same
      refine ⟨next, fun member inside => ?_⟩
      rw [advance, proper.find? inside, creditAfter_snoc, proper.total_share]
      have scheduleNext := next.schedule fun _ _ => exactChoice_isPick
      obtain ⟨low, high, total⟩ := Schedule.room proper fits schedule inside
      obtain ⟨lowNext, -, -⟩ := Schedule.room proper fits scheduleNext inside
      have floor : i64Min ≤ -i64Max := by decide
      have key : member.capacityKey = picked.capacityKey ↔ member = picked :=
        ⟨List.inj_on_of_nodup_map proper.distinct inside (Selection.maxBy_mem chosen),
          congrArg _⟩
      by_cases own : member = picked
      · subst own
        rw [creditAfter_snoc, proper.total_share, if_pos rfl] at lowNext
        simp only [↓reduceIte]
        rw [earns member inside]
        exact saturatingSubI64_eq (by omega) (by omega)
      · rw [if_neg own]
        simp only [if_neg (mt key.mp own)]
        rw [earns member inside]
        omega

/-- Any total weight many picks in a row have each member as often as its weight says. -/
theorem Rotates.window {picks : List RotationMember} {credits : Credits}
    (proper : picks ≠ [] → Proper members)
    (fits : (totalWeight members : ℚ) * harmonic members.length ≤ i64Max)
    (rotates : Rotates members (fun _ => 0) picks credits) {before window after : List String}
    (split : picks.map (·.id) = before ++ window ++ after)
    (length : window.length = totalWeight members) {member : RotationMember}
    (known : member ∈ members) : window.count member.id = member.weight := by
  by_cases idle : picks = []
  · obtain rfl : window = [] := by
      have empty := split.symm
      rw [idle] at empty
      simp only [List.map_nil, List.append_eq_nil_iff] at empty
      exact empty.1.2
    have weight : member.weight ≤ totalWeight members :=
      List.single_le_sum (by simp) _ (List.mem_map_of_mem known)
    rw [← length] at weight
    exact (Nat.le_zero.mp weight).symm
  · replace proper := proper idle
    obtain ⟨follows, -⟩ := rotates.follows proper fits
    have inside := (follows.schedule fun _ _ => exactChoice_isPick).mem
    obtain ⟨within, last, rfl, rest, rfl⟩ := List.map_eq_append_iff.mp split
    obtain ⟨first, middle, rfl, rfl, rfl⟩ := List.map_eq_append_iff.mp rest
    have count := (Follows.of_append follows).count_window proper.positive_share
      (fun _ _ => exactChoice_isPick) exactChoice_reads
      (by rw [proper.total_share, ← length, List.length_map]) (List.mem_toFinset.mpr known)
    rw [proper.count_ids
      (fun picked present => List.mem_toFinset.mp (inside picked (by simp [present]))) known]
    unfold share at count
    exact_mod_cast count

end RotationMember

namespace RotationEngine

variable {engine : RotationEngine} {routeKey : String} {members : List RotationMember}
  {operations : List EngineOperation}

/-- The credits stored for a route. -/
def routeCredits (engine : RotationEngine) (routeKey : String) : List Int :=
  (engine.rotationCredit.toList.filter fun entry => entry.1.1 = routeKey).map Prod.snd

theorem mem_routeCredits {credit : Int} :
    credit ∈ engine.routeCredits routeKey ↔
      ∃ capacityKey : String, engine.rotationCredit[(routeKey, capacityKey)]? = some credit := by
  unfold routeCredits
  constructor
  · intro member
    obtain ⟨⟨⟨route, capacityKey⟩, stored⟩, inside, rfl⟩ := List.mem_map.mp member
    obtain ⟨present, same⟩ := List.mem_filter.mp inside
    obtain rfl : route = routeKey := by simpa using same
    exact ⟨capacityKey, BTreeMap.mem_toList_iff.mp present⟩
  · rintro ⟨capacityKey, found⟩
    exact List.mem_map.mpr ⟨((routeKey, capacityKey), credit),
      List.mem_filter.mpr ⟨BTreeMap.mem_toList_iff.mpr found, by simp⟩, rfl⟩

/-- The sum of the stored credits, over keys that cover them. -/
private theorem routeCredits_sum {capacityKeys : List String} (distinct : capacityKeys.Nodup)
    (covered : ∀ (capacityKey : String) (credit : Int),
      engine.rotationCredit[(routeKey, capacityKey)]? = some credit →
        capacityKey ∈ capacityKeys) :
    (engine.routeCredits routeKey).sum = (capacityKeys.map (engine.routeCredit routeKey)).sum := by
  have entries : (engine.rotationCredit.toList.filter fun entry => entry.1.1 = routeKey).Perm
      (capacityKeys.filterMap fun capacityKey =>
        engine.rotationCredit[(routeKey, capacityKey)]?.map (((routeKey, capacityKey), ·))) := by
    rw [List.perm_ext_iff_of_nodup ((BTreeMap.toList_nodup _).filter _)]
    · rintro ⟨⟨route, capacityKey⟩, credit⟩
      simp only [List.mem_filter, BTreeMap.mem_toList_iff, List.mem_filterMap,
        Option.map_eq_some_iff, decide_eq_true_eq, Prod.mk.injEq]
      constructor
      · rintro ⟨found, rfl⟩
        exact ⟨capacityKey, covered capacityKey credit found, credit, found, ⟨rfl, rfl⟩, rfl⟩
      · rintro ⟨other, -, stored, found, ⟨rfl, rfl⟩, rfl⟩
        exact ⟨found, rfl⟩
    · refine distinct.filterMap fun left right entry leftFound rightFound => ?_
      obtain ⟨credit, -, rfl⟩ := Option.map_eq_some_iff.mp leftFound
      obtain ⟨other, -, same⟩ := Option.map_eq_some_iff.mp rightFound
      simp only [Prod.mk.injEq, true_and] at same
      exact same.1.symm
  unfold routeCredits
  rw [(entries.map Prod.snd).sum_eq]
  clear covered entries distinct
  induction capacityKeys with
  | nil => rfl
  | cons capacityKey rest ih =>
      rw [List.map_cons, List.sum_cons, ← ih, routeCredit]
      cases found : engine.rotationCredit[(routeKey, capacityKey)]? <;> simp [found]

/-- Every reservation on the route is unowned. -/
def Unpinned (routeKey : String) : EngineOperation → Prop
  | .reserve request _ => request.routeKey = routeKey → request.owner = none
  | _ => True

theorem Unpinned.pinsCleanly {operation : EngineOperation} (unpinned : Unpinned routeKey operation) :
    PinsCleanly routeKey engine operation := by
  cases operation with
  | reserve request nowMs =>
      intro onRoute owner runtime pinned
      rw [unpinned onRoute] at pinned
      cases pinned
  | _ => trivial

instance decidableUnpinned (operation : EngineOperation) :
    Decidable (Unpinned routeKey operation) :=
  match operation with
  | .reserve _ _ => inferInstanceAs (Decidable (_ → _))
  | .setMode _ | .setQuotaStaleAfterMs _ | .setMaxInFlight _ | .setRecoveryPolicy _ | .upsert _ |
    .remove _ | .syncCandidateState .. | .syncCandidateRouteRate .. | .setAuth .. | .setQuota .. |
    .setQuotaIfNewer .. | .setQuotaRemaining .. | .setProviderCredits .. | .setRate .. |
    .setEnabled .. | .releaseUnstarted _ | .beginDispatch .. | .beginTransportDispatch .. |
    .settleWithLatency .. | .settle .. | .cancel .. => inferInstanceAs (Decidable True)

/-- Without pins only members that were picked among store a credit. -/
private theorem run_keys (reachable : engine.Reachable) (weighted : engine.mode = .weightedRoundRobin)
    (fresh : ∀ capacityKey : String, engine.rotationCredit[(routeKey, capacityKey)]? = none)
    (along : Execution.Along apply (fun engine operation =>
      Steady routeKey members engine operation ∧ Unpinned routeKey operation) engine operations)
    {capacityKey : String} {credit : Int}
    (found : (engine.runOperations operations).rotationCredit[(routeKey, capacityKey)]? =
      some credit) :
    engine.unownedPicks routeKey operations ≠ [] ∧
      capacityKey ∈ members.map (·.capacityKey) := by
  induction operations using List.reverseRecOn generalizing credit with
  | nil =>
      rw [runOperations_nil, fresh capacityKey] at found
      cases found
  | append_singleton earlier operation ih =>
      obtain ⟨before, ⟨steady, unpinned⟩, -⟩ := (Execution.along_append apply).mp along
      have clean := run_rotates reachable weighted
        (before.mono fun _ _ allowed => ⟨allowed.1, allowed.2.pinsCleanly⟩)
      have step := (apply_creditStep (reachable.run earlier) clean.1 steady).1
      rw [runOperations_append] at found
      unfold unownedPicks at ih ⊢
      rw [Execution.trace_append]
      generalize shown : (engine.runOperations earlier).unownedPick routeKey operation = pick at step
      cases step with
      | same same =>
          obtain ⟨picked, member⟩ := ih before ((same capacityKey).symm.trans found)
          exact ⟨by simp [picked], member⟩
      | pick picked proper chosen advanced =>
          refine ⟨by simp [Execution.trace, shown], ?_⟩
          obtain ⟨member, first, -⟩ := Option.map_eq_some_iff.mp ((advanced capacityKey).symm.trans found)
          exact List.mem_map.mpr
            ⟨member, List.mem_of_find?_eq_some first, by simpa using List.find?_some first⟩
      | pin request nowMs owner runtime shape onRoute pinned =>
          subst shape
          rw [unpinned onRoute] at pinned
          cases pinned

/-- From empty credit, in every run among steady members whose reservations on the route
are all unowned: every window of total weight many picks has each member exactly as often
as its weight says; the credits sum to zero, stay above the negated total weight and within
its harmonic excess, and are all zero after every whole number of rounds. -/
theorem weighted_shares_exact (reachable : engine.Reachable)
    (weighted : engine.mode = .weightedRoundRobin)
    (fresh : ∀ capacityKey : String, engine.rotationCredit[(routeKey, capacityKey)]? = none)
    (fits : (RotationMember.totalWeight members : ℚ) * harmonic members.length ≤ i64Max)
    (along : Execution.Along apply (fun engine operation =>
      Steady routeKey members engine operation ∧ Unpinned routeKey operation) engine operations) :
    (∀ before window after : List String,
      engine.unownedPicks routeKey operations = before ++ window ++ after →
      window.length = RotationMember.totalWeight members →
      ∀ member ∈ members, window.count member.id = member.weight) ∧
    let credits := (engine.runOperations operations).routeCredits routeKey
    credits.sum = 0 ∧
    (∀ credit ∈ credits, -(RotationMember.totalWeight members : ℤ) < credit ∧
      (credit : ℚ) ≤ RotationMember.totalWeight members * (harmonic members.length - 1)) ∧
    (RotationMember.totalWeight members ∣ (engine.unownedPicks routeKey operations).length →
      ∀ credit ∈ credits, credit = 0) := by
  obtain ⟨-, picks, shown, proper, rotates⟩ := run_rotates reachable weighted
    (along.mono fun _ _ allowed => ⟨allowed.1, allowed.2.pinsCleanly⟩)
  have keys : ∀ {capacityKey : String} {credit : Int},
      (engine.runOperations operations).rotationCredit[(routeKey, capacityKey)]? = some credit →
        engine.unownedPicks routeKey operations ≠ [] ∧
          capacityKey ∈ members.map (·.capacityKey) :=
    fun found => run_keys reachable weighted fresh along found
  have start : engine.routeCredit routeKey = fun _ => 0 := by
    funext capacityKey
    rw [routeCredit, fresh]
    rfl
  rw [start] at rotates
  rw [shown] at keys ⊢
  rw [List.length_map]
  refine ⟨fun before window after split length member known =>
    rotates.window proper fits split length known, ?_⟩
  by_cases idle : picks = []
  · subst idle
    have none : (engine.runOperations operations).routeCredits routeKey = [] := by
      refine List.eq_nil_iff_forall_not_mem.mpr fun credit present => ?_
      obtain ⟨capacityKey, found⟩ := mem_routeCredits.mp present
      exact (keys found).1 rfl
    rw [none]
    exact ⟨rfl, by simp, by simp⟩
  replace proper := proper idle
  obtain ⟨follows, exact⟩ := rotates.follows proper fits
  have schedule := follows.schedule fun _ _ => RotationMember.exactChoice_isPick
  have stored : ∀ credit ∈ (engine.runOperations operations).routeCredits routeKey,
      ∃ member ∈ members, credit = creditAfter members.toFinset RotationMember.share picks member := by
    intro credit present
    obtain ⟨capacityKey, found⟩ := mem_routeCredits.mp present
    obtain ⟨member, known, rfl⟩ := List.mem_map.mp (keys found).2
    refine ⟨member, known, ?_⟩
    rw [← exact member known, routeCredit, found]
    rfl
  refine ⟨?_, ?_, ?_⟩
  · rw [routeCredits_sum proper.distinct fun capacityKey credit found => (keys found).2, List.map_map]
    have sum := schedule.credit_sum
    rw [List.sum_toFinset _ proper.nodup] at sum
    rw [← sum]
    exact congrArg List.sum (List.map_congr_left exact)
  · intro credit present
    obtain ⟨member, known, rfl⟩ := stored credit present
    have finite := List.mem_toFinset.mpr known
    have low := schedule.neg_total_lt proper.positive_share member finite
    have high := schedule.credit_le_harmonic proper.positive_share finite
    rw [proper.total_share] at low high
    rw [proper.card] at high
    exact ⟨low, by exact_mod_cast high⟩
  · rintro ⟨blocks, length⟩ credit present
    obtain ⟨member, known, rfl⟩ := stored credit present
    have whole : (picks.length : ℤ) = blocks * total members.toFinset RotationMember.share := by
      rw [proper.total_share, length]
      push_cast
      ring
    exact schedule.credit_block proper.positive_share whole member (List.mem_toFinset.mpr known)

/-- Three members of weight one and three of weight three. -/
def unevenMembers : List RotationMember :=
  [⟨"a", "a", 0, 1⟩, ⟨"b", "b", 0, 1⟩, ⟨"c", "c", 0, 1⟩,
    ⟨"d", "d", 0, 3⟩, ⟨"e", "e", 0, 3⟩, ⟨"f", "f", 0, 3⟩]

def unevenEngine : RotationEngine :=
  RotationEngine.default.runOperations (.setMode .weightedRoundRobin ::
    unevenMembers.map fun member =>
      .upsert { RotationCandidate.create member.id "r" "m" with weight := member.weight })

/-- Eight unowned requests. -/
def unevenRun : List EngineOperation :=
  (List.range 8).map fun index => .reserve (.create index "r" "m") 0

theorem unevenRun_steady : Execution.Along apply (fun engine operation =>
    Steady "r" unevenMembers engine operation ∧ Unpinned "r" operation) unevenEngine unevenRun := by
  decide +kernel

theorem unevenEngine_reachable : unevenEngine.Reachable := ⟨_, rfl⟩

theorem unevenEngine_fresh (capacityKey : String) :
    unevenEngine.rotationCredit[("r", capacityKey)]? = none := by
  have empty : unevenEngine.rotationCredit = ∅ := rfl
  rw [empty]
  simp

theorem weighted_shares_exact_uneven :
    ((unevenEngine.runOperations unevenRun).routeCredits "r").sum = 0 :=
  (weighted_shares_exact unevenEngine_reachable (by decide +kernel) unevenEngine_fresh
    (by norm_num [unevenMembers, RotationMember.totalWeight, harmonic, Finset.sum_range_succ, i64Max])
    unevenRun_steady).2.1

/-- The third heavy member waits until its credit is the total weight. -/
theorem credit_reaches_total :
    ¬∀ (engine : RotationEngine) (routeKey : String) (members : List RotationMember)
      (operations : List EngineOperation), engine.Reachable →
      engine.mode = .weightedRoundRobin →
      (∀ capacityKey : String, engine.rotationCredit[(routeKey, capacityKey)]? = none) →
      Execution.Along apply (fun engine operation =>
        Steady routeKey members engine operation ∧ Unpinned routeKey operation) engine operations →
      ∀ credit ∈ (engine.runOperations operations).routeCredits routeKey,
        -(RotationMember.totalWeight members : ℤ) < credit ∧
          credit < RotationMember.totalWeight members := by
  intro bounded
  have below := bounded unevenEngine "r" unevenMembers unevenRun unevenEngine_reachable
    (by decide +kernel) unevenEngine_fresh unevenRun_steady
  revert below
  decide +kernel

end RotationEngine

end ZenithRelay.Scheduler.Rotation
