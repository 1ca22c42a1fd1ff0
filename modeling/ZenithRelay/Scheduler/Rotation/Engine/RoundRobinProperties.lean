import ZenithRelay.Foundations.CyclicScan
import ZenithRelay.Scheduler.Rotation.Engine.RotationStateProperties

/-!
# Round robin

The position after the cursor is found by comparison with the member it names, so
successive unowned reservations run through the saved order in a cycle.
-/

set_option autoImplicit false

namespace ZenithRelay.Scheduler.Rotation

namespace RotationMember

variable {members : List RotationMember}

/-- Saved order of members: higher priority first, then smaller id. -/
def compareTurn (left right : RotationMember) : Ordering :=
  (compare right.priority left.priority).then (compare left.id right.id)

def turnOrder (members : List RotationMember) : List RotationMember :=
  members.insertionSort fun left right => compareTurn left right ≠ .gt

/-- The scan of `choose_round_robin` for what follows a priority and an id. -/
def isAfter (previous : Int × String) (member : RotationMember) : Bool :=
  member.priority < previous.1 ||
    (member.priority = previous.1 && compare member.id previous.2 == .gt)

/-- The member after the one that had its turn. -/
def nextTurn (members : List RotationMember) (previous : Option (Int × String)) :
    Option RotationMember :=
  (turnOrder members)[(previous.bind fun previous =>
    (turnOrder members).findIdx? (isAfter previous)).getD 0]?

def turn (member : RotationMember) : Int × String := (member.priority, member.id)

instance : Std.TransCmp compareTurn :=
  inferInstanceAs (Std.TransCmp (compareLex
    (fun left right => compareOn RotationMember.priority right left) (compareOn RotationMember.id)))

theorem isAfter_turn (left right : RotationMember) :
    isAfter left.turn right = true ↔ compareTurn left right = .lt := by
  unfold isAfter turn compareTurn
  rw [Ordering.then_eq_lt, compare_lt_iff_lt, compare_eq_iff_eq]
  simp only [Bool.or_eq_true, decide_eq_true_eq, Bool.and_eq_true, beq_iff_eq]
  rw [Std.OrientedCmp.gt_iff_lt]

theorem mem_turnOrder {member : RotationMember} :
    member ∈ turnOrder members ↔ member ∈ members := List.mem_insertionSort _

theorem Proper.turnOrder_nodup (proper : Proper members) : (turnOrder members).Nodup :=
  (List.perm_insertionSort _ _).nodup_iff.mpr (List.Nodup.of_map _ proper.distinct)

private theorem Proper.turnOrder_ordered (proper : Proper members) :
    (turnOrder members).Pairwise fun earlier later =>
      isAfter earlier.turn later = true ∧ isAfter later.turn earlier = false := by
  have total : Std.Total fun left right : RotationMember => compareTurn left right ≠ .gt :=
    ⟨fun left right => by
      rw [@Std.OrientedCmp.eq_swap _ compareTurn _ right left]
      cases compareTurn left right <;> simp⟩
  have transitive : IsTrans RotationMember fun left right => compareTurn left right ≠ .gt :=
    ⟨fun first second third below above => Ordering.isLE_iff_ne_gt.mp
      (Std.TransCmp.isLE_trans (Ordering.isLE_iff_ne_gt.mpr below)
        (Ordering.isLE_iff_ne_gt.mpr above))⟩
  have sorted := List.pairwise_insertionSort
    (fun left right => compareTurn left right ≠ .gt) members
  refine (sorted.and proper.turnOrder_nodup).imp_of_mem
    fun {earlier later} earlierMember laterMember related => ?_
  have strict : compareTurn earlier later = .lt := by
    cases order : compareTurn earlier later with
    | lt => rfl
    | gt => exact absurd order related.1
    | eq =>
        have same := Std.LawfulEqOrd.eq_of_compare (Ordering.then_eq_eq.mp order).2
        exact absurd (proper.identified earlier (mem_turnOrder.mp earlierMember) later
          (mem_turnOrder.mp laterMember) same) related.2
  refine ⟨(isAfter_turn earlier later).mpr strict, ?_⟩
  rw [← Bool.not_eq_true, isAfter_turn, @Std.OrientedCmp.eq_swap _ compareTurn _ later earlier,
    strict]
  nofun

/-- A turn taken after a member's is the next one in the cycle. -/
private theorem Proper.nextTurn_follows (proper : Proper members) {current next : RotationMember}
    (member : current ∈ members) (found : nextTurn members (some current.turn) = some next) :
    CyclicScan.Follows (turnOrder members) current next := by
  refine @CyclicScan.scan_follows RotationMember (turnOrder members) (fun current => isAfter current.turn)
    proper.turnOrder_ordered (fun turn => ?_) current next (mem_turnOrder.mpr member) found
  simp [isAfter, RotationMember.turn, Std.ReflOrd.compare_self]

end RotationMember

namespace RotationEngine

variable {engine : RotationEngine} {routeKey : String} {members : List RotationMember}
  {request : RotationRequest} {nowMs : Nat}

/-- Registered members that share the capacity key of one of these have its priority. -/
def OnePriority (engine : RotationEngine) (members : List RotationMember) : Prop :=
  ∀ (id : String) (runtime : CandidateRuntime), engine.candidates[id]? = some runtime →
    ∀ member ∈ members, runtime.candidate.capacityKey = member.capacityKey →
      runtime.candidate.priority = member.priority

private theorem onePriority_iff : engine.OnePriority members ↔
    ∀ runtime ∈ engine.candidates.values, ∀ member ∈ members,
      runtime.candidate.capacityKey = member.capacityKey →
        runtime.candidate.priority = member.priority :=
  ⟨fun one runtime stored =>
    let ⟨id, found⟩ := BTreeMap.mem_values_iff.mp stored
    one id runtime found,
    fun one id runtime found => one runtime (BTreeMap.mem_values_iff.mpr ⟨id, found⟩)⟩

instance decidableOnePriority (engine : RotationEngine) (members : List RotationMember) :
    Decidable (engine.OnePriority members) :=
  decidable_of_iff _ onePriority_iff.symm

/-- The turn the cursor of a route names, at the priority its member has now. -/
def cursorTurn (engine : RotationEngine) (routeKey : String) : Option (Int × String) :=
  engine.roundRobinCursor[routeKey]?.map fun cursor =>
    (((engine.candidates.values.find? fun runtime =>
      runtime.candidate.capacityKey = cursor.capacityKey).map (·.candidate.priority)).getD
      cursor.priority, cursor.candidateId)

theorem OnePriority.cursorTurn (one : engine.OnePriority members) {member : RotationMember}
    (known : member ∈ members)
    (cursor : engine.roundRobinCursor[routeKey]? =
      some ⟨member.capacityKey, member.id, member.priority⟩) :
    engine.cursorTurn routeKey = some member.turn := by
  unfold RotationEngine.cursorTurn
  rw [cursor, Option.map_some]
  cases first : engine.candidates.values.find? fun runtime =>
      runtime.candidate.capacityKey = member.capacityKey with
  | none => rfl
  | some runtime =>
      obtain ⟨id, stored⟩ := BTreeMap.mem_values_iff.mp (List.mem_of_find?_eq_some first)
      have same : runtime.candidate.capacityKey = member.capacityKey := by
        simpa using List.find?_some first
      rw [Option.map_some, Option.getD_some, one id runtime stored member known same]
      rfl

/-- Among ordinary members the engine chooses the turn after its cursor. -/
theorem Sees.nextTurn (sees : engine.Sees request nowMs members)
    (manual : engine.mode = .roundRobin) {selected : ReadyCandidate}
    (chosen : engine.chooseForRequest request (engine.readyCandidates request nowMs) =
      some selected) :
    RotationMember.nextTurn members (engine.cursorTurn request.routeKey) =
      some selected.member := by
  obtain ⟨rfl, -⟩ := sees
  unfold chooseForRequest chooseRoundRobin at chosen
  simp only [manual, reduceCtorEq, false_and, ↓reduceIte] at chosen
  have order : ((engine.readyCandidates request nowMs).insertionSort fun left right =>
      compareSavedOrder left right ≠ .gt).map (·.member) =
        RotationMember.turnOrder ((engine.readyCandidates request nowMs).map (·.member)) :=
    List.map_insertionSort _ _ _ _ fun _ _ _ _ => Iff.rfl
  unfold RotationMember.nextTurn
  rw [← order, List.getElem?_map]
  simp only [List.findIdx?_map]
  change Option.map _ ((engine.readyCandidates request nowMs).insertionSort _)[_]? = _
  exact (congrArg (Option.map (·.member)) chosen).trans rfl

/-- What an operation among steady members does to the cursor of the route, under what
it picks. -/
inductive TurnStep (engine : RotationEngine) (routeKey : String) (members : List RotationMember)
    (after : RotationEngine) : Option String → Prop where
  | same : after.roundRobinCursor[routeKey]? = engine.roundRobinCursor[routeKey]? →
      TurnStep engine routeKey members after none
  | pick (picked : RotationMember) :
      RotationMember.Proper members →
      RotationMember.nextTurn members (engine.cursorTurn routeKey) = some picked →
      after.roundRobinCursor[routeKey]? =
        some ⟨picked.capacityKey, picked.id, picked.priority⟩ →
      TurnStep engine routeKey members after (some picked.id)

private theorem takeLease_cursor (manual : engine.mode = .roundRobin) (group : List ReadyCandidate)
    {selected : ReadyCandidate}
    (found : (group.find? fun candidate => candidate.id = selected.id) = some selected)
    (runtime : CandidateRuntime) (ordinaryAlternatives : Bool) :
    (engine.takeLease request group selected runtime ordinaryAlternatives).roundRobinCursor =
      if request.owner.isNone then
        engine.roundRobinCursor.insert request.routeKey
          ⟨selected.capacityKey, selected.id, selected.priority⟩
      else engine.roundRobinCursor := by
  have mode : ∀ lease, (engine.insertLease runtime lease).mode = .roundRobin := fun _ => manual
  unfold takeLease advanceRotationState
  simp only [mode, ↓reduceIte, found]
  cases request.owner <;> rfl

private theorem takeLease_cursor_other (manual : engine.mode = .roundRobin)
    (other : ¬(request.routeKey = routeKey ∧ request.owner = none))
    (group : List ReadyCandidate) (selected : ReadyCandidate) (runtime : CandidateRuntime)
    (ordinaryAlternatives : Bool) :
    (engine.takeLease request group selected runtime
      ordinaryAlternatives).roundRobinCursor[routeKey]? = engine.roundRobinCursor[routeKey]? := by
  have mode : ∀ lease, (engine.insertLease runtime lease).mode = .roundRobin := fun _ => manual
  unfold takeLease advanceRotationState
  simp only [mode, ↓reduceIte]
  split
  next advances _ =>
    have different : routeKey ≠ request.routeKey := fun same =>
      other ⟨same.symm, Option.isNone_iff_eq_none.mp advances⟩
    change (engine.roundRobinCursor.insert request.routeKey _)[routeKey]? = _
    rw [BTreeMap.lookup_insert, if_neg different]
  next => rfl

theorem OnePriority.congr {after : RotationEngine} (one : engine.OnePriority members)
    (records : ∀ id : String,
      after.candidates[id]?.map (fun runtime =>
          (runtime.candidate.capacityKey, runtime.candidate.priority)) =
        engine.candidates[id]?.map fun runtime =>
          (runtime.candidate.capacityKey, runtime.candidate.priority)) :
    after.OnePriority members := by
  intro id runtime found member known same
  have record := records id
  rw [found, Option.map_some] at record
  obtain ⟨earlier, stored, equal⟩ := Option.map_eq_some_iff.mp record.symm
  obtain ⟨key, priority⟩ := Prod.mk.inj equal
  rw [← priority]
  exact one id earlier stored member known (key.trans same)

private theorem reserve_turnStep (reachable : engine.Reachable)
    (manual : engine.mode = .roundRobin) (request : RotationRequest) (nowMs : Nat)
    (steady : Steady routeKey members engine (.reserve request nowMs)) :
    TurnStep engine routeKey members (engine.apply (.reserve request nowMs))
      (engine.unownedPick routeKey (.reserve request nowMs)) := by
  have registered := reachable.registered
  change TurnStep engine routeKey members (engine.reserve request nowMs).1 _
  simp only [Steady, unownedPick] at steady ⊢
  rcases engine.reserve_cases request nowMs with
    ⟨error, refused⟩ | ⟨group, selected, runtime, admission, reserved⟩
  · simp only [refused, Except.toOption, Option.map_none, ite_self]
    exact .same rfl
  rw [reserved] at steady ⊢
  simp only [Except.toOption, Option.map_some] at steady ⊢
  by_cases unowned : request.routeKey = routeKey ∧ request.owner = none
  · rw [if_pos unowned] at steady ⊢
    obtain ⟨rfl, free⟩ := unowned
    have sees := steady rfl
    have everyone := admission.group_eq.trans (sees.group (.inr manual))
    have chosen := admission.chosen
    rw [everyone] at chosen ⊢
    have found := find?_readyCandidates registered (chooseForRequest_mem chosen)
    refine .pick selected.member (sees.proper reachable) (sees.nextTurn manual chosen) ?_
    rw [takeLease_cursor manual _ found, free, Option.isNone_none, if_pos rfl,
      BTreeMap.lookup_insert, if_pos rfl]
    rfl
  · rw [if_neg unowned]
    exact .same (takeLease_cursor_other manual unowned group selected runtime _)

/-- Among steady members the engine stays in round robin and keeps one priority for each
capacity key, and an operation takes one step of the cursor under what it picks. -/
private theorem apply_turnStep (reachable : engine.Reachable) (manual : engine.mode = .roundRobin)
    (one : engine.OnePriority members) {operation : EngineOperation}
    (steady : Steady routeKey members engine operation) :
    TurnStep engine routeKey members (engine.apply operation)
        (engine.unownedPick routeKey operation) ∧
      (engine.apply operation).mode = .roundRobin ∧
      (engine.apply operation).OnePriority members := by
  by_cases reserves : ∃ request nowMs, operation = .reserve request nowMs
  · obtain ⟨request, nowMs, rfl⟩ := reserves
    refine ⟨reserve_turnStep reachable manual request nowMs steady, ?_⟩
    change (engine.reserve request nowMs).1.mode = .roundRobin ∧
      (engine.reserve request nowMs).1.OnePriority members
    rcases engine.reserve_cases request nowMs with
      ⟨error, refused⟩ | ⟨group, selected, runtime, admission, reserved⟩
    · rw [refused]
      exact ⟨manual, one⟩
    · obtain ⟨rotationCredit, roundRobinCursor, same⟩ :=
        engine.takeLease_same request group selected runtime
          (engine.selectionCandidates request nowMs).2
      rw [reserved, same]
      refine ⟨manual, one.congr fun id => ?_⟩
      change (engine.candidates.insert selected.id _)[id]?.map _ = _
      rw [BTreeMap.lookup_insert]
      split
      next same => rw [same, admission.found]; rfl
      next => rfl
  · have unreserved : ∀ request nowMs, operation ≠ .reserve request nowMs :=
      fun request nowMs reserve => reserves ⟨request, nowMs, reserve⟩
    have keeps := apply_keepsRotation steady unreserved
    rw [unownedPick_silent unreserved]
    exact ⟨.same (by rw [keeps.roundRobinCursor]), keeps.mode.trans manual, one.congr keeps.records⟩

/-- A run of turns: its picks follow each other in the cycle of the saved order, and the
cursor names the last of them. -/
structure TakesTurns (engine : RotationEngine) (routeKey : String) (members : List RotationMember)
    (picks : List RotationMember) : Prop where
  manual : engine.mode = .roundRobin
  onePriority : engine.OnePriority members
  proper : picks ≠ [] → RotationMember.Proper members
  inside : ∀ picked ∈ picks, picked ∈ members
  chain : picks.IsChain (CyclicScan.Follows (RotationMember.turnOrder members))
  cursor : ∀ last ∈ picks.getLast?, engine.roundRobinCursor[routeKey]? =
    some ⟨last.capacityKey, last.id, last.priority⟩

private theorem run_takesTurns (reachable : engine.Reachable) (manual : engine.mode = .roundRobin)
    (one : engine.OnePriority members) {operations : List EngineOperation}
    (along : Execution.Along apply (Steady routeKey members) engine operations) :
    ∃ picks, engine.unownedPicks routeKey operations = picks.map (·.id) ∧
      (engine.runOperations operations).TakesTurns routeKey members picks := by
  induction operations using List.reverseRecOn with
  | nil => exact ⟨[], rfl, manual, one, (absurd rfl ·), nofun, .nil, nofun⟩
  | append_singleton earlier operation ih =>
      obtain ⟨before, steady, -⟩ := (Execution.along_append apply).mp along
      obtain ⟨picks, shown, turns⟩ := ih before
      obtain ⟨step, mode, one⟩ :=
        apply_turnStep (reachable.run earlier) turns.manual turns.onePriority steady
      have last : engine.unownedPicks routeKey (earlier ++ [operation]) =
          picks.map (·.id) ++
            ((engine.runOperations earlier).unownedPick routeKey operation).toList := by
        unfold unownedPicks at shown ⊢
        rw [Execution.trace_append, shown]
        simp [Execution.trace]
      rw [runOperations_append, last]
      generalize (engine.runOperations earlier).unownedPick routeKey operation = pick at step ⊢
      cases step with
      | same same =>
          exact ⟨picks, by simp, mode, one, turns.proper, turns.inside, turns.chain,
            fun last final => same.trans (turns.cursor last final)⟩
      | pick picked proper next cursor =>
          have known : picked ∈ members :=
            RotationMember.mem_turnOrder.mp (List.mem_of_getElem? next)
          refine ⟨picks ++ [picked], by simp, mode, one, fun _ => proper, ?_, ?_, ?_⟩
          · intro other member
            rcases List.mem_append.mp member with earlier | last
            · exact turns.inside other earlier
            · exact List.mem_singleton.mp last ▸ known
          · rw [List.isChain_append]
            refine ⟨turns.chain, .singleton picked, fun current final next' first => ?_⟩
            obtain rfl : next' = picked := by simpa using first.symm
            have member := turns.inside current (List.mem_of_getLast? final)
            rw [turns.onePriority.cursorTurn member (turns.cursor current final)] at next
            exact proper.nextTurn_follows member next
          · intro last final
            obtain rfl : last = picked := by simpa using final.symm
            exact cursor

/-- In every run among steady members: any as many unowned reservations in a row as there
are members choose each of them once, in the cycle of the saved order. -/
theorem round_robin_cycles (reachable : engine.Reachable) (manual : engine.mode = .roundRobin)
    (one : engine.OnePriority members) {operations : List EngineOperation}
    (along : Execution.Along apply (Steady routeKey members) engine operations)
    {before window after : List String}
    (split : engine.unownedPicks routeKey operations = before ++ window ++ after)
    (length : window.length = members.length) :
    (∃ offset, window = ((RotationMember.turnOrder members).map (·.id)).rotate offset) ∧
      ∀ member ∈ members, window.count member.id = 1 := by
  obtain ⟨picks, shown, turns⟩ := run_takesTurns reachable manual one along
  rw [shown] at split
  obtain ⟨within, last, rfl, rest, rfl⟩ := List.map_eq_append_iff.mp split
  obtain ⟨first, middle, rfl, rfl, rfl⟩ := List.map_eq_append_iff.mp rest
  by_cases idle : middle = []
  · subst idle
    obtain rfl := List.length_eq_zero_iff.mp length.symm
    exact ⟨⟨0, rfl⟩, nofun⟩
  have proper := turns.proper (by simp [idle])
  have chain : middle.IsChain (CyclicScan.Follows (RotationMember.turnOrder members)) :=
    turns.chain.left_of_append.right_of_append
  have inside : ∀ picked ∈ middle, picked ∈ RotationMember.turnOrder members := fun picked member =>
    RotationMember.mem_turnOrder.mpr (turns.inside picked (by simp [member]))
  have size : middle.length = (RotationMember.turnOrder members).length := by
    rw [RotationMember.turnOrder, List.length_insertionSort, ← length, List.length_map]
  obtain ⟨offset, rfl⟩ := CyclicScan.chain_eq_rotate proper.turnOrder_nodup chain inside size
  refine ⟨⟨offset, List.map_rotate _ _ _⟩, fun member known => ?_⟩
  rw [proper.count_ids (fun picked present => RotationMember.mem_turnOrder.mp (inside picked present))
    known, (List.rotate_perm _ _).count_eq,
    List.count_eq_one_of_mem proper.turnOrder_nodup (RotationMember.mem_turnOrder.mpr known)]

/-- Members b and c before a, which has the lowest priority. -/
def rankedMembers : List RotationMember :=
  [⟨"a", "a", -1, 1⟩, ⟨"b", "b", 0, 1⟩, ⟨"c", "c", 0, 1⟩]

def rankedEngine : RotationEngine :=
  RotationEngine.default.runOperations (.setMode .roundRobin ::
    rankedMembers.map fun member =>
      .upsert { RotationCandidate.create member.id "r" "m" with priority := member.priority })

/-- The turn of b comes first, and a pin to c between two turns takes none. -/
theorem round_robin_cycles_ranked : ∃ offset, ["c", "a", "b"] =
    ((RotationMember.turnOrder rankedMembers).map (·.id)).rotate offset :=
  (@round_robin_cycles rankedEngine "r" rankedMembers ⟨_, rfl⟩ (by decide +kernel)
    (by decide +kernel)
    [.reserve (.create 1 "r" "m") 0, .reserve ((RotationRequest.create 2 "r" "m").withOwner "c") 0,
      .reserve (.create 3 "r" "m") 0, .reserve (.create 4 "r" "m") 0,
      .reserve (.create 5 "r" "m") 0] (by decide +kernel)
    ["b"] ["c", "a", "b"] [] (by decide +kernel) rfl).1

end RotationEngine

end ZenithRelay.Scheduler.Rotation
