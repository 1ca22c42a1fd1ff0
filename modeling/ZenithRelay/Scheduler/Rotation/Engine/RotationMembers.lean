import ZenithRelay.Scheduler.Rotation.Engine.ProgressProperties

/-!
# Members of a rotation

Over members that stay the same the rotation is a function of the credits alone; a
reservation adds what a turn earns and takes the weights off the member it picks.
-/

set_option autoImplicit false

namespace ZenithRelay.Scheduler.Rotation

/-- What weighted rotation reads of a ready member. -/
structure RotationMember where
  id : String
  capacityKey : String
  priority : Int
  weight : Nat
  deriving DecidableEq, Repr

def ReadyCandidate.member (candidate : ReadyCandidate) : RotationMember :=
  ⟨candidate.id, candidate.capacityKey, candidate.priority, candidate.weight⟩

namespace RotationMember

/-- The credits of one route, by capacity key. -/
abbrev Credits := String → Int

def totalWeight (members : List RotationMember) : Nat := (members.map (·.weight)).sum

def earned (credits : Credits) (member : RotationMember) : Int :=
  saturatingAddI64 (credits member.capacityKey) member.weight

/-- The order of `choose_weighted` between ordinary members, by the credit they earn. -/
def compareEarned (earned : RotationMember → Int) (left right : RotationMember) : Ordering :=
  ((compare (earned left) (earned right)).then (compare left.priority right.priority)).then
    (compare right.id left.id)

def choose (members : List RotationMember) (credits : Credits) : Option RotationMember :=
  Selection.maxBy (compareEarned (earned credits)) members

def advance (members : List RotationMember) (credits : Credits) (picked : RotationMember) :
    Credits := fun capacityKey =>
  match members.find? fun member => member.capacityKey = capacityKey with
  | none => 0
  | some member =>
    if capacityKey = picked.capacityKey then
      saturatingSubI64 (earned credits member) (totalWeight members)
    else earned credits member

/-- The picks of a rotation that starts with `start`, and the credits they leave. -/
inductive Rotates (members : List RotationMember) (start : Credits) :
    List RotationMember → Credits → Prop where
  | nil : Rotates members start [] start
  | snoc {picks : List RotationMember} {credits : Credits} {picked : RotationMember} :
      Rotates members start picks credits → choose members credits = some picked →
      Rotates members start (picks ++ [picked]) (advance members credits picked)

/-- Equally many picks from the same credits are the same picks. -/
theorem Rotates.unique {members : List RotationMember} {start : Credits}
    {left right : List RotationMember} {leftCredits rightCredits : Credits}
    (leftRotates : Rotates members start left leftCredits)
    (rightRotates : Rotates members start right rightCredits)
    (length : left.length = right.length) : left = right ∧ leftCredits = rightCredits := by
  induction leftRotates generalizing right rightCredits with
  | nil =>
      obtain rfl := List.length_eq_zero_iff.mp length.symm
      generalize none : ([] : List RotationMember) = picks at rightRotates
      cases rightRotates with
      | nil => exact ⟨none, rfl⟩
      | snoc => simp at none
  | snoc _ chosen ih =>
      cases rightRotates with
      | nil => simp at length
      | snoc earlier chosenRight =>
          obtain ⟨rfl, rfl⟩ := ih earlier (by simpa using length)
          rw [chosen] at chosenRight
          cases chosenRight
          exact ⟨rfl, rfl⟩

/-- What the ready members of a reachable engine are to each other. -/
structure Proper (members : List RotationMember) : Prop where
  distinct : (members.map (·.capacityKey)).Nodup
  positive : ∀ member ∈ members, 1 ≤ member.weight
  identified : ∀ left ∈ members, ∀ right ∈ members, left.id = right.id → left = right

/-- Picks by id are picks by member. -/
theorem Proper.count_ids {members : List RotationMember} (proper : Proper members)
    {picks : List RotationMember} (inside : ∀ picked ∈ picks, picked ∈ members)
    {member : RotationMember} (known : member ∈ members) :
    (picks.map (·.id)).count member.id = picks.count member := by
  rw [List.count, List.countP_map, List.count]
  refine List.countP_congr fun picked within => ?_
  simp only [Function.comp_apply, beq_iff_eq]
  exact ⟨proper.identified picked (inside picked within) member known, congrArg _⟩

end RotationMember

namespace RotationEngine

variable {engine : RotationEngine} {routeKey : String} {candidates : List ReadyCandidate}

theorem earnCredits_lookup_other {other : String} (different : other ≠ routeKey)
    (capacityKey : String) :
    (engine.earnCredits routeKey candidates)[(other, capacityKey)]? =
      engine.rotationCredit[(other, capacityKey)]? := by
  have fold : ∀ credit : BTreeMap (String × String) Int,
      (candidates.foldl (fun credit candidate =>
        credit.insert (creditKey routeKey candidate)
          (saturatingAddI64 (credit[creditKey routeKey candidate]?.getD 0) candidate.weight))
        credit)[(other, capacityKey)]? = credit[(other, capacityKey)]? := by
    induction candidates with
    | nil => intro credit; rfl
    | cons candidate rest ih =>
        intro credit
        rw [List.foldl_cons, ih, BTreeMap.lookup_insert, if_neg]
        simp [creditKey, different]
  unfold earnCredits
  rw [fold, BTreeMap.lookup_filter]
  cases engine.rotationCredit[(other, capacityKey)]? with
  | none => rfl
  | some credit => simp [different]

/-- Each member earns its weight on top of what it has. -/
private theorem earned_lookup (distinct : (candidates.map (·.capacityKey)).Nodup) (capacityKey : String)
    (credit : BTreeMap (String × String) Int) :
    (candidates.foldl (fun credit candidate =>
      credit.insert (creditKey routeKey candidate)
        (saturatingAddI64 (credit[creditKey routeKey candidate]?.getD 0) candidate.weight))
      credit)[(routeKey, capacityKey)]? =
        match candidates.find? fun candidate => candidate.capacityKey = capacityKey with
        | some candidate =>
          some (saturatingAddI64 (credit[(routeKey, capacityKey)]?.getD 0) candidate.weight)
        | none => credit[(routeKey, capacityKey)]? := by
  induction candidates generalizing credit with
  | nil => rfl
  | cons candidate rest ih =>
      obtain ⟨absent, distinct⟩ := List.nodup_cons.mp distinct
      rw [List.foldl_cons, ih distinct]
      by_cases own : candidate.capacityKey = capacityKey
      · have last : (rest.find? fun candidate => candidate.capacityKey = capacityKey) = none := by
          rw [List.find?_eq_none]
          intro other member same
          have shared : other.capacityKey = candidate.capacityKey :=
            (of_decide_eq_true same).trans own.symm
          exact absent (List.mem_map.mpr ⟨other, member, shared⟩)
        simp [last, own, creditKey]
      · have kept : (credit.insert (creditKey routeKey candidate)
            (saturatingAddI64 (credit[creditKey routeKey candidate]?.getD 0)
              candidate.weight))[(routeKey, capacityKey)]? = credit[(routeKey, capacityKey)]? := by
          rw [BTreeMap.lookup_insert, if_neg]
          simp [creditKey, Ne.symm own]
        simp [own, kept]

/-- On the route itself only the members keep a credit, and each earns its weight. -/
private theorem earnCredits_lookup (distinct : (candidates.map (·.capacityKey)).Nodup)
    (capacityKey : String) :
    (engine.earnCredits routeKey candidates)[(routeKey, capacityKey)]? =
      (candidates.find? fun candidate => candidate.capacityKey = capacityKey).map fun candidate =>
        saturatingAddI64 (engine.routeCredit routeKey capacityKey) candidate.weight := by
  unfold earnCredits
  rw [earned_lookup distinct, BTreeMap.lookup_filter]
  cases found : candidates.find? fun candidate => candidate.capacityKey = capacityKey with
  | none =>
      have gone : (candidates.any fun candidate => candidate.capacityKey = capacityKey) = false := by
        simpa using found
      cases engine.rotationCredit[(routeKey, capacityKey)]? with
      | none => rfl
      | some credit => simp [gone]
  | some candidate =>
      have present : (candidates.any fun candidate => candidate.capacityKey = capacityKey) = true :=
        List.any_eq_true.mpr
          ⟨candidate, List.mem_of_find?_eq_some found, by simpa using List.find?_some found⟩
      unfold routeCredit
      cases engine.rotationCredit[(routeKey, capacityKey)]? with
      | none => rfl
      | some credit => simp [present, Option.filter_some]

variable {candidateId : String} {advanceRoundRobinCursor : Bool}

theorem advanceRotationState_lookup_other (weighted : engine.mode ≠ .roundRobin) {other : String}
    (different : other ≠ routeKey) (capacityKey : String) :
    (engine.advanceRotationState routeKey candidates candidateId
      advanceRoundRobinCursor).rotationCredit[(other, capacityKey)]? =
        engine.rotationCredit[(other, capacityKey)]? := by
  unfold advanceRotationState
  dsimp only
  rw [if_neg weighted]
  split
  · exact earnCredits_lookup_other different capacityKey
  · rw [BTreeMap.lookup_modify, if_neg (by simp [creditKey, different])]
    exact earnCredits_lookup_other different capacityKey

/-- The selected member pays the total weight, the others keep what they earn, and
the credit of everyone outside the group is gone. -/
theorem advanceRotationState_lookup (weighted : engine.mode ≠ .roundRobin)
    (distinct : (candidates.map (·.capacityKey)).Nodup) {selected : ReadyCandidate}
    (found : (candidates.find? fun candidate => candidate.id = candidateId) = some selected)
    (capacityKey : String) :
    (engine.advanceRotationState routeKey candidates candidateId
      advanceRoundRobinCursor).rotationCredit[(routeKey, capacityKey)]? =
        (candidates.find? fun candidate => candidate.capacityKey = capacityKey).map
          fun candidate =>
            let earned := saturatingAddI64 (engine.routeCredit routeKey capacityKey) candidate.weight
            if capacityKey = selected.capacityKey then
              saturatingSubI64 earned (candidates.map fun candidate => (candidate.weight : Int)).sum
            else earned := by
  unfold advanceRotationState
  dsimp only
  rw [if_neg weighted, found]
  dsimp only
  rw [BTreeMap.lookup_modify, earnCredits_lookup distinct]
  by_cases own : capacityKey = selected.capacityKey
  · simp [own, creditKey, Function.comp_def]
  · simp [own, creditKey]

/-- One candidate for each capacity key. -/
theorem readyCandidates_distinct (engine : RotationEngine) (request : RotationRequest)
    (nowMs : Nat) : ((engine.readyCandidates request nowMs).map (·.capacityKey)).Nodup :=
  BTreeMap.values_firstByKey_nodup _ _

theorem readyCandidate_shape {request : RotationRequest} {nowMs : Nat}
    {runtime : CandidateRuntime} {candidate : ReadyCandidate}
    (seen : engine.readyCandidate request nowMs runtime = some candidate) :
    candidate.weight = if engine.mode = .roundRobin then 1 else runtime.candidate.weight := by
  unfold readyCandidate at seen
  dsimp only at seen
  split at seen
  next => cases seen; rfl
  next => cases seen

theorem readyCandidates_unique (registered : Registered engine) {request : RotationRequest}
    {nowMs : Nat} {left right : ReadyCandidate}
    (leftMember : left ∈ engine.readyCandidates request nowMs)
    (rightMember : right ∈ engine.readyCandidates request nowMs) (same : left.id = right.id) :
    left = right := by
  obtain ⟨runtime, stored, seen, -⟩ := (mem_readyCandidates_iff registered).mp leftMember
  obtain ⟨other, storedOther, seenOther, -⟩ := (mem_readyCandidates_iff registered).mp rightMember
  rw [same, storedOther] at stored
  cases stored
  rw [seen] at seenOther
  cases seenOther
  rfl

theorem find?_readyCandidates (registered : Registered engine) {request : RotationRequest}
    {nowMs : Nat} {selected : ReadyCandidate}
    (member : selected ∈ engine.readyCandidates request nowMs) :
    ((engine.readyCandidates request nowMs).find? fun candidate => candidate.id = selected.id) =
      some selected := by
  cases found : (engine.readyCandidates request nowMs).find? fun candidate =>
      candidate.id = selected.id with
  | none => simpa using List.find?_eq_none.mp found selected member
  | some candidate =>
      rw [readyCandidates_unique registered (List.mem_of_find?_eq_some found) member
        (by simpa using List.find?_some found)]

/-- Every stored weight was validated. -/
def Weighted (engine : RotationEngine) : Prop :=
  ∀ (id : String) (runtime : CandidateRuntime), engine.candidates[id]? = some runtime →
    1 ≤ runtime.candidate.weight

theorem Weighted.congr {after : RotationEngine} (weighted : engine.Weighted)
    (same : ∀ id : String, after.candidates[id]?.map (·.candidate.weight) =
      engine.candidates[id]?.map (·.candidate.weight)) : after.Weighted := by
  intro id runtime found
  have weight := same id
  rw [found, Option.map_some] at weight
  obtain ⟨earlier, stored, equal⟩ := Option.map_eq_some_iff.mp weight.symm
  exact equal ▸ weighted id earlier stored

end RotationEngine

theorem Transition.weighted {engine after : RotationEngine} {event : EngineEvent}
    (transition : Transition engine event after) (weighted : engine.Weighted) :
    after.Weighted := by
  have dropped : ∀ leaseId lease, (engine.dropLease leaseId lease).Weighted := by
    intro leaseId lease
    refine weighted.congr fun id => ?_
    unfold RotationEngine.dropLease RotationEngine.releaseCapacity
    dsimp only
    split
    next =>
      rw [BTreeMap.lookup_modify]
      split
      next => rw [Option.map_map]; rfl
      next => rfl
    next => rfl
  cases transition with
  | configure | recoveryPolicy | dispatch => exact weighted
  | edit candidateId edit quotaRevisions keeps =>
      refine weighted.congr fun id => ?_
      change (engine.candidates.modify candidateId _)[id]?.map _ = _
      rw [BTreeMap.lookup_modify]
      split
      next =>
        rw [Option.map_map]
        exact congrArg (Option.map · _) (funext fun runtime => (keeps runtime.candidate).weight)
      next => rfl
  | install candidate valid absent room =>
      rw [RotationEngine.recomputeCapacityLimit_same]
      intro id runtime found
      change (engine.candidates.insert candidate.id _)[id]? = some runtime at found
      rw [BTreeMap.lookup_insert] at found
      split at found
      next => cases found; exact (RotationCandidate.validate_weight valid).1
      next => exact weighted id runtime found
  | replace candidate previous valid present =>
      rw [RotationEngine.recomputeDerived_same]
      intro id runtime found
      change (engine.candidates.insert candidate.id _)[id]? = some runtime at found
      rw [BTreeMap.lookup_insert] at found
      split at found
      next => cases found; exact (RotationCandidate.validate_weight valid).1
      next => exact weighted id runtime found
  | remove candidateId previous present =>
      rw [RotationEngine.eraseCandidate_same]
      intro id runtime found
      change (engine.candidates.erase candidateId)[id]? = some runtime at found
      rw [BTreeMap.lookup_erase] at found
      split at found
      next => cases found
      next => exact weighted id runtime found
  | @reserve request nowMs group selected runtime admission =>
      obtain ⟨rotationCredit, roundRobinCursor, same⟩ :=
        engine.takeLease_same request group selected runtime
          (engine.selectionCandidates request nowMs).2
      rw [same]
      refine weighted.congr fun id => ?_
      change (engine.candidates.insert selected.id _)[id]?.map _ = _
      rw [BTreeMap.lookup_insert]
      split
      next same => rw [same, admission.found]; rfl
      next => rfl
  | release leaseId lease => exact dropped leaseId lease
  | settle leaseId settlement =>
      obtain ⟨circuits, healthRecords, recoveryCredits, successes, same⟩ :=
        engine.settleLease_same leaseId settlement.lease settlement.health settlement.nowMs
          settlement.firstOutputLatencyMs
      rw [same]
      exact dropped leaseId settlement.lease

namespace RotationEngine

variable {engine : RotationEngine} {routeKey : String}

theorem Reachable.weighted (reachable : engine.Reachable) : engine.Weighted :=
  Execution.Reachable.invariant Weighted reachable
    (fun _ _ found => by simp [RotationEngine.default] at found)
    fun engine operation => (engine.apply_transition operation).weighted

variable {members : List RotationMember} {request : RotationRequest} {nowMs : Nat}

/-- Ready for the request are exactly these members, all of them for ordinary work. -/
def Sees (engine : RotationEngine) (request : RotationRequest) (nowMs : Nat)
    (members : List RotationMember) : Prop :=
  (engine.readyCandidates request nowMs).map (·.member) = members ∧
    ∀ candidate ∈ engine.readyCandidates request nowMs, candidate.recovery = false

theorem Sees.proper (sees : engine.Sees request nowMs members) (reachable : engine.Reachable) :
    RotationMember.Proper members := by
  obtain ⟨rfl, -⟩ := sees
  refine ⟨?_, fun member inside => ?_, fun left leftInside right rightInside same => ?_⟩
  · rw [List.map_map]
    exact engine.readyCandidates_distinct request nowMs
  · obtain ⟨candidate, seen, rfl⟩ := List.mem_map.mp inside
    obtain ⟨runtime, stored, shape, -⟩ :=
      (mem_readyCandidates_iff reachable.registered).mp seen
    change 1 ≤ candidate.weight
    rw [readyCandidate_shape shape]
    split
    next => exact Nat.le_refl 1
    next => exact reachable.weighted _ runtime stored
  · obtain ⟨candidate, seen, rfl⟩ := List.mem_map.mp leftInside
    obtain ⟨other, seenOther, rfl⟩ := List.mem_map.mp rightInside
    rw [readyCandidates_unique reachable.registered seen seenOther same]

/-- Both manual rotations select among everything eligible, or take one due trial. -/
theorem selectionGroup_rotating
    (rotating : engine.mode = .weightedRoundRobin ∨ engine.mode = .roundRobin)
    (ready : List ReadyCandidate) :
    engine.selectionGroup ready request nowMs =
      match Selection.minBy compareDue (ready.filter (·.recovery)) with
      | some recovery => [recovery]
      | none => ready := by
  unfold selectionGroup
  rcases rotating with mode | mode <;>
    cases Selection.minBy compareDue (ready.filter (·.recovery)) <;> simp [mode]

theorem Sees.group (sees : engine.Sees request nowMs members)
    (rotating : engine.mode = .weightedRoundRobin ∨ engine.mode = .roundRobin) :
    engine.selectionGroup (engine.selectionCandidates request nowMs).1 request nowMs =
      engine.readyCandidates request nowMs := by
  have eligible : (engine.selectionCandidates request nowMs).1 =
      engine.readyCandidates request nowMs := by
    unfold selectionCandidates
    exact List.filter_eq_self.mpr fun candidate member => by simp [sees.2 candidate member]
  have trials : (engine.readyCandidates request nowMs).filter (·.recovery) = [] :=
    List.filter_eq_nil_iff.mpr fun candidate member => by simp [sees.2 candidate member]
  rw [selectionGroup_rotating rotating, eligible, trials]
  rfl

/-- Among ordinary members the engine chooses as the rotation over their credits does. -/
theorem Sees.chosen (sees : engine.Sees request nowMs members)
    (weighted : engine.mode = .weightedRoundRobin) {selected : ReadyCandidate}
    (chosen : engine.chooseForRequest request (engine.readyCandidates request nowMs) =
      some selected) :
    RotationMember.choose members (engine.routeCredit request.routeKey) = some selected.member := by
  obtain ⟨rfl, ordinary⟩ := sees
  have member := chooseForRequest_mem chosen
  have mixed : (engine.readyCandidates request nowMs).all (·.recovery) = false :=
    List.all_eq_false.mpr ⟨selected, member, by simp [ordinary selected member]⟩
  unfold chooseForRequest chooseWeighted at chosen
  simp only [weighted, reduceCtorEq, false_and, ↓reduceIte, mixed, Bool.false_eq_true] at chosen
  have view : engine.compareWeighted request.routeKey = fun left right =>
      RotationMember.compareEarned
        (RotationMember.earned (engine.routeCredit request.routeKey)) left.member right.member := by
    funext left right
    unfold compareWeighted
    simp only [weighted, ↓reduceIte]
    rfl
  rw [view] at chosen
  rw [RotationMember.choose, ← Selection.maxBy_map, chosen]
  rfl

private theorem totalWeight_members (candidates : List ReadyCandidate) :
    (RotationMember.totalWeight (candidates.map (·.member)) : Int) =
      (candidates.map fun candidate => (candidate.weight : Int)).sum := by
  induction candidates with
  | nil => rfl
  | cons candidate rest ih =>
      rw [List.map_cons, List.map_cons, List.sum_cons, ← ih]
      simp [RotationMember.totalWeight, ReadyCandidate.member]

/-- The credits an unowned reservation leaves are those of one round of the rotation. -/
theorem Sees.advanced (sees : engine.Sees request nowMs members) (registered : Registered engine)
    (weighted : engine.mode = .weightedRoundRobin) {selected : ReadyCandidate}
    (member : selected ∈ engine.readyCandidates request nowMs) (runtime : CandidateRuntime)
    (ordinaryAlternatives : Bool) (capacityKey : String) :
    (engine.takeLease request (engine.readyCandidates request nowMs) selected runtime
      ordinaryAlternatives).rotationCredit[(request.routeKey, capacityKey)]? =
        (members.find? fun member => member.capacityKey = capacityKey).map fun _ =>
          RotationMember.advance members (engine.routeCredit request.routeKey) selected.member
            capacityKey := by
  obtain ⟨rfl, -⟩ := sees
  have found := find?_readyCandidates registered member
  have distinct := engine.readyCandidates_distinct request nowMs
  have manual : ∀ lease, (engine.insertLease runtime lease).mode ≠ .roundRobin := fun lease => by
    change engine.mode ≠ .roundRobin
    simp [weighted]
  rw [takeLease, advanceRotationState_lookup (manual _) distinct found]
  unfold RotationMember.advance
  rw [totalWeight_members, List.find?_map]
  change _ = Option.map _ (((engine.readyCandidates request nowMs).find? fun candidate =>
    candidate.capacityKey = capacityKey).map (·.member))
  cases first : (engine.readyCandidates request nowMs).find? fun candidate =>
      candidate.capacityKey = capacityKey with
  | none => rfl
  | some candidate =>
      have own : candidate.capacityKey = capacityKey := by simpa using List.find?_some first
      simp only [Function.comp_def, ReadyCandidate.member, first, Option.map_some,
        RotationMember.earned, own]
      rfl

/-- Nobody but its owner is ready for a pinned request. -/
private theorem candidateAvailability_owner {owner candidateId : String} {recovery : Bool}
    (pinned : request.owner = some owner)
    (ready : engine.candidateAvailability request candidateId nowMs = .ready recovery) :
    candidateId = owner := by
  by_contra different
  unfold candidateAvailability at ready
  rw [pinned] at ready
  split at ready
  next => cases ready
  split at ready
  next => cases ready
  rw [if_pos (by simpa using Ne.symm different)] at ready
  cases ready

/-- A pinned reservation selects from its owner alone. -/
theorem pinned_group {owner : String} {group : List ReadyCandidate}
    {selected : ReadyCandidate} {runtime : CandidateRuntime} (registered : Registered engine)
    (weighted : engine.mode = .weightedRoundRobin) (pinned : request.owner = some owner)
    (admission : Admission engine request nowMs group selected runtime) :
    selected.id = owner ∧ group = [selected] := by
  have inGroup := chooseForRequest_mem admission.chosen
  have narrows := engine.selectionGroup_narrows (engine.selectionCandidates request nowMs).1
    request nowMs
  have owned : ∀ candidate ∈ (engine.selectionCandidates request nowMs).1, candidate.id = owner :=
    fun candidate member => candidateAvailability_owner pinned
      (readyCandidates_ready registered (selectionCandidates_mem member).1)
  have member : selected ∈ (engine.selectionCandidates request nowMs).1 :=
    narrows.subset (admission.group_eq ▸ inGroup)
  refine ⟨owned selected member, ?_⟩
  rw [admission.group_eq, selectionGroup_rotating (.inl weighted)] at inGroup ⊢
  split at inGroup
  next => rw [List.mem_singleton.mp inGroup]
  next =>
    have distinct : (engine.selectionCandidates request nowMs).1.Nodup :=
      (List.Nodup.of_map _ (engine.readyCandidates_distinct request nowMs)).filter _
    have alone := List.eq_replicate_of_mem fun candidate inside =>
      readyCandidates_unique registered (selectionCandidates_mem inside).1
        (selectionCandidates_mem member).1 ((owned candidate inside).trans (owned selected member).symm)
    rw [alone] at distinct member ⊢
    have single := List.nodup_replicate.mp distinct
    have filled := (List.mem_replicate.mp member).1
    rw [show (engine.selectionCandidates request nowMs).1.length = 1 by omega]
    rfl

/-- A pinned reservation gives its owner the weight and takes it back, and drops the
credit of everyone else on the route. -/
theorem pinned_advanced {owner : String} {group : List ReadyCandidate}
    {selected : ReadyCandidate} {runtime : CandidateRuntime} (registered : Registered engine)
    (weighted : engine.mode = .weightedRoundRobin) (pinned : request.owner = some owner)
    (admission : Admission engine request nowMs group selected runtime)
    (ordinaryAlternatives : Bool) (capacityKey : String) :
    (engine.takeLease request group selected runtime
      ordinaryAlternatives).rotationCredit[(request.routeKey, capacityKey)]? =
        if capacityKey = runtime.candidate.capacityKey then
          some (saturatingSubI64
            (saturatingAddI64 (engine.routeCredit request.routeKey capacityKey)
              runtime.candidate.weight) runtime.candidate.weight)
        else none := by
  have narrows := engine.selectionGroup_narrows (engine.selectionCandidates request nowMs).1
    request nowMs
  have member := selectionCandidates_mem
    (narrows.subset (admission.group_eq ▸ chooseForRequest_mem admission.chosen))
  obtain ⟨own, stored, seen, -⟩ := (mem_readyCandidates_iff registered).mp member.1
  rw [admission.found] at stored
  cases stored
  have key : selected.capacityKey = runtime.candidate.capacityKey := (readyCandidate_spec seen).2.1
  have weight : selected.weight = runtime.candidate.weight := by
    rw [readyCandidate_shape seen, if_neg (by simp [weighted])]
  have manual : ∀ lease, (engine.insertLease runtime lease).mode ≠ .roundRobin := fun lease => by
    change engine.mode ≠ .roundRobin
    simp [weighted]
  have credit : ∀ lease, (engine.insertLease runtime lease).routeCredit request.routeKey =
      engine.routeCredit request.routeKey := fun _ => rfl
  obtain ⟨-, rfl⟩ := pinned_group registered weighted pinned admission
  have found : ([selected].find? fun candidate => candidate.id = selected.id) = some selected := by
    simp
  have distinct : ([selected].map (·.capacityKey)).Nodup := List.nodup_singleton _
  rw [takeLease, advanceRotationState_lookup (manual _) distinct found, credit]
  by_cases same : selected.capacityKey = capacityKey
  · simp [same, ← key, weight]
  · simp [same, ← key, Ne.symm same]

end RotationEngine

end ZenithRelay.Scheduler.Rotation
