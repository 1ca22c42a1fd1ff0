import ZenithRelay.Gateway.Request.LegacyCallIds

/-!
# Links of repaired histories

The scan pairs every call with one later output that identifies it. The edits make the
two share an id, and a second repair finds nothing to change.
-/

set_option autoImplicit false

namespace ZenithRelay.Gateway.Request

/-- A call with the output that was found for it and the id that both get. -/
structure Answer where
  call : PendingLegacyResponsesCall
  output : Nat
  outputLink : LegacyLink
  callId : String

namespace Answer

def edits (answer : Answer) : List (Nat × String) :=
  (if answer.call.link.callId.isSome then [] else [(answer.call.index, answer.callId)]) ++
    if answer.outputLink.callId = some answer.callId then [] else [(answer.output, answer.callId)]

end Answer

/-! ### One item -/

/-- What an item does to the plan: an output that is linked leaves an answer. -/
inductive Advances (scan : LegacyRepairScan) (index : Nat) :
    LegacyEntry → LegacyRepairScan → Option Answer → Prop
  | ignored : Advances scan index .ignored scan none
  | call {link : LegacyLink} (fresh : ∀ callId, link.callId = some callId → callId ∉ scan.assigned) :
      Advances scan index (.call link)
        { scan with
          assigned := link.callId.toList ++ scan.assigned
          pending := scan.pending ++ [⟨index, link⟩] } none
  | orphan {link : LegacyLink}
      (unknown : ∀ call ∈ scan.pending, link.identifies call.link = false)
      (allowed : (link.callId.isSome || link.standsAlone) = true) :
      Advances scan index (.output link) scan none
  | linked {link : LegacyLink} {call : PendingLegacyResponsesCall} {callId : String}
      {used assigned : List String}
      (found : scan.pending.filter (fun call => link.identifies call.link) = [call])
      (chosen : scan.chooseCallId link call = (callId, used))
      (ids : call.link.callId.isSome = true ∧ assigned = scan.assigned ∨
        call.link.callId = none ∧ callId ∉ scan.assigned ∧ assigned = callId :: scan.assigned) :
      Advances scan index (.output link)
        { pending := scan.pending.erase call
          assigned
          used
          edits := scan.edits ++ (⟨call, index, link, callId⟩ : Answer).edits }
        (some ⟨call, index, link, callId⟩)

private theorem advance_cases {scan next : LegacyRepairScan} {index : Nat} {entry : LegacyEntry}
    (advanced : scan.advance index entry = some next) :
    ∃ answer, Advances scan index entry next answer := by
  cases entry with
  | ignored =>
      cases advanced
      exact ⟨none, .ignored⟩
  | malformed => cases advanced
  | call link =>
      rw [LegacyRepairScan.advance, LegacyRepairScan.addCall] at advanced
      split at advanced
      next => cases advanced
      next unassigned =>
        cases advanced
        refine ⟨none, .call fun callId same assigned => unassigned ?_⟩
        rw [same]
        simpa using assigned
  | output link =>
      rw [LegacyRepairScan.advance, LegacyRepairScan.addOutput] at advanced
      split at advanced
      next none_found =>
        split at advanced
        next allowed =>
          cases advanced
          refine ⟨none, .orphan (fun call member => ?_) allowed⟩
          simpa using List.filter_eq_nil_iff.mp none_found call member
        next => cases advanced
      next call found =>
        rw [LegacyRepairScan.linkOutput] at advanced
        cases chosen : scan.chooseCallId link call with
        | mk callId used =>
            simp only [chosen] at advanced
            refine ⟨some ⟨call, index, link, callId⟩, ?_⟩
            split at advanced
            next known =>
              cases advanced
              have planned : Advances scan index _ _ _ := .linked found chosen (.inl ⟨known, rfl⟩)
              simpa [Answer.edits, known] using planned
            next unknown =>
              have missing : call.link.callId = none := by simpa using unknown
              split at advanced
              next => cases advanced
              next fresh =>
                cases advanced
                have planned : Advances scan index _ _ _ := .linked found chosen
                  (.inr ⟨missing, fresh, rfl⟩)
                simpa [Answer.edits, missing] using planned
      next => cases advanced

/-! ### The plan -/

/-- The ids that waiting calls have already. -/
def ownIds (calls : List PendingLegacyResponsesCall) : List String :=
  calls.filterMap fun call => call.link.callId

private theorem ownIds_append (first second : List PendingLegacyResponsesCall) :
    ownIds (first ++ second) = ownIds first ++ ownIds second :=
  List.filterMap_append

/-- What holds of the plan after the entries `done`, with the answers given so far. -/
structure Planned (done : List LegacyEntry) (scan : LegacyRepairScan) (answers : List Answer) :
    Prop where
  waiting : ∀ call ∈ scan.pending, done[call.index]? = some (.call call.link)
  asked : ∀ answer ∈ answers, done[answer.call.index]? = some (.call answer.call.link)
  given : ∀ answer ∈ answers, done[answer.output]? = some (.output answer.outputLink) ∧
    answer.call.index < answer.output ∧ answer.outputLink.identifies answer.call.link = true
  covered : ∀ (index : Nat) (link : LegacyLink), done[index]? = some (.call link) →
    ⟨index, link⟩ ∈ scan.pending ∨ ∃ answer ∈ answers, answer.call = ⟨index, link⟩
  once : (scan.pending.map (·.index) ++ answers.map (·.call.index)).Nodup
  outputs : (answers.map (·.output)).Nodup
  ids : (ownIds scan.pending ++ answers.map (·.callId)).Nodup
  assigned : ∀ callId ∈ ownIds scan.pending ++ answers.map (·.callId),
    callId ∈ scan.assigned
  own : ∀ answer ∈ answers, ∀ callId, answer.call.link.callId = some callId → answer.callId = callId
  item : ∀ answer ∈ answers, answer.call.link.callId = none →
    ∀ itemId, answer.call.link.itemId = some itemId → answer.callId = itemId
  origin : ∀ answer ∈ answers, answer.call.link.callId = some answer.callId ∨
    answer.call.link.itemId = some answer.callId ∨
      ∃ used, answer.callId = (nextLegacyResponsesCallId answer.call.index used).1
  edits : scan.edits = answers.flatMap Answer.edits
  orphans : ∀ (output : Nat) (link : LegacyLink), done[output]? = some (.output link) →
    (∃ answer ∈ answers, answer.output = output) ∨
      ∀ (index : Nat) (call : LegacyLink), index < output → done[index]? = some (.call call) →
        link.identifies call = true → ∃ answer ∈ answers, answer.call.index = index ∧
          answer.output < output

theorem getElem?_snoc_of {Entry : Type} {done : List Entry} {index : Nat} {found : Entry}
    (present : done[index]? = some found) (entry : Entry) :
    (done ++ [entry])[index]? = some found := by
  have inside : index < done.length := by
    by_contra outside
    rw [List.getElem?_eq_none (Nat.le_of_not_lt outside)] at present
    cases present
  rw [List.getElem?_append_left inside, present]

theorem getElem?_snoc_cases {Entry : Type} {done : List Entry} {index : Nat} {entry found : Entry}
    (present : (done ++ [entry])[index]? = some found) :
    done[index]? = some found ∨ index = done.length ∧ entry = found := by
  rcases Nat.lt_or_ge index done.length with inside | outside
  · rw [List.getElem?_append_left inside] at present
    exact .inl present
  · rw [List.getElem?_append_right outside] at present
    obtain ⟨first, same⟩ : index - done.length = 0 ∧ entry = found := by
      cases position : index - done.length with
      | zero =>
          rw [position] at present
          exact ⟨rfl, Option.some.inj present⟩
      | succ =>
          rw [position] at present
          cases present
    exact .inr ⟨by omega, same⟩

theorem lt_of_getElem? {Entry : Type} {done : List Entry} {index : Nat} {found : Entry}
    (present : done[index]? = some found) : index < done.length := by
  by_contra outside
  rw [List.getElem?_eq_none (Nat.le_of_not_lt outside)] at present
  cases present

/-- Where the id of an answer comes from. -/
private theorem chooseCallId_cases {scan : LegacyRepairScan} {output : LegacyLink}
    {call : PendingLegacyResponsesCall} {callId : String} {used : List String}
    (identified : output.identifies call.link = true)
    (chosen : scan.chooseCallId output call = (callId, used)) :
    call.link.callId = some callId ∨
      call.link.callId = none ∧ (call.link.itemId = some callId ∨ call.link.itemId = none ∧
        output.callId = none ∧ ∃ used, callId = (nextLegacyResponsesCallId call.index used).1) := by
  unfold LegacyRepairScan.chooseCallId at chosen
  cases own : call.link.callId with
  | some id =>
      rw [own] at chosen
      cases chosen
      exact .inl rfl
  | none =>
      refine .inr ⟨rfl, ?_⟩
      rw [own, Option.none_or] at chosen
      cases named : output.callId with
      | some id =>
          rw [named] at chosen
          cases chosen
          have matched := (Bool.and_eq_true_iff.mp identified).2
          rw [named, Option.all_some, own] at matched
          exact .inl (by simpa using matched)
      | none =>
          rw [named, Option.none_or] at chosen
          cases item : call.link.itemId with
          | some id =>
              rw [item] at chosen
              cases chosen
              exact .inl rfl
          | none =>
              rw [item] at chosen
              exact .inr ⟨rfl, rfl, scan.used, (congrArg Prod.fst chosen).symm⟩

namespace Planned

variable {done : List LegacyEntry} {scan next : LegacyRepairScan} {answers : List Answer}

theorem start (used : List String) : Planned [] ⟨[], [], used, []⟩ [] where
  waiting _ member := absurd member (by simp)
  asked _ member := absurd member (by simp)
  given _ member := absurd member (by simp)
  covered _ _ present := absurd present (by simp)
  once := .nil
  outputs := .nil
  ids := .nil
  assigned _ member := absurd member (by simp [ownIds])
  own _ member := absurd member (by simp)
  item _ member := absurd member (by simp)
  origin _ member := absurd member (by simp)
  edits := rfl
  orphans _ _ present := absurd present (by simp)

/-- What earlier entries say stays as it is. -/
theorem orphans_snoc (planned : Planned done scan answers) (entry : LegacyEntry)
    {more : List Answer} {output : Nat} {link : LegacyLink}
    (present : done[output]? = some (.output link)) :
    (∃ answer ∈ answers ++ more, answer.output = output) ∨
      ∀ (index : Nat) (call : LegacyLink), index < output →
        (done ++ [entry])[index]? = some (.call call) → link.identifies call = true →
        ∃ answer ∈ answers ++ more, answer.call.index = index ∧ answer.output < output := by
  rcases planned.orphans output link present with ⟨answer, member, same⟩ | taken
  · exact .inl ⟨answer, List.mem_append_left _ member, same⟩
  · refine .inr fun index call before found identified => ?_
    rcases getElem?_snoc_cases found with earlier | ⟨last, _⟩
    · obtain ⟨answer, member, same⟩ := taken index call before earlier identified
      exact ⟨answer, List.mem_append_left _ member, same⟩
    · have inside := lt_of_getElem? present
      omega

theorem ignored (planned : Planned done scan answers) :
    Planned (done ++ [.ignored]) scan answers where
  waiting call member := getElem?_snoc_of (planned.waiting call member) _
  asked answer member := getElem?_snoc_of (planned.asked answer member) _
  given answer member :=
    ⟨getElem?_snoc_of (planned.given answer member).1 _, (planned.given answer member).2⟩
  covered index link present := by
    rcases getElem?_snoc_cases present with earlier | ⟨_, same⟩
    · exact planned.covered index link earlier
    · cases same
  once := planned.once
  outputs := planned.outputs
  ids := planned.ids
  assigned := planned.assigned
  own := planned.own
  item := planned.item
  origin := planned.origin
  edits := planned.edits
  orphans output link present := by
    rcases getElem?_snoc_cases present with earlier | ⟨_, same⟩
    · simpa using @orphans_snoc _ _ _ planned .ignored [] output link earlier
    · cases same

theorem call (planned : Planned done scan answers) {link : LegacyLink}
    (fresh : ∀ callId, link.callId = some callId → callId ∉ scan.assigned) :
    Planned (done ++ [.call link])
      { scan with
        assigned := link.callId.toList ++ scan.assigned
        pending := scan.pending ++ [⟨done.length, link⟩] } answers := by
  have shape : ∀ rest : List String,
      List.Perm (ownIds (scan.pending ++ [⟨done.length, link⟩]) ++ rest)
        (link.callId.toList ++ (ownIds scan.pending ++ rest)) := by
    intro rest
    have single : ownIds [⟨done.length, link⟩] = link.callId.toList := by
      cases named : link.callId <;> simp [ownIds, named]
    rw [ownIds_append, single, ← List.append_assoc]
    exact List.perm_append_comm.append_right rest
  refine ⟨?_, ?_, ?_, ?_, ?_, planned.outputs, ?_, ?_, planned.own, planned.item, planned.origin,
    planned.edits, ?_⟩
  · intro call member
    rcases List.mem_append.mp member with earlier | last
    · exact getElem?_snoc_of (planned.waiting call earlier) _
    · obtain rfl := List.mem_singleton.mp last
      exact List.getElem?_concat_length
  · exact fun answer member => getElem?_snoc_of (planned.asked answer member) _
  · exact fun answer member =>
      ⟨getElem?_snoc_of (planned.given answer member).1 _, (planned.given answer member).2⟩
  · intro index other present
    rcases getElem?_snoc_cases present with earlier | ⟨rfl, same⟩
    · exact (planned.covered index other earlier).imp_left (List.mem_append_left _)
    · cases same
      exact .inl (List.mem_append_right _ (List.mem_singleton_self _))
  · have apart : done.length ∉ scan.pending.map (·.index) ++ answers.map (·.call.index) := by
      intro member
      rcases List.mem_append.mp member with pending | answered
      · obtain ⟨call, inside, same⟩ := List.mem_map.mp pending
        exact absurd (lt_of_getElem? (planned.waiting call inside)) (by omega)
      · obtain ⟨answer, inside, same⟩ := List.mem_map.mp answered
        exact absurd (lt_of_getElem? (planned.asked answer inside)) (by omega)
    have whole : (done.length :: (scan.pending.map (·.index) ++
        answers.map (·.call.index))).Nodup := List.nodup_cons.mpr ⟨apart, planned.once⟩
    rw [List.map_append, List.append_assoc]
    exact (List.perm_middle.nodup_iff).mpr whole
  · refine (shape _).nodup_iff.mpr ?_
    cases named : link.callId with
    | none => exact planned.ids
    | some callId =>
        refine List.nodup_cons.mpr ⟨fun member => ?_, planned.ids⟩
        exact fresh callId named (planned.assigned callId member)
  · intro callId member
    rcases List.mem_append.mp ((shape _).mem_iff.mp member) with own | earlier
    · exact List.mem_append_left _ own
    · exact List.mem_append_right _ (planned.assigned callId earlier)
  · intro output other present
    rcases getElem?_snoc_cases present with earlier | ⟨_, same⟩
    · simpa using @orphans_snoc _ _ _ planned (.call link) [] output other earlier
    · cases same

theorem orphan (planned : Planned done scan answers) {link : LegacyLink}
    (unknown : ∀ call ∈ scan.pending, link.identifies call.link = false) :
    Planned (done ++ [.output link]) scan answers where
  waiting call member := getElem?_snoc_of (planned.waiting call member) _
  asked answer member := getElem?_snoc_of (planned.asked answer member) _
  given answer member :=
    ⟨getElem?_snoc_of (planned.given answer member).1 _, (planned.given answer member).2⟩
  covered index other present := by
    rcases getElem?_snoc_cases present with earlier | ⟨_, same⟩
    · exact planned.covered index other earlier
    · cases same
  once := planned.once
  outputs := planned.outputs
  ids := planned.ids
  assigned := planned.assigned
  own := planned.own
  item := planned.item
  origin := planned.origin
  edits := planned.edits
  orphans output other present := by
    rcases getElem?_snoc_cases present with earlier | ⟨rfl, same⟩
    · simpa using @orphans_snoc _ _ _ planned (.output link) [] output other earlier
    · cases same
      -- Nothing that waits is identified, so what is identified was answered before.
      refine .inr fun index call before found identified => ?_
      rcases getElem?_snoc_cases found with earlier | ⟨last, _⟩
      · rcases planned.covered index call earlier with waits | ⟨answer, member, same⟩
        · have differs : link.identifies call = false := unknown _ waits
          rw [identified] at differs
          cases differs
        · have place := (planned.given answer member).1
          exact ⟨answer, member, by rw [same], lt_of_getElem? place⟩
      · omega

theorem linked (planned : Planned done scan answers) {link : LegacyLink}
    {call : PendingLegacyResponsesCall} {callId : String} {used assigned : List String}
    (found : scan.pending.filter (fun call => link.identifies call.link) = [call])
    (chosen : scan.chooseCallId link call = (callId, used))
    (ids : call.link.callId.isSome = true ∧ assigned = scan.assigned ∨
      call.link.callId = none ∧ callId ∉ scan.assigned ∧ assigned = callId :: scan.assigned) :
    Planned (done ++ [.output link])
      { pending := scan.pending.erase call
        assigned
        used
        edits := scan.edits ++ (⟨call, done.length, link, callId⟩ : Answer).edits }
      (answers ++ [⟨call, done.length, link, callId⟩]) := by
  have here : call ∈ scan.pending ∧ link.identifies call.link = true :=
    List.mem_filter.mp (found ▸ List.mem_singleton_self call)
  obtain ⟨waits, identified⟩ := here
  have place := planned.waiting call waits
  have source := chooseCallId_cases identified chosen
  have split : List.Perm scan.pending (call :: scan.pending.erase call) :=
    List.perm_cons_erase waits
  -- The call moves from the waiting ones to the answered ones, with its id.
  have indices : List.Perm
      ((scan.pending.erase call).map (·.index) ++ (answers ++
        [(⟨call, done.length, link, callId⟩ : Answer)]).map (·.call.index))
      (scan.pending.map (·.index) ++ answers.map (·.call.index)) := by
    rw [List.map_append, List.map_singleton, ← List.append_assoc]
    refine (List.perm_append_singleton _ _).trans ?_
    exact ((split.map _).append_right _).symm
  have known : ∀ id, call.link.callId = some id → id = callId := by
    intro id own
    rcases source with same | ⟨missing, _⟩
    · exact Option.some.inj (own.symm.trans same)
    · rw [own] at missing
      cases missing
  have idList : List.Perm
      (ownIds (scan.pending.erase call) ++ (answers ++
        [(⟨call, done.length, link, callId⟩ : Answer)]).map (·.callId))
      (if call.link.callId.isSome then ownIds scan.pending ++ answers.map (·.callId)
      else callId :: (ownIds scan.pending ++ answers.map (·.callId))) := by
    rw [List.map_append, List.map_singleton, ← List.append_assoc]
    refine (List.perm_append_singleton _ _).trans ?_
    have moved : List.Perm (ownIds scan.pending)
        (call.link.callId.toList ++ ownIds (scan.pending.erase call)) := by
      have mapped := split.filterMap fun other => other.link.callId
      cases own : call.link.callId <;> simpa [ownIds, own] using mapped
    cases own : call.link.callId with
    | none =>
        rw [own] at moved
        exact (moved.symm.append_right _).cons callId
    | some id =>
        rw [own, known id own] at moved
        exact (moved.append_right _).symm
  refine ⟨?_, ?_, ?_, ?_, ?_, ?_, ?_, ?_, ?_, ?_, ?_, ?_, ?_⟩
  · exact fun other member =>
      getElem?_snoc_of (planned.waiting other (List.mem_of_mem_erase member)) _
  · intro answer member
    rcases List.mem_append.mp member with earlier | last
    · exact getElem?_snoc_of (planned.asked answer earlier) _
    · obtain rfl := List.mem_singleton.mp last
      exact getElem?_snoc_of place _
  · intro answer member
    rcases List.mem_append.mp member with earlier | last
    · exact ⟨getElem?_snoc_of (planned.given answer earlier).1 _, (planned.given answer earlier).2⟩
    · obtain rfl := List.mem_singleton.mp last
      exact ⟨List.getElem?_concat_length, lt_of_getElem? place, identified⟩
  · intro index other present
    rcases getElem?_snoc_cases present with earlier | ⟨_, same⟩
    · rcases planned.covered index other earlier with waiting | ⟨answer, member, same⟩
      · by_cases own : (⟨index, other⟩ : PendingLegacyResponsesCall) = call
        · exact .inr ⟨_, List.mem_append_right _ (List.mem_singleton_self _), own.symm⟩
        · exact .inl ((List.mem_erase_of_ne own).mpr waiting)
      · exact .inr ⟨answer, List.mem_append_left _ member, same⟩
    · cases same
  · exact indices.nodup_iff.mpr planned.once
  · rw [List.map_append, List.map_singleton]
    refine (List.perm_append_singleton _ _).nodup_iff.mpr (List.nodup_cons.mpr ⟨?_, planned.outputs⟩)
    intro member
    obtain ⟨answer, inside, same⟩ := List.mem_map.mp member
    have before := lt_of_getElem? (planned.given answer inside).1
    dsimp only at same
    omega
  · refine idList.nodup_iff.mpr ?_
    rcases ids with ⟨own, _⟩ | ⟨missing, fresh, _⟩
    · rw [if_pos own]
      exact planned.ids
    · rw [if_neg (by simp [missing])]
      exact List.nodup_cons.mpr ⟨fun member => fresh (planned.assigned callId member), planned.ids⟩
  · intro id member
    have inside := idList.mem_iff.mp member
    rcases ids with ⟨own, rfl⟩ | ⟨missing, _, rfl⟩
    · rw [if_pos own] at inside
      exact planned.assigned id inside
    · rw [if_neg (by simp [missing])] at inside
      rcases List.mem_cons.mp inside with rfl | earlier
      · exact List.mem_cons_self
      · exact List.mem_cons_of_mem _ (planned.assigned id earlier)
  · intro answer member id own
    rcases List.mem_append.mp member with earlier | last
    · exact planned.own answer earlier id own
    · obtain rfl := List.mem_singleton.mp last
      exact (known id own).symm
  · intro answer member missing id item
    rcases List.mem_append.mp member with earlier | last
    · exact planned.item answer earlier missing id item
    · obtain rfl := List.mem_singleton.mp last
      rcases source with own | ⟨_, named | ⟨none, _⟩⟩
      · rw [missing] at own
        cases own
      · exact Option.some.inj (named.symm.trans item)
      · rw [item] at none
        cases none
  · intro answer member
    rcases List.mem_append.mp member with earlier | last
    · exact planned.origin answer earlier
    · obtain rfl := List.mem_singleton.mp last
      rcases source with own | ⟨_, named | ⟨_, _, generated⟩⟩
      · exact .inl own
      · exact .inr (.inl named)
      · exact .inr (.inr generated)
  · show scan.edits ++ _ = _
    rw [planned.edits, List.flatMap_append, List.flatMap_singleton]
  · intro output other present
    rcases getElem?_snoc_cases present with earlier | ⟨rfl, _⟩
    · exact orphans_snoc planned (.output link) earlier
    · exact .inl ⟨_, List.mem_append_right _ (List.mem_singleton_self _), rfl⟩

theorem advance (planned : Planned done scan answers) {entry : LegacyEntry} {answer : Option Answer}
    (advances : Advances scan done.length entry next answer) :
    Planned (done ++ [entry]) next (answers ++ answer.toList) := by
  cases advances with
  | ignored => simpa using planned.ignored
  | call fresh => simpa using planned.call fresh
  | orphan unknown _ => simpa using planned.orphan unknown
  | linked found chosen ids => exact planned.linked found chosen ids

end Planned

/-! ### Whole scans -/

/-- A scan of the entries from the start, with the answers it gives. -/
inductive Scanned (used : List String) :
    List LegacyEntry → LegacyRepairScan → List Answer → Prop
  | start : Scanned used [] ⟨[], [], used, []⟩ []
  | step {done : List LegacyEntry} {scan next : LegacyRepairScan} {answers : List Answer}
      {entry : LegacyEntry} {answer : Option Answer} (before : Scanned used done scan answers)
      (advances : Advances scan done.length entry next answer) :
      Scanned used (done ++ [entry]) next (answers ++ answer.toList)

theorem Scanned.planned {used : List String} {done : List LegacyEntry} {scan : LegacyRepairScan}
    {answers : List Answer} (scanned : Scanned used done scan answers) :
    Planned done scan answers := by
  induction scanned with
  | start => exact .start used
  | step _ advances ih => exact ih.advance advances

theorem scanItems_scanned {used : List String} {scan final : LegacyRepairScan}
    {done rest : List LegacyEntry} {answers : List Answer} (before : Scanned used done scan answers)
    (scanned : scan.scanItems done.length rest = some final) :
    ∃ more, Scanned used (done ++ rest) final more := by
  induction rest generalizing scan done answers with
  | nil =>
      rw [LegacyRepairScan.scanItems] at scanned
      cases scanned
      exact ⟨answers, by simpa using before⟩
  | cons entry rest ih =>
      rw [LegacyRepairScan.scanItems] at scanned
      obtain ⟨next, advanced, further⟩ := Option.bind_eq_some_iff.mp scanned
      obtain ⟨answer, advances⟩ := advance_cases advanced
      have length : done.length + 1 = (done ++ [entry]).length := by simp
      rw [length] at further
      obtain ⟨more, whole⟩ := ih (before.step advances) further
      exact ⟨more, by simpa using whole⟩

end ZenithRelay.Gateway.Request
