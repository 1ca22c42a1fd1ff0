import ZenithRelay.Gateway.Request.LegacyCallIdsProperties

/-!
# A second scan

Once every call shares an id with its output, another scan has nothing to edit: either it
gives up or it pairs the same calls with outputs that name them already.
-/

set_option autoImplicit false

namespace ZenithRelay.Gateway.Request

/-- The part of an identification that ids have no part in. -/
def sameKind (output call : LegacyLink) : Bool :=
  call.family = output.family &&
    output.toolName.all (fun toolName => call.toolName = some toolName) &&
    output.namespaceName.all (fun name => call.namespaceName = some name)

def LegacyLink.withId (link : LegacyLink) (callId : String) : LegacyLink :=
  { link with callId := some callId }

theorem identifies_iff {output call : LegacyLink} :
    output.identifies call = true ↔ sameKind output call = true ∧
      ∀ existing, output.callId = some existing →
        call.callId = some existing ∨ call.itemId = some existing := by
  unfold LegacyLink.identifies sameKind
  rw [Bool.and_eq_true]
  cases output.callId <;> simp

/-- The entries after the edits of a complete plan. -/
structure Relinked (entries relinked : List LegacyEntry) (answers : List Answer) : Prop where
  calls : ∀ answer ∈ answers,
    relinked[answer.call.index]? = some (.call (answer.call.link.withId answer.callId))
  outputs : ∀ answer ∈ answers,
    relinked[answer.output]? = some (.output (answer.outputLink.withId answer.callId))
  others : ∀ index : Nat, (∀ answer ∈ answers, answer.call.index ≠ index ∧ answer.output ≠ index) →
    relinked[index]? = entries[index]?

/-- The id that the plan ends with for a call. -/
def finalId (answers : List Answer) (index : Nat) : String :=
  ((answers.find? fun answer => answer.call.index = index).map (·.callId)).getD ""

def renamed (answers : List Answer) (call : PendingLegacyResponsesCall) :
    PendingLegacyResponsesCall :=
  ⟨call.index, call.link.withId (finalId answers call.index)⟩

section FinalIds

-- A plan that answers every call.
variable {entries : List LegacyEntry} {final : LegacyRepairScan} {answers : List Answer}
  (whole : Planned entries final answers) (complete : final.pending = [])

include whole

theorem finalId_of_mem {answer : Answer} (member : answer ∈ answers) :
    finalId answers answer.call.index = answer.callId := by
  have once : (answers.map (·.call.index)).Nodup := (List.nodup_append.mp whole.once).2.1
  unfold finalId
  cases found : answers.find? fun other => other.call.index = answer.call.index with
  | none =>
      have missed := List.find?_eq_none.mp found answer member
      simp at missed
  | some other =>
      have same : other.call.index = answer.call.index := by simpa using List.find?_some found
      have one := List.inj_on_of_nodup_map once (List.mem_of_find?_eq_some found) member same
      rw [one, Option.map_some, Option.getD_some]

include complete

theorem answered {index : Nat} {link : LegacyLink} (present : entries[index]? = some (.call link)) :
    ∃ answer ∈ answers, answer.call = ⟨index, link⟩ ∧ finalId answers index = answer.callId := by
  rcases whole.covered index link present with waiting | ⟨answer, member, same⟩
  · rw [complete] at waiting
    cases waiting
  · have id := finalId_of_mem whole member
    rw [same] at id
    exact ⟨answer, member, same, id⟩

theorem finalId_own {index : Nat} {link : LegacyLink} {callId : String}
    (present : entries[index]? = some (.call link)) (own : link.callId = some callId) :
    finalId answers index = callId := by
  obtain ⟨answer, member, same, id⟩ := answered whole complete present
  rw [id]
  exact whole.own answer member callId (by rw [same]; exact own)

private theorem finalId_item {index : Nat} {link : LegacyLink} {itemId : String}
    (present : entries[index]? = some (.call link)) (missing : link.callId = none)
    (item : link.itemId = some itemId) : finalId answers index = itemId := by
  obtain ⟨answer, member, same, id⟩ := answered whole complete present
  rw [id]
  exact whole.item answer member (by rw [same]; exact missing) itemId (by rw [same]; exact item)

end FinalIds

/-- The calls that wait in the second scan are those of the first under their final ids,
except for calls without any id, which an orphan may have taken. -/
structure Follows (answers : List Answer) (first second : LegacyRepairScan) : Prop where
  edits : second.edits = []
  fewer : ∀ call ∈ second.pending, ∃ earlier ∈ first.pending, call = renamed answers earlier
  named : ∀ call ∈ first.pending, call.link.callId.isSome = true ∨ call.link.itemId.isSome = true →
    renamed answers call ∈ second.pending

namespace Follows

variable {entries : List LegacyEntry} {final first second next : LegacyRepairScan}
  {answers : List Answer}

theorem start (answers : List Answer) (usedFirst usedSecond : List String) :
    Follows answers ⟨[], [], usedFirst, []⟩ ⟨[], [], usedSecond, []⟩ where
  edits := rfl
  fewer _ member := absurd member (by simp)
  named _ member := absurd member (by simp)

theorem call (follows : Follows answers first second) (index : Nat) (link : LegacyLink)
    (firstAssigned secondAssigned : List String) :
    Follows answers
      { first with assigned := firstAssigned, pending := first.pending ++ [⟨index, link⟩] }
      { second with
        assigned := secondAssigned
        pending := second.pending ++ [renamed answers ⟨index, link⟩] } where
  edits := follows.edits
  fewer call member := by
    rcases List.mem_append.mp member with earlier | last
    · obtain ⟨found, inside, same⟩ := follows.fewer call earlier
      exact ⟨found, List.mem_append_left _ inside, same⟩
    · exact ⟨_, List.mem_append_right _ (List.mem_singleton_self _), List.mem_singleton.mp last⟩
  named call member known := by
    rcases List.mem_append.mp member with earlier | last
    · exact List.mem_append_left _ (follows.named call earlier known)
    · obtain rfl := List.mem_singleton.mp last
      exact List.mem_append_right _ (List.mem_singleton_self _)

section Outputs

variable (whole : Planned entries final answers) (complete : final.pending = [])
  (follows : Follows answers first second)
  (waiting : ∀ call ∈ first.pending, entries[call.index]? = some (.call call.link))

include follows

/-- An output linked before is no orphan while its call waits. -/
private theorem linked_orphan {link : LegacyLink} {call : PendingLegacyResponsesCall}
    (found : first.pending.filter (fun call => link.identifies call.link) = [call])
    (used assigned : List String) (edits : List (Nat × String))
    (unknown : ∀ waits ∈ second.pending,
      (link.withId (finalId answers call.index)).identifies waits.link = false) :
    Follows answers { pending := first.pending.erase call, assigned, used, edits } second := by
  have identified : link.identifies call.link = true := by
    have member := List.mem_singleton_self call
    rw [← found] at member
    exact (List.mem_filter.mp member).2
  have gone : renamed answers call ∉ second.pending := by
    intro waits
    have known : (link.withId (finalId answers call.index)).identifies
        (renamed answers call).link = true :=
      identifies_iff.mpr ⟨(identifies_iff.mp identified).1, fun existing carries => .inl carries⟩
    rw [unknown _ waits] at known
    cases known
  refine ⟨follows.edits, ?_, ?_⟩
  · intro other member
    obtain ⟨earlier, inside, rfl⟩ := follows.fewer other member
    refine ⟨earlier, (List.mem_erase_of_ne ?_).mpr inside, rfl⟩
    rintro rfl
    exact gone member
  · exact fun other member => follows.named other (List.mem_of_mem_erase member)

omit follows

include waiting

/-- A waiting call is known by its index. -/
theorem same_of_renamed {one other : PendingLegacyResponsesCall} (oneMember : one ∈ first.pending)
    (otherMember : other ∈ first.pending) (same : renamed answers one = renamed answers other) :
    one = other := by
  have index : one.index = other.index := (congrArg PendingLegacyResponsesCall.index same :)
  have oneCall := waiting one oneMember
  rw [index, waiting other otherMember] at oneCall
  cases one
  cases other
  cases oneCall
  cases index
  rfl

include follows

section Linked

variable {link : LegacyLink} {call : PendingLegacyResponsesCall}
  (found : first.pending.filter (fun call => link.identifies call.link) = [call])
  (once : first.pending.Nodup)

include found once

/-- An output linked before is linked to the same call again. -/
private theorem linked_linked (secondOnce : second.pending.Nodup) (used assigned : List String)
    (edits : List (Nat × String)) {again : PendingLegacyResponsesCall} {callId : String}
    {secondUsed secondAssigned : List String}
    (foundAgain : second.pending.filter (fun waits =>
      (link.withId (finalId answers call.index)).identifies waits.link) = [again])
    (chosen : second.chooseCallId (link.withId (finalId answers call.index)) again =
      (callId, secondUsed)) (output : Nat) :
    Follows answers { pending := first.pending.erase call, assigned, used, edits }
      { pending := second.pending.erase again
        assigned := secondAssigned
        used := secondUsed
        edits := second.edits ++ (⟨again, output, link.withId (finalId answers call.index),
          callId⟩ : Answer).edits } := by
  have member := List.mem_singleton_self call
  rw [← found] at member
  obtain ⟨waits, identified⟩ := List.mem_filter.mp member
  have memberAgain := List.mem_singleton_self again
  rw [← foundAgain] at memberAgain
  obtain ⟨waitsAgain, identifiedAgain⟩ := List.mem_filter.mp memberAgain
  obtain ⟨earlier, inside, rfl⟩ := follows.fewer again waitsAgain
  obtain ⟨kind, _⟩ := identifies_iff.mp identifiedAgain
  obtain rfl : earlier = call := by
    cases carries : link.callId with
    | none =>
        -- The first scan looked at the kind only, and found one call.
        have both : earlier ∈ first.pending.filter fun waits => link.identifies waits.link :=
          List.mem_filter.mpr ⟨inside, identifies_iff.mpr ⟨kind, fun existing own => by
            rw [carries] at own
            cases own⟩⟩
        rw [found] at both
        exact List.mem_singleton.mp both
    | some existing =>
        -- The call has an id of its own, so it waits in the second scan as well.
        have known : call.link.callId.isSome = true ∨ call.link.itemId.isSome = true := by
          rcases (identifies_iff.mp identified).2 existing carries with own | item
          · exact .inl (by rw [own]; rfl)
          · exact .inr (by rw [item]; rfl)
        have both : renamed answers call ∈ second.pending.filter fun waits =>
            (link.withId (finalId answers call.index)).identifies waits.link :=
          List.mem_filter.mpr ⟨follows.named call waits known, identifies_iff.mpr
            ⟨(identifies_iff.mp identified).1, fun existing own => .inl own⟩⟩
        rw [foundAgain] at both
        exact (same_of_renamed waiting waits inside (List.mem_singleton.mp both)).symm
  have chosenId : finalId answers earlier.index = callId := (congrArg Prod.fst chosen :)
  refine ⟨?_, ?_, ?_⟩
  · show second.edits ++ _ = []
    rw [follows.edits, List.nil_append, Answer.edits]
    rw [if_pos (show (link.withId (finalId answers earlier.index)).callId = some callId from
      congrArg some chosenId), List.append_nil]
    exact if_pos rfl
  · intro other member
    obtain ⟨found, known, rfl⟩ := follows.fewer other (List.mem_of_mem_erase member)
    refine ⟨found, (List.mem_erase_of_ne ?_).mpr known, rfl⟩
    rintro rfl
    exact (List.Nodup.not_mem_erase secondOnce) member
  · intro other member known
    refine (List.mem_erase_of_ne fun same => ?_).mpr
      (follows.named other (List.mem_of_mem_erase member) known)
    obtain rfl := same_of_renamed waiting (List.mem_of_mem_erase member) inside same
    exact (List.Nodup.not_mem_erase once) member

end Linked

include whole complete

/-- An output that the first scan left alone names no call with an id of its own. -/
private theorem orphan_linked {link : LegacyLink} {call : PendingLegacyResponsesCall} {callId : String}
    {used assigned : List String}
    (unknown : ∀ call ∈ first.pending, link.identifies call.link = false)
    (found : second.pending.filter (fun call => link.identifies call.link) = [call])
    (chosen : second.chooseCallId link call = (callId, used)) (output : Nat) :
    Follows answers first
      { pending := second.pending.erase call
        assigned
        used
        edits := second.edits ++ (⟨call, output, link, callId⟩ : Answer).edits } := by
  obtain ⟨waits, identified⟩ : call ∈ second.pending ∧ link.identifies call.link = true :=
    List.mem_filter.mp (found ▸ List.mem_singleton_self call)
  obtain ⟨earlier, inside, rfl⟩ := follows.fewer call waits
  have place := waiting earlier inside
  obtain ⟨kind, named⟩ := identifies_iff.mp identified
  have differs : ¬ link.identifies earlier.link = true := by
    rw [unknown earlier inside]
    exact Bool.false_ne_true
  -- The output names the final id of the call and no id that the call came with.
  obtain ⟨existing, carries, final_id, apart⟩ : ∃ existing, link.callId = some existing ∧
      finalId answers earlier.index = existing ∧
      ¬ (earlier.link.callId = some existing ∨ earlier.link.itemId = some existing) := by
    by_contra none_such
    refine differs (identifies_iff.mpr ⟨kind, fun existing carries => ?_⟩)
    by_contra apart
    rcases named existing carries with own | item
    · exact none_such ⟨existing, carries, Option.some.inj own, apart⟩
    · exact apart (.inr item)
  have chosenId : callId = existing := by
    have own := congrArg Prod.fst chosen
    exact own.symm.trans final_id
  have bare : ¬ (earlier.link.callId.isSome = true ∨ earlier.link.itemId.isSome = true) := by
    rintro (own | item)
    · obtain ⟨id, own⟩ := Option.isSome_iff_exists.mp own
      exact apart (.inl (own.trans (congrArg some ((finalId_own whole complete place own).symm.trans
        final_id))))
    · cases own : earlier.link.callId with
      | some id =>
          exact apart (.inl (own.trans (congrArg some
            ((finalId_own whole complete place own).symm.trans final_id))))
      | none =>
          obtain ⟨id, item⟩ := Option.isSome_iff_exists.mp item
          exact apart (.inr (item.trans (congrArg some
            ((finalId_item whole complete place own item).symm.trans final_id))))
  refine ⟨?_, ?_, ?_⟩
  · show second.edits ++ _ = []
    rw [follows.edits, List.nil_append, Answer.edits, chosenId, if_pos carries, List.append_nil]
    exact if_pos rfl
  · exact fun other member => follows.fewer other (List.mem_of_mem_erase member)
  · intro other member known
    refine (List.mem_erase_of_ne fun same => ?_).mpr (follows.named other member known)
    obtain rfl := same_of_renamed waiting member inside same
    exact bare known

end Outputs

end Follows

private theorem Advances.output_here {scan next : LegacyRepairScan} {index : Nat} {entry : LegacyEntry}
    {answer : Answer} (advances : Advances scan index entry next (some answer)) :
    answer.output = index := by
  cases advances
  rfl

theorem getElem?_of_prefix {Entry : Type} {done entries : List Entry} {index : Nat} {entry : Entry}
    (inside : done <+: entries) (present : done[index]? = some entry) :
    entries[index]? = some entry := by
  obtain ⟨rest, rfl⟩ := inside
  rw [List.getElem?_append_left (lt_of_getElem? present), present]

/-- The two scans side by side, entry by entry. -/
theorem Scanned.follows {entries relinked done : List LegacyEntry}
    {final scan second : LegacyRepairScan} {all answers answersAgain : List Answer}
    {used usedAgain : List String} {doneAgain : List LegacyEntry}
    (whole : Planned entries final all) (complete : final.pending = [])
    (relink : Relinked entries relinked all) (first : Scanned used done scan answers)
    (inside : done <+: entries)
    (mine : ∀ answer, answer ∈ answers ↔ answer ∈ all ∧ answer.output < done.length)
    (again : Scanned usedAgain doneAgain second answersAgain) (insideAgain : doneAgain <+: relinked)
    (length : doneAgain.length = done.length) : Follows all scan second := by
  induction first generalizing doneAgain second answersAgain with
  | start =>
      cases again with
      | start => exact .start all used usedAgain
      | step _ _ => simp at length
  | @step done scan next answers entry answer before advances ih =>
      cases again with
      | start => simp at length
      | @step doneAgain second nextAgain answersAgain entryAgain answerAgain beforeAgain
          advancesAgain =>
          have here : entries[done.length]? = some entry :=
            getElem?_of_prefix inside List.getElem?_concat_length
          have same : doneAgain.length = done.length := by simpa using length
          have hereAgain : relinked[done.length]? = some entryAgain := by
            rw [← same]
            exact getElem?_of_prefix insideAgain List.getElem?_concat_length
          have planned := before.planned
          have earlier : ∀ given ∈ answers, given.output < done.length :=
            fun given member => lt_of_getElem? (planned.given given member).1
          have follows : Follows all scan second := by
            refine ih ((List.prefix_append _ _).trans inside) (fun given => ⟨fun member => ?_,
              fun found => ?_⟩) beforeAgain ((List.prefix_append _ _).trans insideAgain) same
            · exact ⟨((mine given).mp (List.mem_append_left _ member)).1, earlier given member⟩
            · obtain ⟨member, old⟩ := found
              rcases List.mem_append.mp ((mine given).mpr ⟨member, by simp; omega⟩) with old | last
              · exact old
              · cases answer with
                | none => cases last
                | some latest =>
                    obtain rfl := List.mem_singleton.mp last
                    have latestHere := advances.output_here
                    omega
          have waiting : ∀ call ∈ scan.pending, entries[call.index]? = some (.call call.link) :=
            fun call member => getElem?_of_prefix ((List.prefix_append _ _).trans inside)
              (planned.waiting call member)
          -- Only calls and linked outputs change.
          have kept : (∀ link, entry ≠ .call link) → (∀ given ∈ all, given.output ≠ done.length) →
              entryAgain = entry := by
            intro noCall noOutput
            have others := relink.others done.length fun given member =>
              ⟨fun index => by
                have asked := whole.asked given member
                rw [index, here] at asked
                exact noCall _ (Option.some.inj asked), noOutput given member⟩
            rw [hereAgain, here] at others
            exact Option.some.inj others
          have fresh : answer = none → ∀ given ∈ all, given.output ≠ done.length := by
            rintro rfl given member output
            have old := (mine given).mpr ⟨member, by simp; omega⟩
            rw [Option.toList_none, List.append_nil] at old
            exact Nat.lt_irrefl _ (output ▸ earlier given old)
          cases advances with
          | ignored =>
              obtain rfl := kept (fun _ => by simp) (fresh rfl)
              cases advancesAgain
              exact follows
          | @call link unassigned =>
              obtain ⟨given, member, asked, id⟩ := answered whole complete here
              have linkAgain := relink.calls given member
              rw [asked] at linkAgain
              dsimp only at linkAgain
              rw [hereAgain, ← id] at linkAgain
              obtain rfl := Option.some.inj linkAgain
              cases advancesAgain
              rw [same]
              exact follows.call done.length link _ _
          | orphan unknown allowed =>
              obtain rfl := kept (fun _ => by simp) (fresh rfl)
              cases advancesAgain with
              | orphan _ _ => exact follows
              | linked found chosen _ =>
                  exact follows.orphan_linked whole complete waiting unknown found chosen _
          | @linked link call callId _ _ found chosen _ =>
              have member : (⟨call, done.length, link, callId⟩ : Answer) ∈ all :=
                ((mine _).mp (List.mem_append_right _ (List.mem_singleton_self _))).1
              have id : finalId all call.index = callId := finalId_of_mem whole member
              have linkAgain := relink.outputs _ member
              dsimp only at linkAgain
              rw [hereAgain, ← id] at linkAgain
              obtain rfl := Option.some.inj linkAgain
              have once : scan.pending.Nodup :=
                List.Nodup.of_map _ (List.nodup_append.mp planned.once).1
              have onceAgain : second.pending.Nodup :=
                List.Nodup.of_map _ (List.nodup_append.mp beforeAgain.planned.once).1
              cases advancesAgain with
              | orphan unknown _ => exact follows.linked_orphan found _ _ _ unknown
              | linked foundAgain chosenAgain _ =>
                  exact follows.linked_linked waiting found once onceAgain _ _ _ foundAgain
                    chosenAgain _

/-- A second scan leaves nothing to edit. -/
theorem Scanned.settled {entries relinked : List LegacyEntry} {scan again : LegacyRepairScan}
    {answers answersAgain : List Answer} {used usedAgain : List String}
    (first : Scanned used entries scan answers) (complete : scan.pending = [])
    (relink : Relinked entries relinked answers) (length : relinked.length = entries.length)
    (second : Scanned usedAgain relinked again answersAgain) : again.edits = [] :=
  (first.follows first.planned complete relink (List.prefix_refl _)
    (fun answer => ⟨fun member => ⟨member, lt_of_getElem? (first.planned.given answer member).1⟩,
      fun found => found.1⟩) second (List.prefix_refl _) length).edits

end ZenithRelay.Gateway.Request
