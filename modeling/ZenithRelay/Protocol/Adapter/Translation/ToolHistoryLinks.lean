import ZenithRelay.Protocol.Adapter.Translation.ToolHistoryOrder

/-!
# What the first pass links

The first pass event by event: a call without an id gets an unknown one, a result the
earliest unanswered call that it belongs to, and everything else stays.
-/

set_option autoImplicit false

namespace ZenithRelay.Protocol.Adapter.Translation

/-! ## Event by event -/

def linkEvent (links : CallLinks) : HistoryEvent → Except AdapterError (CallLinks × HistoryEvent)
  | .starts role => .ok (links, .starts role)
  | .holds role block => do
    let linked ← linkBlock links block
    return (linked.1, .holds role linked.2)

def linkEvents (links : CallLinks) :
    List HistoryEvent → Except AdapterError (CallLinks × List HistoryEvent)
  | [] => .ok (links, [])
  | event :: events => do
    let first ← linkEvent links event
    let rest ← linkEvents first.1 events
    return (rest.1, first.2 :: rest.2)

variable {links next : CallLinks} {events before linked : List HistoryEvent}
  {event last : HistoryEvent} {known : Finset String}

private theorem linkEvents_append (first second : List HistoryEvent) (links : CallLinks) :
    linkEvents links (first ++ second) = do
      let front ← linkEvents links first
      let back ← linkEvents front.1 second
      return (back.1, front.2 ++ back.2) := by
  induction first generalizing links with
  | nil =>
    rw [List.nil_append, linkEvents]
    simp only [bind, Except.bind, List.nil_append]
    cases linkEvents links second <;> rfl
  | cons event events ih =>
    rw [List.cons_append, linkEvents, linkEvents]
    cases linkEvent links event with
    | error => rfl
    | ok linked =>
      simp only [bind, Except.bind, ih]
      cases linkEvents linked.1 events with
      | error => rfl
      | ok front =>
        simp only [pure, Except.pure]
        cases linkEvents front.1 second <;> rfl

private theorem linkBlocks_eq (role : Role) (blocks : List Block) (links : CallLinks) :
    linkEvents links (blocks.map (.holds role)) = do
      let linked ← linkBlocks links blocks
      return (linked.1, linked.2.map (.holds role)) := by
  induction blocks generalizing links with
  | nil => rfl
  | cons block blocks ih =>
    rw [List.map_cons, linkEvents, linkEvent, linkBlocks]
    cases linkBlock links block with
    | error => rfl
    | ok first =>
      simp only [bind, Except.bind, pure, Except.pure, ih]
      cases linkBlocks first.1 blocks <;> rfl

theorem linkMessages_eq (messages : List Message) (links : CallLinks) :
    linkEvents links (historyEvents messages) = do
      let linked ← linkMessages links messages
      return (linked.1, historyEvents linked.2) := by
  induction messages generalizing links with
  | nil => rfl
  | cons message messages ih =>
    rw [historyEvents, List.flatMap_cons, linkEvents_append, Message.events, linkEvents, linkEvent,
      linkMessages]
    simp only [bind, Except.bind, pure, Except.pure, linkBlocks_eq]
    cases linkBlocks links message.blocks with
    | error => rfl
    | ok first =>
      simp only [ih, bind, Except.bind, pure, Except.pure]
      cases linkMessages first.1 messages <;> rfl

/-! ## What an event becomes -/

/-- What the first pass makes of an event, given the linked events before it. -/
inductive LinksTo (known : Finset String) (before : List HistoryEvent) :
    HistoryEvent → HistoryEvent → Prop
  | kept {event : HistoryEvent} (noCall : event.call = none) (noResult : event.result = none) :
      LinksTo known before event event
  | call {role : Role} {id given name arguments : String}
      (identified : if id = "" then given ∉ known else given = id) :
      LinksTo known before (.holds role (.toolCall id name arguments))
        (.holds role (.toolCall given name arguments))
  | result {role : Role} {id name : String} {content : List Block} {isError rawText : Bool}
      {call : String × String}
      (chosen : (unanswered before).find? (answers id name) = some call)
      (named : name = "" ∨ name = call.2) :
      LinksTo known before (.holds role (.toolResult id name content isError rawText))
        (.holds role (.toolResult call.1 call.2 content isError rawText))

/-- `Linked known before given linked`: the given events became the linked ones. -/
inductive Linked (known : Finset String) :
    List HistoryEvent → List HistoryEvent → List HistoryEvent → Prop
  | nil {before : List HistoryEvent} : Linked known before [] []
  | cons {before events linked : List HistoryEvent} {event last : HistoryEvent} (first : LinksTo known before event last)
      (rest : Linked known (before ++ [last]) events linked) :
      Linked known before (event :: events) (last :: linked)

theorem nextCallId_unknown (known : Finset String) (generated : Nat) :
    (nextCallId known generated).1 ∉ known := by
  fun_induction nextCallId known generated with
  | case1 generated taken ih => exact ih
  | case2 generated free => exact free

/-- What the first pass remembers of the linked events. -/
structure LinkState (known : Finset String) (before : List HistoryEvent) (links : CallLinks) :
    Prop where
  pending : links.pending = unanswered before
  known : known ⊆ links.known
  results : ∀ id ∈ resultIds before, id ∈ callIds before

/-- An id stands in a list of calls once. -/
theorem call_unique {calls : List (String × String)} (distinct : (calls.map Prod.fst).Nodup)
    {id first second : String} (left : (id, first) ∈ calls) (right : (id, second) ∈ calls) :
    first = second :=
  congrArg Prod.snd (List.inj_on_of_nodup_map distinct left right rfl)

theorem mem_callIds_of_unanswered {call : String × String} (open_ : call ∈ unanswered before) :
    call.1 ∈ callIds before := List.mem_map.mpr ⟨call, (mem_unanswered.mp open_).1, rfl⟩

namespace LinkState

private theorem other (state : LinkState known before links) (noCall : event.call = none)
    (noResult : event.result = none) : LinkState known (before ++ [event]) links := by
  have sameIds : callIds (before ++ [event]) = callIds before := by
    simp [callIds, calls_snoc, noCall]
  refine ⟨by rw [unanswered_other noCall noResult, state.pending], state.known, ?_⟩
  simpa [sameIds, resultIds_snoc, noResult] using state.results

private theorem call (state : LinkState known before links) {call : String × String}
    (calls_ : event.call = some call) (noResult : event.result = none)
    (distinct : (callIds (before ++ [event])).Nodup) (pending : next.pending = links.pending ++ [call])
    (grown : links.known ⊆ next.known) : LinkState known (before ++ [event]) next := by
  have ids : callIds (before ++ [event]) = callIds before ++ [call.1] := by
    simp [callIds, calls_snoc, calls_]
  have fresh : call.1 ∉ callIds before := by
    rw [ids, ← List.concat_eq_append] at distinct
    exact ((List.nodup_concat _ _).mp distinct).1
  have unseen : call.1 ∉ resultIds before := fun member => fresh (state.results _ member)
  refine ⟨?_, state.known.trans grown, fun id member => ?_⟩
  · rw [pending, state.pending, unanswered_call calls_ noResult unseen]
  · rw [resultIds_snoc, noResult] at member
    rw [ids]
    exact List.mem_append_left _ (state.results id (by simpa using member))

private theorem result (state : LinkState known before links) {call : String × String}
    (noCall : event.call = none) (results : event.result = some call)
    (distinct : (callIds before).Nodup) (open_ : call ∈ unanswered before)
    (pending : next.pending = links.pending.erase call) (same : next.known = links.known) :
    LinkState known (before ++ [event]) next := by
  have sameIds : callIds (before ++ [event]) = callIds before := by
    simp [callIds, calls_snoc, noCall]
  have nodup : (unanswered before).Nodup := (List.Nodup.of_map _ distinct).filter _
  refine ⟨?_, same ▸ state.known, fun id member => ?_⟩
  · rw [pending, state.pending, unanswered_result noCall results, nodup.erase_eq_filter]
    refine List.filter_congr fun other member => ?_
    have apart : other ≠ call ↔ other.1 ≠ call.1 := by
      refine not_congr ⟨fun same => congrArg Prod.fst same, fun same => Prod.ext same ?_⟩
      have second : (other.1, call.2) ∈ calls before := same ▸ (mem_unanswered.mp open_).1
      exact call_unique distinct (mem_unanswered.mp member).1 second
    rw [Bool.eq_iff_iff]
    simpa using apart
  · rw [sameIds]
    rw [resultIds_snoc, results] at member
    rcases List.mem_append.mp member with earlier | last
    · exact state.results id earlier
    · obtain rfl : id = call.1 := by simpa using last
      exact mem_callIds_of_unanswered open_

/-- One event of the first pass, while the call ids are distinct. -/
theorem step (state : LinkState known before links)
    (passes : linkEvent links event = .ok (next, last))
    (distinct : (callIds (before ++ [last])).Nodup) :
    LinksTo known before event last ∧ LinkState known (before ++ [last]) next := by
  cases event with
  | starts role =>
    cases passes
    exact ⟨.kept rfl rfl, state.other rfl rfl⟩
  | holds role block =>
    rw [linkEvent] at passes
    cases done : linkBlock links block with
    | error =>
      rw [done] at passes
      cases passes
    | ok pair =>
      rw [done] at passes
      cases passes
      cases block with
      | toolCall id name arguments =>
        rw [linkBlock] at done
        split at done
        next missing =>
          cases done
          have unknown := nextCallId_unknown links.known links.generated
          refine ⟨.call ?_, state.call rfl rfl distinct rfl (Finset.subset_insert _ _)⟩
          rw [if_pos missing]
          exact fun member => unknown (state.known member)
        next given =>
          cases done
          exact ⟨.call (by rw [if_neg given]), state.call rfl rfl distinct rfl (Finset.Subset.refl _)⟩
      | toolResult id name content isError rawText =>
        rw [linkBlock] at done
        split at done
        · cases done
        next call found =>
          split at done
          · cases done
          next named =>
            cases done
            rw [state.pending] at found
            have earlier : (callIds before).Nodup := by
              rw [callIds, calls_snoc, List.map_append] at distinct
              exact (List.nodup_append.mp distinct).1
            refine ⟨.result found ?_, state.result rfl rfl earlier (List.mem_of_find?_eq_some found)
              rfl rfl⟩
            rcases not_and_or.mp named with empty | same
            · exact Or.inl (not_not.mp empty)
            · exact Or.inr (not_not.mp same)
      | _ =>
        cases done
        exact ⟨.kept rfl rfl, state.other rfl rfl⟩

theorem run (state : LinkState known before links)
    (passes : linkEvents links events = .ok (next, linked))
    (distinct : (callIds (before ++ linked)).Nodup) : Linked known before events linked := by
  induction events generalizing before links linked with
  | nil =>
    cases passes
    exact .nil
  | cons event events ih =>
    rw [linkEvents] at passes
    cases first : linkEvent links event with
    | error =>
      rw [first] at passes
      cases passes
    | ok pair =>
      cases rest : linkEvents pair.1 events with
      | error =>
        rw [first] at passes
        simp only [bind, Except.bind, rest] at passes
        cases passes
      | ok tail =>
        rw [first] at passes
        simp only [bind, Except.bind, rest] at passes
        cases passes
        have whole : before ++ pair.2 :: tail.2 = before ++ [pair.2] ++ tail.2 := by simp
        rw [whole] at distinct
        have front : (callIds (before ++ [pair.2])).Nodup := by
          rw [callIds, calls, List.filterMap_append, List.map_append] at distinct
          exact (List.nodup_append.mp distinct).1
        obtain ⟨becomes, after⟩ := state.step first front
        exact .cons becomes (ih after rest distinct)

theorem initially (messages : List Message) :
    LinkState (knownCallIds messages) [] ⟨[], knownCallIds messages, 0⟩ :=
  ⟨rfl, Finset.Subset.refl _, by simp [resultIds]⟩

end LinkState

/-! ## What passes -/

/-- The linked events have the calls of the given ones, and results for the same ids. -/
structure SameCalls (given linked : List HistoryEvent) : Prop where
  calls : calls given = calls linked
  results : resultIds given = resultIds linked

variable {isObject : String → Bool} {given : List HistoryEvent}

namespace SameCalls

theorem symm (same : SameCalls given linked) : SameCalls linked given :=
  ⟨same.calls.symm, same.results.symm⟩

theorem unanswered (same : SameCalls given linked) :
    Translation.unanswered given = Translation.unanswered linked := by
  rw [Translation.unanswered, same.calls, same.results, Translation.unanswered]

private theorem callIds (same : SameCalls given linked) :
    Translation.callIds given = Translation.callIds linked := by
  rw [Translation.callIds, same.calls, Translation.callIds]

theorem snoc (same : SameCalls given linked) (call : event.call = last.call)
    (result : event.result.map Prod.fst = last.result.map Prod.fst) :
    SameCalls (given ++ [event]) (linked ++ [last]) where
  calls := by rw [calls_snoc, calls_snoc, same.calls, call]
  results := by rw [resultIds_snoc, resultIds_snoc, same.results, result]

theorem fits (same : SameCalls given linked) (fits : Fits isObject given event) :
    Fits isObject linked event := by
  cases event with
  | starts role => exact fun assistant => same.unanswered ▸ fits assistant
  | holds role block =>
    cases block with
    | toolCall id name arguments => exact ⟨fits.1, fits.2.1, same.callIds ▸ fits.2.2.1, fits.2.2.2⟩
    | toolResult id name content isError rawText =>
      obtain ⟨user, callName, open_, named⟩ := fits
      exact ⟨user, callName, same.unanswered ▸ open_, named⟩
    | _ => exact fun other => same.unanswered ▸ fits other

end SameCalls

/-- A result carries the name of its call already. -/
def Named (before : List HistoryEvent) (event : HistoryEvent) : Prop :=
  ∀ result, event.result = some result → result ∈ calls before

/-- The calls so far can be told apart, and none lacks its id. -/
structure Identified (events : List HistoryEvent) : Prop where
  distinct : (callIds events).Nodup
  given : ∀ id ∈ callIds events, id ≠ ""

private theorem Identified.snoc (identified : Identified before)
    (fits : Fits isObject before event) : Identified (before ++ [event]) := by
  cases found : event.call with
  | none =>
    have sameIds : callIds (before ++ [event]) = callIds before := by
      simp [callIds, calls_snoc, found]
    exact ⟨sameIds ▸ identified.distinct, sameIds ▸ identified.given⟩
  | some call =>
    have ids : callIds (before ++ [event]) = callIds before ++ [call.1] := by
      simp [callIds, calls_snoc, found]
    have fresh : call.1 ∉ callIds before ∧ call.1 ≠ "" := by
      cases event with
      | starts => cases found
      | holds role block =>
        cases block with
        | toolCall id name arguments =>
          cases found
          obtain ⟨-, visible, fresh, -⟩ := fits
          refine ⟨fresh, ?_⟩
          rintro rfl
          exact visible (by decide +kernel)
        | _ => cases found
    refine ⟨?_, fun id member => ?_⟩
    · rw [ids, ← List.concat_eq_append]
      exact List.Nodup.concat fresh.1 identified.distinct
    · rw [ids] at member
      rcases List.mem_append.mp member with earlier | last
      · exact identified.given id earlier
      · obtain rfl : id = call.1 := by simpa using last
        exact fresh.2

namespace LinkState

/-- An event that is in order passes, and only a result may get a name. -/
private theorem passes (state : LinkState known linked links) (same : SameCalls given linked)
    (identified : Identified given) (fits : Fits isObject given event) :
    ∃ next last, linkEvent links event = .ok (next, last) ∧ event.call = last.call ∧
      event.result.map Prod.fst = last.result.map Prod.fst ∧ Fits isObject linked last ∧
      (Named given event → last = event) := by
  cases event with
  | starts role => exact ⟨links, .starts role, rfl, rfl, rfl, same.fits fits, fun _ => rfl⟩
  | holds role block =>
    cases block with
    | toolCall id name arguments =>
      have given : id ≠ "" := by
        rintro rfl
        exact fits.2.1 (by decide +kernel)
      refine ⟨{ links with pending := links.pending ++ [(id, name)] },
        .holds role (.toolCall id name arguments), ?_, rfl, rfl, same.fits fits, fun _ => rfl⟩
      rw [linkEvent, linkBlock, if_neg given]
      rfl
    | toolResult id name content isError rawText =>
      obtain ⟨user, callName, open_, named⟩ := fits
      have known := (mem_unanswered.mp open_).1
      have given : id ≠ "" := identified.given id (mem_callIds_of_unanswered open_)
      have found : links.pending.find? (answers id name) = some (id, callName) := by
        rw [state.pending, ← same.unanswered]
        cases found : (unanswered _).find? (answers id name) with
        | none =>
          have apart := List.find?_eq_none.mp found _ open_
          simp [answers, given] at apart
        | some call =>
          have own : call.1 = id := by simpa [answers, given] using List.find?_some found
          have listed := (mem_unanswered.mp (List.mem_of_find?_eq_some found)).1
          have second : (id, call.2) ∈ calls _ := own ▸ listed
          exact congrArg some (Prod.ext own (call_unique identified.distinct second known))
      refine ⟨{ links with pending := links.pending.erase (id, callName) },
        .holds role (.toolResult id callName content isError rawText), ?_, rfl, rfl,
        ⟨user, callName, same.unanswered ▸ open_, Or.inr rfl⟩, fun carries => ?_⟩
      · have agrees : ¬(name ≠ "" ∧ name ≠ callName) := by
          rintro ⟨filled, other⟩
          exact named.elim filled other
        rw [linkEvent, linkBlock, found]
        simp only [if_neg agrees]
        rfl
      · have listed : (id, name) ∈ calls _ := carries (id, name) rfl
        rw [call_unique identified.distinct listed known]
    | _ => exact ⟨links, _, rfl, rfl, rfl, same.fits fits, fun _ => rfl⟩

theorem run_passes (state : LinkState known linked links) (same : SameCalls given linked)
    (identified : Identified given)
    (fits : ∀ middle event after, events = middle ++ event :: after →
      Fits isObject (given ++ middle) event) :
    ∃ next out, linkEvents links events = .ok (next, out) ∧
      SameCalls (given ++ events) (linked ++ out) ∧
      (∀ middle event after, out = middle ++ event :: after →
        Fits isObject (linked ++ middle) event) ∧
      ((∀ middle event after, events = middle ++ event :: after → Named (given ++ middle) event) →
        out = events) := by
  induction events generalizing given linked links with
  | nil =>
    refine ⟨links, [], rfl, by simpa using same, fun middle event after whole => ?_, fun _ => rfl⟩
    simp at whole
  | cons event events ih =>
    have now : Fits isObject given event := by simpa using fits [] event events rfl
    obtain ⟨next, last, passes, call, result, fitsLast, keeps⟩ := state.passes same identified now
    have sameNow := same.snoc call result
    have identifiedNow := identified.snoc now
    have stateNow := (state.step passes (sameNow.callIds ▸ identifiedNow.distinct)).2
    obtain ⟨final, out, rest, sameRest, fitsRest, keepsRest⟩ := ih stateNow sameNow identifiedNow
      fun middle other after whole => by
        simpa using fits (event :: middle) other after (by rw [whole]; rfl)
    refine ⟨final, last :: out, ?_, by simpa using sameRest, fun middle other after whole => ?_,
      fun named => ?_⟩
    · rw [linkEvents, passes]
      simp only [bind, Except.bind, rest]
      rfl
    · cases middle with
      | nil =>
        obtain ⟨rfl, -⟩ := List.cons.inj whole
        simpa using fitsLast
      | cons head middle =>
        obtain ⟨rfl, tail⟩ := List.cons.inj whole
        simpa using fitsRest middle other after tail
    · have first : last = event := keeps (by simpa using named [] event events rfl)
      rw [first, keepsRest fun middle other after whole => ?_]
      simpa using named (event :: middle) other after (by rw [whole]; rfl)

end LinkState

end ZenithRelay.Protocol.Adapter.Translation
