import ZenithRelay.Protocol.Adapter.Translation.ToolHistoryLinks

/-!
# Resolved histories

What is accepted links every result to one earlier call and answers every call once, and a
second resolution has nothing to do. A history whose ids are all there is accepted exactly
when it is in order.
-/

set_option autoImplicit false

namespace ZenithRelay.Protocol.Adapter.Translation

variable {isObject : String → Bool} {events given linked before : List HistoryEvent}
  {event last : HistoryEvent} {messages resolved : List Message} {known : Finset String}
  {position other : Nat} {id name otherName : String}

/-! ## Positions -/

abbrev CallAt (events : List HistoryEvent) (position : Nat) (id name : String) : Prop :=
  events[position]?.bind HistoryEvent.call = some (id, name)

abbrev ResultAt (events : List HistoryEvent) (position : Nat) (id name : String) : Prop :=
  events[position]?.bind HistoryEvent.result = some (id, name)

private theorem mem_filterMap_take {Item Seen : Type} (view : Item → Option Seen)
    (items : List Item) (count : Nat) (seen : Seen) :
    seen ∈ (items.take count).filterMap view ↔
      ∃ position < count, items[position]?.bind view = some seen := by
  rw [List.mem_filterMap]
  constructor
  · rintro ⟨item, member, shown⟩
    obtain ⟨position, found⟩ := List.mem_iff_getElem?.mp member
    rw [List.getElem?_take] at found
    obtain ⟨below, found⟩ := Option.ite_none_right_eq_some.mp found
    exact ⟨position, below, by rw [found]; exact shown⟩
  · rintro ⟨position, below, shown⟩
    obtain ⟨item, found, shown⟩ := Option.bind_eq_some_iff.mp shown
    refine ⟨item, List.mem_iff_getElem?.mpr ⟨position, ?_⟩, shown⟩
    rw [List.getElem?_take, if_pos below, found]

theorem mem_calls_take {count : Nat} :
    (id, name) ∈ calls (events.take count) ↔ ∃ position < count, CallAt events position id name :=
  mem_filterMap_take HistoryEvent.call events count (id, name)

theorem mem_resultIds_take {count : Nat} : id ∈ resultIds (events.take count) ↔
    ∃ position < count, ∃ name, ResultAt events position id name := by
  rw [resultIds, List.mem_map]
  constructor
  · rintro ⟨⟨_, name⟩, member, rfl⟩
    obtain ⟨position, below, found⟩ := (mem_filterMap_take _ _ _ _).mp member
    exact ⟨position, below, name, found⟩
  · rintro ⟨position, below, name, found⟩
    exact ⟨(id, name), (mem_filterMap_take _ _ _ _).mpr ⟨position, below, found⟩, rfl⟩

namespace InOrder

theorem fits_at (inOrder : InOrder isObject events) (found : events[position]? = some event) :
    Fits isObject (events.take position) event := by
  obtain ⟨below, rfl⟩ := List.getElem?_eq_some_iff.mp found
  refine inOrder.fits _ _ (events.drop (position + 1)) ?_
  rw [← List.drop_eq_getElem_cons below, List.take_append_drop]

private theorem call_at (inOrder : InOrder isObject events) (call : CallAt events position id name) :
    Text.trim id ≠ "" ∧ id ∉ callIds (events.take position) := by
  obtain ⟨event, found, calls_⟩ := Option.bind_eq_some_iff.mp call
  have fits := inOrder.fits_at found
  cases event with
  | starts => cases calls_
  | holds role block =>
    cases block with
    | toolCall =>
      cases calls_
      exact ⟨fits.2.1, fits.2.2.1⟩
    | _ => cases calls_

private theorem result_at (inOrder : InOrder isObject events)
    (result : ResultAt events position id name) :
    ∃ callName, (id, callName) ∈ unanswered (events.take position) := by
  obtain ⟨event, found, results⟩ := Option.bind_eq_some_iff.mp result
  have fits := inOrder.fits_at found
  cases event with
  | starts => cases results
  | holds role block =>
    cases block with
    | toolResult =>
      cases results
      obtain ⟨-, callName, open_, -⟩ := fits
      exact ⟨callName, open_⟩
    | _ => cases results

private theorem call_not_before (inOrder : InOrder isObject events)
    (first : CallAt events position id name) (second : CallAt events other id otherName) :
    ¬position < other := by
  intro earlier
  have member := mem_calls_take.mpr ⟨position, earlier, first⟩
  exact (inOrder.call_at second).2 (List.mem_map.mpr ⟨_, member, rfl⟩)

theorem call_once (inOrder : InOrder isObject events) (first : CallAt events position id name)
    (second : CallAt events other id otherName) : position = other := by
  have := inOrder.call_not_before first second
  have := inOrder.call_not_before second first
  omega

private theorem result_not_before (inOrder : InOrder isObject events)
    (first : ResultAt events position id name) (second : ResultAt events other id otherName) :
    ¬position < other := by
  intro earlier
  obtain ⟨callName, open_⟩ := inOrder.result_at second
  exact (mem_unanswered.mp open_).2 (mem_resultIds_take.mpr ⟨position, earlier, name, first⟩)

theorem result_once (inOrder : InOrder isObject events) (first : ResultAt events position id name)
    (second : ResultAt events other id otherName) : position = other := by
  have := inOrder.result_not_before first second
  have := inOrder.result_not_before second first
  omega

end InOrder

/-! ## Matched calls and results -/

/-- The call has its one result at `later`, before the next assistant message. -/
structure Answered (events : List HistoryEvent) (position : Nat) (id name : String) (later : Nat) :
    Prop where
  after : position < later
  result : ResultAt events later id name
  only : ∀ other otherName, ResultAt events other id otherName → other = later
  turn : ∀ between, position < between → between < later →
    events[between]? ≠ some (.starts .assistant)

structure Matched (events : List HistoryEvent) : Prop where
  visible : ∀ id ∈ callIds events, Text.trim id ≠ ""
  distinct : (callIds events).Nodup
  carried : ∀ position id name, ResultAt events position id name →
    ∃ earlier < position, CallAt events earlier id name ∧
      ∀ other otherName, CallAt events other id otherName → other = earlier
  answered : ∀ position id name, CallAt events position id name →
    ∃ later, Answered events position id name later

/-- Every result carries the name of its call. -/
def AllNamed (events : List HistoryEvent) : Prop :=
  ∀ before event after, events = before ++ event :: after → Named before event

private theorem AllNamed.named_at (named : AllNamed events) (result : ResultAt events position id name) :
    (id, name) ∈ calls (events.take position) := by
  obtain ⟨event, found, results⟩ := Option.bind_eq_some_iff.mp result
  obtain ⟨below, rfl⟩ := List.getElem?_eq_some_iff.mp found
  refine named _ _ (events.drop (position + 1)) ?_ _ results
  rw [← List.drop_eq_getElem_cons below, List.take_append_drop]

theorem InOrder.matched (inOrder : InOrder isObject events) (named : AllNamed events) :
    Matched events where
  visible id member := by
    obtain ⟨⟨_, name⟩, listed, rfl⟩ := List.mem_map.mp member
    rw [← events.take_length] at listed
    obtain ⟨position, -, call⟩ := mem_calls_take.mp listed
    exact (inOrder.call_at call).1
  distinct := inOrder.distinct
  carried position id name result := by
    obtain ⟨earlier, below, call⟩ := mem_calls_take.mp (named.named_at result)
    exact ⟨earlier, below, call, fun other otherName second => inOrder.call_once second call⟩
  answered position id name call := by
    have answered : id ∈ resultIds events := by
      by_contra open_
      have listed : (id, name) ∈ calls (events.take events.length) := by
        obtain ⟨event, found, -⟩ := Option.bind_eq_some_iff.mp call
        exact mem_calls_take.mpr ⟨position, (List.getElem?_eq_some_iff.mp found).1, call⟩
      rw [events.take_length] at listed
      have member := mem_unanswered.mpr ⟨listed, open_⟩
      rw [inOrder.answered] at member
      cases member
    rw [← events.take_length] at answered
    obtain ⟨later, -, callName, result⟩ := mem_resultIds_take.mp answered
    obtain ⟨earlier, below, own⟩ := mem_calls_take.mp (named.named_at result)
    obtain rfl : earlier = position := inOrder.call_once own call
    obtain ⟨-, rfl⟩ := Prod.mk.inj (Option.some.inj (own.symm.trans call))
    refine ⟨later, below, result, fun other otherName second => inOrder.result_once second result,
      fun between after before starts => ?_⟩
    have closed : unanswered (events.take between) = [] := inOrder.fits_at starts rfl
    have unfinished : id ∉ resultIds (events.take between) := by
      rw [mem_resultIds_take]
      rintro ⟨other, earlier, otherName, second⟩
      have := inOrder.result_once second result
      omega
    have member := mem_unanswered.mpr ⟨mem_calls_take.mpr ⟨_, after, call⟩, unfinished⟩
    rw [closed] at member
    cases member

/-! ## Linked histories -/

private theorem LinksTo.named (becomes : LinksTo known before event last) : Named before last := by
  intro result found
  cases becomes with
  | kept noCall noResult =>
    rw [noResult] at found
    cases found
  | call => cases found
  | result chosen =>
    cases found
    exact (mem_unanswered.mp (List.mem_of_find?_eq_some chosen)).1

private theorem Linked.named (links : Linked known before given linked) :
    ∀ middle event after, linked = middle ++ event :: after → Named (before ++ middle) event := by
  induction links with
  | nil =>
    intro middle event after whole
    simp at whole
  | cons first _ ih =>
    intro middle event after whole
    cases middle with
    | nil =>
      obtain ⟨rfl, -⟩ := List.cons.inj whole
      simpa using first.named
    | cons head middle =>
      obtain ⟨rfl, tail⟩ := List.cons.inj whole
      simpa using ih middle event after tail

/-- No call and no result lacks its id. -/
def AllGiven (events : List HistoryEvent) : Prop :=
  (∀ id ∈ callIds events, id ≠ "") ∧ ∀ id ∈ resultIds events, id ≠ ""

/-- An event whose id is there fits when what it became fits. -/
private theorem LinksTo.fits (becomes : LinksTo known linked event last)
    (same : SameCalls given linked) (all : AllGiven [event]) (fits : Fits isObject linked last) :
    event.call = last.call ∧ event.result.map Prod.fst = last.result.map Prod.fst ∧
      Fits isObject given event := by
  cases becomes with
  | kept => exact ⟨rfl, rfl, same.symm.fits fits⟩
  | @call role id given name arguments identified =>
    have present : id ≠ "" := all.1 id (by simp [callIds, calls, HistoryEvent.call])
    rw [if_neg present] at identified
    subst identified
    exact ⟨rfl, rfl, same.symm.fits fits⟩
  | @result role id name content isError rawText call chosen named =>
    have present : id ≠ "" := all.2 id (by simp [resultIds, HistoryEvent.result])
    have own : call.1 = id := by simpa [answers, present] using List.find?_some chosen
    have open_ := List.mem_of_find?_eq_some chosen
    refine ⟨rfl, by rw [← own]; rfl, ?_⟩
    have moved : Fits isObject given
        (.holds role (.toolResult id name content isError rawText)) :=
      same.symm.fits ⟨fits.1, call.2, own ▸ open_, named⟩
    exact moved

private theorem Linked.fits (links : Linked known before events linked)
    (same : SameCalls given before) (all : AllGiven events)
    (fits : ∀ middle event after, linked = middle ++ event :: after →
      Fits isObject (before ++ middle) event) :
    SameCalls (given ++ events) (before ++ linked) ∧
      ∀ middle event after, events = middle ++ event :: after →
        Fits isObject (given ++ middle) event := by
  induction links generalizing given with
  | nil =>
    refine ⟨by simpa using same, fun middle event after whole => ?_⟩
    simp at whole
  | @cons before events linked event last first rest ih =>
    have now : Fits isObject before last := by simpa using fits [] last linked rfl
    have split : AllGiven [event] ∧ AllGiven events := by
      have whole : event :: events = [event] ++ events := rfl
      rw [whole] at all
      simp only [AllGiven, callIds, calls, resultIds, List.filterMap_append, List.map_append,
        List.mem_append] at all ⊢
      exact ⟨⟨fun id member => all.1 id (Or.inl member), fun id member => all.2 id (Or.inl member)⟩,
        fun id member => all.1 id (Or.inr member), fun id member => all.2 id (Or.inr member)⟩
    obtain ⟨call, result, fitsEvent⟩ := first.fits same split.1 now
    obtain ⟨sameRest, fitsRest⟩ := ih (same.snoc call result) split.2 fun middle other after whole => by
      simpa using fits (last :: middle) other after (by rw [whole]; rfl)
    refine ⟨by simpa using sameRest, fun middle other after whole => ?_⟩
    cases middle with
    | nil =>
      obtain ⟨rfl, -⟩ := List.cons.inj whole
      simpa using fitsEvent
    | cons head middle =>
      obtain ⟨rfl, tail⟩ := List.cons.inj whole
      simpa using fitsRest middle other after tail

/-! ## Resolution -/

private theorem resolveToolHistory_iff : resolveToolHistory isObject messages = .ok resolved ↔
    ∃ links, linkMessages ⟨[], knownCallIds messages, 0⟩ messages = .ok (links, resolved) ∧
      validateToolHistory isObject resolved = .ok () := by
  rw [resolveToolHistory]
  cases linked : linkMessages ⟨[], knownCallIds messages, 0⟩ messages with
  | error =>
    refine iff_of_false (fun same => by cases same) ?_
    rintro ⟨_, ⟨⟩, -⟩
  | ok pair =>
    obtain ⟨links, messages⟩ := pair
    cases valid : validateToolHistory isObject messages with
    | error =>
      simp only [bind, Except.bind, valid]
      refine iff_of_false (fun same => by cases same) ?_
      rintro ⟨_, ⟨⟩, accepted⟩
      rw [valid] at accepted
      cases accepted
    | ok =>
      simp only [bind, Except.bind, valid]
      constructor
      · rintro ⟨⟩
        exact ⟨links, rfl, valid⟩
      · rintro ⟨_, ⟨⟩, -⟩
        rfl

/-- A history in order is accepted, as it is when the results carry the names. -/
private theorem InOrder.accepted (inOrder : InOrder isObject (historyEvents messages)) :
    ∃ resolved, resolveToolHistory isObject messages = .ok resolved ∧
      (AllNamed (historyEvents messages) → resolved = messages) := by
  obtain ⟨next, out, passes, same, fits, keeps⟩ :=
    (LinkState.initially messages).run_passes ⟨rfl, rfl⟩
      ⟨by simp [callIds, calls], by simp [callIds, calls]⟩ inOrder.fits
  rw [linkMessages_eq] at passes
  cases linked : linkMessages ⟨[], knownCallIds messages, 0⟩ messages with
  | error =>
    rw [linked] at passes
    cases passes
  | ok pair =>
    rw [linked] at passes
    cases passes
    have valid : InOrder isObject (historyEvents pair.2) :=
      ⟨fits, (same.unanswered).symm.trans inOrder.answered⟩
    refine ⟨pair.2, resolveToolHistory_iff.mpr ⟨pair.1, linked, ?_⟩, fun named => ?_⟩
    · exact (validateToolHistory_iff pair.2).mpr valid
    · exact historyEvents_injective (keeps named)

/-- The results are linked, every call is matched, and the rest is as it was. -/
structure Resolved (messages resolved : List Message) : Prop where
  linked : Linked (knownCallIds messages) [] (historyEvents messages) (historyEvents resolved)
  matched : Matched (historyEvents resolved)

/-- What is accepted is resolved, once and for all. A history in order is accepted, and one
that lacks no id only when it is in order. -/
theorem resolveToolHistory_resolved (isObject : String → Bool) (messages : List Message) :
    (∀ resolved, resolveToolHistory isObject messages = .ok resolved →
      Resolved messages resolved ∧ resolveToolHistory isObject resolved = .ok resolved) ∧
    (InOrder isObject (historyEvents messages) →
      ∃ resolved, resolveToolHistory isObject messages = .ok resolved) ∧
    (AllGiven (historyEvents messages) → ∀ resolved,
      resolveToolHistory isObject messages = .ok resolved →
        InOrder isObject (historyEvents messages)) := by
  have links (resolved : List Message)
      (accepted : resolveToolHistory isObject messages = .ok resolved) :
      InOrder isObject (historyEvents resolved) ∧
        Linked (knownCallIds messages) [] (historyEvents messages) (historyEvents resolved) := by
    obtain ⟨links, passes, valid⟩ := resolveToolHistory_iff.mp accepted
    have inOrder := (validateToolHistory_iff resolved).mp valid
    have events : linkEvents ⟨[], knownCallIds messages, 0⟩ (historyEvents messages) =
        .ok (links, historyEvents resolved) := by
      rw [linkMessages_eq, passes]
      rfl
    exact ⟨inOrder, (LinkState.initially messages).run events (by simpa using inOrder.distinct)⟩
  refine ⟨fun resolved accepted => ?_, fun inOrder => ?_, fun all resolved accepted => ?_⟩
  · obtain ⟨inOrder, linked⟩ := links resolved accepted
    have named : AllNamed (historyEvents resolved) := fun middle event after whole => by
      simpa using linked.named middle event after whole
    obtain ⟨again, second, same⟩ := inOrder.accepted
    rw [same named] at second
    exact ⟨⟨linked, inOrder.matched named⟩, second⟩
  · obtain ⟨resolved, accepted, -⟩ := inOrder.accepted
    exact ⟨resolved, accepted⟩
  · obtain ⟨inOrder, linked⟩ := links resolved accepted
    obtain ⟨same, fits⟩ := linked.fits ⟨rfl, rfl⟩ all inOrder.fits
    exact ⟨fits, same.unanswered.trans inOrder.answered⟩

/-- A call without an id, and a result that guesses the id. -/
def guessedHistory : List Message :=
  [⟨.assistant, [.toolCall "" "find" "\x7b\x7d"]⟩, ⟨.user, [.toolResult "call_relay_0" "" [] false false]⟩]

/-- A call, and a text before its result. -/
def interruptedHistory : List Message :=
  [⟨.assistant, [.toolCall "a" "find" "\x7b\x7d"]⟩,
    ⟨.user, [.text "wait", .toolResult "a" "find" [] false false]⟩]

private theorem guessedHistory_resolved : resolveToolHistory (fun _ => true) guessedHistory =
    .ok [⟨.assistant, [.toolCall "call_relay_0" "find" "\x7b\x7d"]⟩,
      ⟨.user, [.toolResult "call_relay_0" "find" [] false false]⟩] := by
  have known : knownCallIds guessedHistory = {""} := by decide +kernel
  have first : nextCallId {""} 0 = ("call_relay_0", 1) := by
    rw [nextCallId, if_neg (by decide +kernel)]
    rfl
  refine resolveToolHistory_iff.mpr ⟨⟨[], insert "call_relay_0" {""}, 1⟩, ?_, by decide +kernel⟩
  rw [known]
  simp [guessedHistory, linkMessages, linkBlocks, linkBlock, first, answers, bind, Except.bind, pure,
    Except.pure]

/-- The call without an id is named so that the result belongs to it. -/
theorem guessedHistory_matched : Resolved guessedHistory
    [⟨.assistant, [.toolCall "call_relay_0" "find" "\x7b\x7d"]⟩,
      ⟨.user, [.toolResult "call_relay_0" "find" [] false false]⟩] :=
  ((resolveToolHistory_resolved _ _).1 _ guessedHistory_resolved).1

private theorem interruptedHistory_call
    (call : CallAt (historyEvents interruptedHistory) position id name) :
    position = 1 ∧ id = "a" ∧ name = "find" := by
  rcases position with _ | _ | _ | _ | _ | position
  all_goals
    simp [CallAt, interruptedHistory, historyEvents, Message.events, HistoryEvent.call] at call ⊢
  exact ⟨call.1.symm, call.2.symm⟩

private theorem interruptedHistory_result
    (result : ResultAt (historyEvents interruptedHistory) position id name) :
    position = 4 ∧ id = "a" ∧ name = "find" := by
  rcases position with _ | _ | _ | _ | _ | position
  all_goals
    simp [ResultAt, interruptedHistory, historyEvents, Message.events, HistoryEvent.result] at result ⊢
  exact ⟨result.1.symm, result.2.symm⟩

private theorem interruptedHistory_matched : Matched (historyEvents interruptedHistory) where
  visible := by decide +kernel
  distinct := by decide +kernel
  carried position id name result := by
    obtain ⟨rfl, rfl, rfl⟩ := interruptedHistory_result result
    exact ⟨1, by decide, rfl, fun other otherName call => (interruptedHistory_call call).1⟩
  answered position id name call := by
    obtain ⟨rfl, rfl, rfl⟩ := interruptedHistory_call call
    refine ⟨4, by decide, rfl, fun other otherName result => (interruptedHistory_result result).1,
      fun between after before => ?_⟩
    obtain rfl | rfl : between = 2 ∨ between = 3 := by omega
    all_goals simp [interruptedHistory, historyEvents, Message.events]

/-- An id that is given out may be the one that a result of the input has, and a text before
a result is refused although the calls and the results match. -/
theorem results_not_reserved_and_texts_refused :
    (¬∀ isObject messages resolved, resolveToolHistory isObject messages = .ok resolved →
      ∀ position name given, CallAt (historyEvents messages) position "" name →
        CallAt (historyEvents resolved) position given name →
          given ∉ callIds (historyEvents messages) ∧ given ∉ resultIds (historyEvents messages)) ∧
    ¬∀ isObject messages, Matched (historyEvents messages) →
      ∃ resolved, resolveToolHistory isObject messages = .ok resolved := by
  refine ⟨fun claimed => ?_, fun claimed => ?_⟩
  · have apart := claimed _ _ _ guessedHistory_resolved 1 "find" "call_relay_0" rfl rfl
    exact apart.2 (by decide +kernel)
  · obtain ⟨resolved, accepted⟩ := claimed (fun _ => true) _ interruptedHistory_matched
    have refused : (resolveToolHistory (fun _ => true) interruptedHistory).isOk = false := by
      decide +kernel
    rw [accepted] at refused
    cases refused

end ZenithRelay.Protocol.Adapter.Translation
