import ZenithRelay.Protocol.Adapter.Translation.ToolHistory

/-!
# Histories in order

What the second pass accepts, as a condition on every event of a history and the events
before it.
-/

set_option autoImplicit false

namespace ZenithRelay.Protocol.Adapter.Translation

/-! ## Events -/

/-- The parts of a history; a message starts before its blocks. -/
inductive HistoryEvent where
  | starts (role : Role)
  | holds (role : Role) (block : Block)

def Message.events (message : Message) : List HistoryEvent :=
  .starts message.role :: message.blocks.map (.holds message.role)

abbrev historyEvents (messages : List Message) : List HistoryEvent :=
  messages.flatMap Message.events

namespace HistoryEvent

/-- The id and the name of a call. -/
def call : HistoryEvent → Option (String × String)
  | .holds _ (.toolCall id name _) => some (id, name)
  | _ => none

/-- The id and the name of a result. -/
def result : HistoryEvent → Option (String × String)
  | .holds _ (.toolResult id name _ _ _) => some (id, name)
  | _ => none

end HistoryEvent

section

variable (events : List HistoryEvent)

def calls : List (String × String) := events.filterMap HistoryEvent.call

def callIds : List String := (calls events).map Prod.fst

def resultIds : List String := (events.filterMap HistoryEvent.result).map Prod.fst

/-- The calls whose id no result has, in order. -/
def unanswered : List (String × String) :=
  (calls events).filter fun call => call.1 ∉ resultIds events

end

/-- What an event has to meet after the events before it. -/
def Fits (isObject : String → Bool) (before : List HistoryEvent) : HistoryEvent → Prop
  | .starts role => role = .assistant → unanswered before = []
  | .holds role (.toolCall id _ arguments) =>
    role = .assistant ∧ Text.trim id ≠ "" ∧ id ∉ callIds before ∧ isObject arguments = true
  | .holds role (.toolResult id name _ _ _) =>
    role = .user ∧ ∃ callName, (id, callName) ∈ unanswered before ∧ (name = "" ∨ name = callName)
  | .holds role _ => role ≠ .assistant → unanswered before = []

/-- Calls stand in assistant messages and results in user messages; every call is answered
once, before the next assistant message and before anything else is said to it. -/
structure InOrder (isObject : String → Bool) (events : List HistoryEvent) : Prop where
  fits : ∀ before event after, events = before ++ event :: after → Fits isObject before event
  answered : unanswered events = []

private theorem blocks_cancel {role : Role} {messages others : List Message} :
    ∀ {blocks more : List Block},
      blocks.map (.holds role) ++ historyEvents messages =
        more.map (.holds role) ++ historyEvents others →
      blocks = more ∧ historyEvents messages = historyEvents others := by
  have apart (messages : List Message) (block : Block) (rest : List HistoryEvent) :
      historyEvents messages ≠ .holds role block :: rest := by
    cases messages <;> simp [historyEvents, Message.events]
  intro blocks
  induction blocks with
  | nil =>
    rintro (_ | ⟨block, more⟩) same
    · exact ⟨rfl, same⟩
    · exact absurd same (apart messages block _)
  | cons block blocks ih =>
    rintro (_ | ⟨other, more⟩) same
    · exact absurd same.symm (apart others block _)
    · obtain ⟨first, rest⟩ := List.cons.inj same
      cases first
      obtain ⟨rfl, tail⟩ := ih rest
      exact ⟨rfl, tail⟩

theorem historyEvents_injective : Function.Injective historyEvents := by
  intro messages
  induction messages with
  | nil =>
    rintro (_ | ⟨message, messages⟩) same
    · rfl
    · simp [historyEvents, Message.events] at same
  | cons message messages ih =>
    rintro (_ | ⟨other, others⟩) same
    · simp [historyEvents, Message.events] at same
    · obtain ⟨role, blocks⟩ := message
      obtain ⟨otherRole, otherBlocks⟩ := other
      obtain ⟨starts, rest⟩ := List.cons.inj same
      cases starts
      obtain ⟨rfl, tail⟩ := blocks_cancel rest
      rw [ih tail]

/-! ## One more event -/

variable {isObject : String → Bool} {events before : List HistoryEvent} {event : HistoryEvent}
  {check next : HistoryCheck} {id name : String}

theorem calls_snoc (events : List HistoryEvent) (event : HistoryEvent) :
    calls (events ++ [event]) = calls events ++ event.call.toList := by
  rw [calls, List.filterMap_append, ← calls]
  cases found : event.call <;> simp [found]

theorem resultIds_snoc (events : List HistoryEvent) (event : HistoryEvent) :
    resultIds (events ++ [event]) = resultIds events ++ (event.result.map Prod.fst).toList := by
  rw [resultIds, List.filterMap_append, List.map_append, ← resultIds]
  cases found : event.result <;> simp [found]

theorem mem_unanswered : (id, name) ∈ unanswered events ↔
    (id, name) ∈ calls events ∧ id ∉ resultIds events := by
  simp [unanswered]

/-- An event that is neither a call nor a result. -/
theorem unanswered_other (noCall : event.call = none) (noResult : event.result = none) :
    unanswered (events ++ [event]) = unanswered events := by
  simp [unanswered, calls_snoc, resultIds_snoc, noCall, noResult]

theorem unanswered_call {call : String × String} (calls_ : event.call = some call)
    (noResult : event.result = none) (fresh : call.1 ∉ resultIds events) :
    unanswered (events ++ [event]) = unanswered events ++ [call] := by
  simp [unanswered, calls_snoc, resultIds_snoc, calls_, noResult, fresh]

theorem unanswered_result {result : String × String} (noCall : event.call = none)
    (results : event.result = some result) :
    unanswered (events ++ [event]) = (unanswered events).filter (·.1 ≠ result.1) := by
  simp [unanswered, calls_snoc, resultIds_snoc, noCall, results, List.filter_filter, and_comm]

/-! ## The second pass -/

def checkEvent (isObject : String → Bool) (check : HistoryCheck) :
    HistoryEvent → Except AdapterError HistoryCheck
  | .starts role =>
    if role = .assistant ∧ !check.pending.isEmpty then .error .invalidRequest else .ok check
  | .holds role block => checkBlock isObject role check block

theorem checkMessage_eq (check : HistoryCheck) (message : Message) :
    checkMessage isObject check message = message.events.foldlM (checkEvent isObject) check := by
  rw [checkMessage, Message.events, List.foldlM_cons, checkEvent]
  split
  · rfl
  · have blocks : (message.blocks.map (.holds message.role)).foldlM (checkEvent isObject) check =
        message.blocks.foldlM (checkBlock isObject message.role) check := List.foldlM_map
    exact blocks.symm

theorem checkMessages_eq (messages : List Message) (check : HistoryCheck) :
    messages.foldlM (checkMessage isObject) check =
      (historyEvents messages).foldlM (checkEvent isObject) check := by
  induction messages generalizing check with
  | nil => rfl
  | cons message messages ih =>
    rw [List.foldlM_cons, checkMessage_eq, historyEvents, List.flatMap_cons, List.foldlM_append]
    exact bind_congr fun next => ih next

/-- What the second pass has recorded of the events so far. -/
structure Checked (events : List HistoryEvent) (check : HistoryCheck) : Prop where
  seen : ∀ id, id ∈ check.seen ↔ id ∈ callIds events
  pending : ∀ id name, check.pending[id]? = some name ↔ (id, name) ∈ unanswered events
  distinct : (callIds events).Nodup
  results : ∀ id ∈ resultIds events, id ∈ callIds events

namespace Checked

theorem isEmpty_iff (checked : Checked events check) :
    check.pending.isEmpty = true ↔ unanswered events = [] := by
  rw [Std.ExtTreeMap.isEmpty_iff, List.eq_nil_iff_forall_not_mem]
  constructor
  · rintro empty ⟨id, name⟩ member
    have held := (checked.pending id name).mpr member
    rw [empty] at held
    simp at held
  · intro none_
    refine BTreeMap.ext_lookup fun id => ?_
    cases held : check.pending[id]? with
    | none => simp
    | some name => exact absurd ((checked.pending id name).mp held) (none_ (id, name))

/-- An event that is neither a call nor a result leaves everything recorded. -/
private theorem other (checked : Checked events check) (noCall : event.call = none)
    (noResult : event.result = none) : Checked (events ++ [event]) check := by
  have sameCalls : calls (events ++ [event]) = calls events := by simp [calls_snoc, noCall]
  have sameIds : callIds (events ++ [event]) = callIds events := by rw [callIds, sameCalls, callIds]
  have sameResults : resultIds (events ++ [event]) = resultIds events := by
    simp [resultIds_snoc, noResult]
  exact ⟨by simpa [sameIds] using checked.seen,
    by simpa [unanswered_other noCall noResult] using checked.pending,
    by simpa [sameIds] using checked.distinct, by simpa [sameIds, sameResults] using checked.results⟩

/-- A recorded call. -/
private theorem call (checked : Checked events check) (calls_ : event.call = some (id, name))
    (noResult : event.result = none) (fresh : id ∉ callIds events) :
    Checked (events ++ [event]) ⟨check.pending.insert id name, insert id check.seen⟩ := by
  have ids : callIds (events ++ [event]) = callIds events ++ [id] := by
    simp [callIds, calls_snoc, calls_]
  have sameResults : resultIds (events ++ [event]) = resultIds events := by
    simp [resultIds_snoc, noResult]
  have unseen : id ∉ resultIds events := fun member => fresh (checked.results id member)
  refine ⟨fun other => ?_, fun other otherName => ?_, ?_, fun other member => ?_⟩
  · simp [ids, checked.seen, or_comm]
  · rw [unanswered_call calls_ noResult unseen, BTreeMap.lookup_insert, List.mem_append]
    by_cases same : other = id
    · subst same
      have absent : (other, otherName) ∉ unanswered events := fun member =>
        fresh (List.mem_map.mpr ⟨_, (mem_unanswered.mp member).1, rfl⟩)
      simp [absent, eq_comm]
    · simp [same, checked.pending]
  · rw [ids, ← List.concat_eq_append]
    exact List.Nodup.concat fresh checked.distinct
  · rw [sameResults] at member
    rw [ids]
    exact List.mem_append_left _ (checked.results other member)

/-- A recorded result. -/
private theorem result (checked : Checked events check) (noCall : event.call = none)
    (results : event.result = some (id, name)) (known : id ∈ callIds events) :
    Checked (events ++ [event]) { check with pending := check.pending.erase id } := by
  have sameIds : callIds (events ++ [event]) = callIds events := by
    simp [callIds, calls_snoc, noCall]
  refine ⟨by simpa [sameIds] using checked.seen, fun other otherName => ?_,
    by simpa [sameIds] using checked.distinct, fun other member => ?_⟩
  · rw [unanswered_result noCall results, BTreeMap.lookup_erase, List.mem_filter]
    by_cases same : other = id
    · simp [same]
    · simp [same, checked.pending]
  · rw [sameIds]
    rw [resultIds_snoc, results] at member
    rcases List.mem_append.mp member with earlier | last
    · exact checked.results other earlier
    · obtain rfl : other = id := by simpa using last
      exact known

/-- What passes the check of an event fits, and it is recorded. -/
theorem step (checked : Checked before check) (passes : checkEvent isObject check event = .ok next) :
    Fits isObject before event ∧ Checked (before ++ [event]) next := by
  cases event with
  | starts role =>
    rw [checkEvent] at passes
    split at passes
    · cases passes
    next free =>
      cases passes
      refine ⟨fun assistant => checked.isEmpty_iff.mp ?_, checked.other rfl rfl⟩
      simpa [assistant] using free
  | holds role block =>
    rw [checkEvent] at passes
    have spoken (passes : (if role ≠ .assistant ∧ !check.pending.isEmpty then
        .error .invalidRequest else .ok check) = (.ok next : Except AdapterError HistoryCheck)) :
        (role ≠ .assistant → unanswered before = []) ∧ next = check := by
      split at passes
      · cases passes
      next free =>
        cases passes
        refine ⟨fun other => checked.isEmpty_iff.mp ?_, rfl⟩
        simpa [other] using free
    cases block with
    | toolCall id name arguments =>
      rw [checkBlock] at passes
      split at passes
      · cases passes
      next free =>
        cases passes
        simp only [not_or, not_not, Bool.not_eq_false] at free
        obtain ⟨assistant, visible, unseen, object, -⟩ := free
        have fresh : id ∉ callIds before := fun member => unseen ((checked.seen id).mpr member)
        exact ⟨⟨assistant, visible, fresh, object⟩, checked.call rfl rfl fresh⟩
    | toolResult id name content isError rawText =>
      rw [checkBlock] at passes
      split at passes
      · cases passes
      next user =>
        split at passes
        · cases passes
        next callName found =>
          split at passes
          · cases passes
          next named =>
            cases passes
            have open_ := (checked.pending id callName).mp found
            have known : id ∈ callIds before :=
              List.mem_map.mpr ⟨_, (mem_unanswered.mp open_).1, rfl⟩
            refine ⟨⟨not_not.mp user, callName, open_, ?_⟩, checked.result rfl rfl known⟩
            rcases not_and_or.mp named with empty | same
            · exact Or.inl (not_not.mp empty)
            · exact Or.inr (not_not.mp same).symm
    | _ =>
      obtain ⟨fits, rfl⟩ := spoken passes
      exact ⟨fits, checked.other rfl rfl⟩

/-- What fits passes the check. -/
theorem passes (checked : Checked before check) (fits : Fits isObject before event) :
    ∃ next, checkEvent isObject check event = .ok next := by
  cases event with
  | starts role =>
    rw [checkEvent, if_neg]
    · exact ⟨_, rfl⟩
    · rintro ⟨assistant, open_⟩
      rw [checked.isEmpty_iff.mpr (fits assistant)] at open_
      cases open_
  | holds role block =>
    have spoken (fits : role ≠ .assistant → unanswered before = []) :
        ∃ next, (if role ≠ .assistant ∧ !check.pending.isEmpty then
          .error .invalidRequest else .ok check) = (.ok next : Except AdapterError HistoryCheck) := by
      rw [if_neg]
      · exact ⟨_, rfl⟩
      · rintro ⟨other, open_⟩
        rw [checked.isEmpty_iff.mpr (fits other)] at open_
        cases open_
    cases block with
    | toolCall id name arguments =>
      obtain ⟨assistant, visible, fresh, object⟩ := fits
      have absent : check.pending[id]? = none := by
        rw [Option.eq_none_iff_forall_ne_some]
        intro callName found
        have open_ := (checked.pending id callName).mp found
        exact fresh (List.mem_map.mpr ⟨_, (mem_unanswered.mp open_).1, rfl⟩)
      have unseen : id ∉ check.seen := fun member => fresh ((checked.seen id).mp member)
      rw [checkEvent, checkBlock, if_neg]
      · exact ⟨_, rfl⟩
      · simp [assistant, visible, unseen, object, absent]
    | toolResult id name content isError rawText =>
      obtain ⟨user, callName, open_, named⟩ := fits
      have found := (checked.pending id callName).mpr open_
      rw [checkEvent, checkBlock, if_neg (not_not.mpr user), found]
      refine ⟨_, if_neg ?_⟩
      rintro ⟨given, other⟩
      rcases named with empty | same
      · exact given empty
      · exact other same.symm
    | _ => exact spoken fits

theorem run (checked : Checked before check) :
    ∀ {events : List HistoryEvent} {final : HistoryCheck},
      events.foldlM (checkEvent isObject) check = .ok final →
      Checked (before ++ events) final ∧ ∀ middle event after, events = middle ++ event :: after →
        Fits isObject (before ++ middle) event := by
  intro events
  induction events generalizing before check with
  | nil =>
    rintro final ⟨⟩
    refine ⟨by simpa using checked, fun middle event after same => ?_⟩
    simp at same
  | cons first events ih =>
    intro final passes
    rw [List.foldlM_cons] at passes
    cases stepped : checkEvent isObject check first with
    | error => rw [stepped] at passes; cases passes
    | ok next =>
      rw [stepped] at passes
      obtain ⟨fits, recorded⟩ := checked.step stepped
      obtain ⟨last, rest⟩ := ih recorded passes
      refine ⟨by simpa using last, fun middle event after same => ?_⟩
      cases middle with
      | nil =>
        obtain ⟨rfl, -⟩ := List.cons.inj same
        simpa using fits
      | cons head middle =>
        obtain ⟨rfl, tail⟩ := List.cons.inj same
        simpa using rest middle event after tail

theorem run_passes (checked : Checked before check) {events : List HistoryEvent}
    (fits : ∀ middle event after, events = middle ++ event :: after →
      Fits isObject (before ++ middle) event) :
    ∃ final, events.foldlM (checkEvent isObject) check = .ok final := by
  induction events generalizing before check with
  | nil => exact ⟨check, rfl⟩
  | cons first events ih =>
    have now : Fits isObject before first := by simpa using fits [] first events rfl
    obtain ⟨next, passes⟩ := checked.passes now
    obtain ⟨final, rest⟩ := ih (checked.step passes).2 fun middle event after same => by
      simpa using fits (first :: middle) event after (by rw [same]; rfl)
    refine ⟨final, ?_⟩
    rw [List.foldlM_cons, passes]
    exact rest

theorem nil : Checked [] ⟨∅, ∅⟩ where
  seen := by simp [callIds, calls]
  pending := by simp [unanswered, calls]
  distinct := by simp [callIds, calls]
  results := by simp [resultIds]

end Checked

theorem InOrder.distinct (inOrder : InOrder isObject events) : (callIds events).Nodup := by
  obtain ⟨final, passes⟩ := Checked.nil.run_passes inOrder.fits
  exact (Checked.nil.run passes).1.distinct

/-- The second pass accepts the histories in order. -/
theorem validateToolHistory_iff (messages : List Message) :
    validateToolHistory isObject messages = .ok () ↔ InOrder isObject (historyEvents messages) := by
  rw [validateToolHistory, checkMessages_eq]
  cases passes : (historyEvents messages).foldlM (checkEvent isObject) ⟨∅, ∅⟩ with
  | error =>
    refine iff_of_false (fun valid => by cases valid) fun inOrder => ?_
    obtain ⟨final, accepted⟩ := Checked.nil.run_passes inOrder.fits
    rw [passes] at accepted
    cases accepted
  | ok final =>
    obtain ⟨checked, fits⟩ := Checked.nil.run passes
    have closed := checked.isEmpty_iff
    constructor
    · intro valid
      refine ⟨fits, closed.mp ?_⟩
      by_contra open_
      simp [bind, Except.bind, open_, throw, throwThe, MonadExceptOf.throw] at valid
    · intro inOrder
      have empty := closed.mpr inOrder.answered
      simp [bind, Except.bind, empty, pure, Except.pure]

end ZenithRelay.Protocol.Adapter.Translation
