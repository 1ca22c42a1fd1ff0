import ZenithRelay.Protocol.Completion

/-!
# The Messages stream checker accepts the lifecycle grammar

Each payload is one lifecycle event or none that any state accepts. A word of the
grammar is described by the positions of its events; the checker accepts exactly
these words and reports the classification of their stop reason.
-/

set_option autoImplicit false

namespace ZenithRelay.Protocol

inductive MessagesEvent where
  | messageStart
  | blockStart (index : Nat)
  | blockDelta (index : Nat)
  | blockStop (index : Nat)
  | messageDelta (reason : Option String)
  | messageStop
  /-- A ping, or a native event that the lifecycle does not know. -/
  | native
  deriving DecidableEq, Repr

namespace MessagesEvent

def isBlockEvent : MessagesEvent → Bool
  | .blockStart _ | .blockDelta _ | .blockStop _ => true
  | _ => false

/-- Block events and message deltas need a started message. -/
def needsStart : MessagesEvent → Bool
  | .messageDelta _ => true
  | event => event.isBlockEvent

/-- The event of a well-formed payload: an id, no content and no stop reason for
a start, an index and its object for a block event, a known stop reason or none
for a delta. -/
def ofPayload (payload : Json) : Option MessagesEvent := do
  let kind ← (payload.get "type").bind (·.asStr)
  if kind = "ping" then some .native
  else if kind = "error" then none
  else if kind = "message_start" then
    if MessagesStreamCompletion.startsMessage payload then some .messageStart else none
  else if kind = "content_block_start" then
    if (payload.get "content_block").any (·.isObject) then
      ((payload.get "index").bind (·.asU64)).map .blockStart
    else none
  else if kind = "content_block_delta" then
    if (payload.get "delta").any (·.isObject) then
      ((payload.get "index").bind (·.asU64)).map .blockDelta
    else none
  else if kind = "content_block_stop" then
    ((payload.get "index").bind (·.asU64)).map .blockStop
  else if kind = "message_delta" then
    if (payload.get "delta").any (·.isObject) then
      match MessagesStreamCompletion.deltaStopReason payload with
      | none => some (.messageDelta none)
      | some reason => (reason.asStr.filter
          (ResponseCompletion.fromMessagesStop · ≠ .invalid)).map (.messageDelta ∘ some)
    else none
  else if kind = "message_stop" then some .messageStop
  else if Text.startsWith kind "response." || (payload.get "choices").isSome
      || (payload.get "candidates").isSome then none
  else some .native

end MessagesEvent

open MessagesEvent

/-- The events before the message stop. -/
structure LifecycleBody (body : List MessagesEvent) (reason : String) : Prop where
  one_start : body.count .messageStart = 1
  start_first : ∀ before event after, body = before ++ event :: after → event.needsStart →
    .messageStart ∈ before
  no_stop : .messageStop ∉ body
  started_once : ∀ index, body.count (.blockStart index) ≤ 1
  stopped_once : ∀ index, body.count (.blockStop index) = body.count (.blockStart index)
  /-- Deltas and the stop of a block come while it is open. -/
  while_open : ∀ index before event after, body = before ++ event :: after →
    event = .blockDelta index ∨ event = .blockStop index →
      .blockStart index ∈ before ∧ .blockStop index ∉ before
  /-- The one stop reason comes when every block is closed; no block event follows. -/
  one_reason : ∃ before after, body = before ++ .messageDelta (some reason) :: after ∧
    (∀ other, .messageDelta (some other) ∉ before ++ after) ∧
    (∀ index, .blockStart index ∈ before → .blockStop index ∈ before) ∧
    ∀ event ∈ after, ¬event.isBlockEvent

/-- A word of the lifecycle grammar with the outcome it reports. -/
def LifecycleWord (word : List MessagesEvent) (outcome : ResponseCompletion) : Prop :=
  ∃ body reason, word = body ++ [.messageStop] ∧ LifecycleBody body reason ∧
    outcome = ResponseCompletion.fromMessagesStop reason

/-! ### Admissible events -/

/-- `event` may follow the events of `word`. -/
def Admissible (word : List MessagesEvent) : MessagesEvent → Prop
  | .messageStart => .messageStart ∉ word
  | .blockStart index => .messageStart ∈ word ∧ (∀ reason, .messageDelta (some reason) ∉ word) ∧
      .blockStart index ∉ word
  | .blockDelta index => .blockStart index ∈ word ∧ .blockStop index ∉ word ∧
      ∀ reason, .messageDelta (some reason) ∉ word
  | .blockStop index => .blockStart index ∈ word ∧ .blockStop index ∉ word ∧
      ∀ reason, .messageDelta (some reason) ∉ word
  | .messageDelta none => .messageStart ∈ word
  | .messageDelta (some _) => .messageStart ∈ word ∧
      (∀ reason, .messageDelta (some reason) ∉ word) ∧
      ∀ index, .blockStart index ∈ word → .blockStop index ∈ word
  | .messageStop => .messageStart ∈ word ∧
      (∀ index, .blockStart index ∈ word → .blockStop index ∈ word) ∧
      ∃ reason, .messageDelta (some reason) ∈ word
  | .native => True

/-- Every event is admissible where it stands, and none follows a message stop. -/
def Lifecycle (word : List MessagesEvent) : Prop :=
  ∀ before event after, word = before ++ event :: after →
    .messageStop ∉ before ∧ Admissible before event

/-- The positions of two items of a list are the same or one comes first. -/
private theorem positions_cases {Item : Type} {items first second rest other : List Item}
    {left right : Item} (whole : items = first ++ left :: rest)
    (again : items = second ++ right :: other) :
    (first = second ∧ left = right ∧ rest = other) ∨
      (∃ between, second = first ++ left :: between ∧ rest = between ++ right :: other) ∨
      ∃ between, first = second ++ right :: between ∧ other = between ++ left :: rest := by
  rw [whole] at again
  rcases List.append_eq_append_iff.mp again with ⟨middle, rfl, tail⟩ | ⟨middle, rfl, tail⟩
  · cases middle with
    | nil =>
      obtain ⟨rfl, rfl⟩ : left = right ∧ rest = other := by simpa using tail
      exact Or.inl ⟨by simp, rfl, rfl⟩
    | cons head middle =>
      obtain ⟨rfl, rfl⟩ : left = head ∧ rest = middle ++ right :: other := by simpa using tail
      exact Or.inr (Or.inl ⟨middle, rfl, rfl⟩)
  · cases middle with
    | nil =>
      obtain ⟨rfl, rfl⟩ : right = left ∧ other = rest := by simpa using tail
      exact Or.inl ⟨by simp, rfl, rfl⟩
    | cons head middle =>
      obtain ⟨rfl, rfl⟩ : right = head ∧ other = middle ++ left :: rest := by simpa using tail
      exact Or.inr (Or.inr ⟨middle, rfl, rfl⟩)

private theorem lifecycle_nil : Lifecycle [] := by
  intro before event after whole
  simp at whole

theorem lifecycle_snoc {word : List MessagesEvent} {event : MessagesEvent} :
    Lifecycle (word ++ [event]) ↔
      Lifecycle word ∧ .messageStop ∉ word ∧ Admissible word event := by
  constructor
  · intro lifecycle
    refine ⟨fun before other after whole => ?_, lifecycle word event [] rfl⟩
    exact lifecycle before other (after ++ [event]) (by simp [whole])
  · rintro ⟨earlier, open_, admissible⟩ before other after whole
    rcases List.eq_nil_or_concat after with rfl | ⟨front, last, rfl⟩
    · obtain ⟨rfl, rfl⟩ : word = before ∧ event = other := by simpa using whole
      exact ⟨open_, admissible⟩
    · rw [List.concat_eq_append, ← List.cons_append, ← List.append_assoc] at whole
      exact earlier before other front (List.append_inj_left' whole rfl)

/-- An event that is never admissible after itself occurs once at most. -/
private theorem count_le_one {word : List MessagesEvent} {event : MessagesEvent}
    (fresh : ∀ before after, word = before ++ event :: after → event ∉ before) :
    word.count event ≤ 1 := by
  induction word using List.reverseRecOn with
  | nil => simp
  | append_singleton word last ih =>
    have earlier := ih fun before after whole => fresh before (after ++ [last]) (by simp [whole])
    rw [List.count_append]
    by_cases same : last = event
    · subst same
      have absent := List.count_eq_zero.mpr (fresh word [] rfl)
      simp [absent]
    · simpa [same] using earlier

namespace Lifecycle

variable {word : List MessagesEvent}

theorem started (lifecycle : Lifecycle word) {before after : List MessagesEvent}
    {event : MessagesEvent} (whole : word = before ++ event :: after)
    (needs : event.needsStart) : .messageStart ∈ before := by
  have atBlock {index : Nat} (started : .blockStart index ∈ before) : .messageStart ∈ before := by
    obtain ⟨first, second, rfl⟩ := List.append_of_mem started
    have admissible :=
      (lifecycle first (.blockStart index) (second ++ event :: after) (by simp [whole])).2
    exact List.mem_append_left _ admissible.1
  have admissible := (lifecycle before event after whole).2
  cases event with
  | blockStart index => exact admissible.1
  | blockDelta index => exact atBlock admissible.1
  | blockStop index => exact atBlock admissible.1
  | messageDelta reason =>
    cases reason with
    | none => exact admissible
    | some reason => exact admissible.1
  | messageStart => cases needs
  | messageStop => cases needs
  | native => cases needs

theorem blockStop_mem (lifecycle : Lifecycle word) {index : Nat}
    (stopped : .blockStop index ∈ word) : .blockStart index ∈ word := by
  obtain ⟨before, after, rfl⟩ := List.append_of_mem stopped
  exact List.mem_append_left _ (lifecycle before _ after rfl).2.1

end Lifecycle

/-- A word that ends with an admissible message stop is a word of the grammar. -/
private theorem lifecycleBody_of_lifecycle {body : List MessagesEvent}
    (lifecycle : Lifecycle (body ++ [.messageStop])) :
    ∃ reason, .messageDelta (some reason) ∈ body ∧ LifecycleBody body reason := by
  obtain ⟨earlier, open_, hasStart, closed, reason, given⟩ := lifecycle_snoc.mp lifecycle
  refine ⟨reason, given, ?_⟩
  have stoppedOnce (index : Nat) : body.count (.blockStop index) ≤ 1 :=
    count_le_one fun before after whole => (earlier before _ after whole).2.2.1
  have startedOnce (index : Nat) : body.count (.blockStart index) ≤ 1 :=
    count_le_one fun before after whole => (earlier before _ after whole).2.2.2
  constructor
  · have once : body.count .messageStart ≤ 1 :=
      count_le_one fun before after whole => (earlier before _ after whole).2
    have some_ := List.one_le_count_iff.mpr hasStart
    omega
  · exact fun before event after whole needs => earlier.started whole needs
  · exact open_
  · exact startedOnce
  · intro index
    have stops := stoppedOnce index
    have starts := startedOnce index
    by_cases present : .blockStart index ∈ body
    · have one := List.one_le_count_iff.mpr present
      have other := List.one_le_count_iff.mpr (closed index present)
      omega
    · have absent : .blockStop index ∉ body := mt earlier.blockStop_mem present
      rw [List.count_eq_zero.mpr present, List.count_eq_zero.mpr absent]
  · rintro index before event after whole (rfl | rfl)
    · exact ⟨(earlier before _ after whole).2.1, (earlier before _ after whole).2.2.1⟩
    · exact ⟨(earlier before _ after whole).2.1, (earlier before _ after whole).2.2.1⟩
  · obtain ⟨before, after, rfl⟩ := List.append_of_mem given
    obtain ⟨-, -, fresh, settled⟩ := earlier before _ after rfl
    -- whatever comes after the reason has it in front of it
    have later {event : MessagesEvent} (member : event ∈ after) :
        ∃ front, .messageDelta (some reason) ∈ front ∧ Admissible front event := by
      obtain ⟨first, second, rfl⟩ := List.append_of_mem member
      refine ⟨before ++ .messageDelta (some reason) :: first, by simp, ?_⟩
      exact (earlier _ event second (by simp)).2
    refine ⟨before, after, rfl, fun other present => ?_, settled, fun event member => ?_⟩
    · rcases List.mem_append.mp present with earlierReason | laterReason
      · exact fresh other earlierReason
      · obtain ⟨front, given, admissible⟩ := later laterReason
        exact admissible.2.1 reason given
    · obtain ⟨front, given, admissible⟩ := later member
      cases event with
      | blockStart index => exact fun _ => admissible.2.1 reason given
      | blockDelta index => exact fun _ => admissible.2.2 reason given
      | blockStop index => exact fun _ => admissible.2.2 reason given
      | messageStart => exact Bool.false_ne_true
      | messageDelta other => exact Bool.false_ne_true
      | messageStop => exact Bool.false_ne_true
      | native => exact Bool.false_ne_true

/-- Every word of the grammar is admissible event by event. -/
private theorem lifecycle_of_body {body : List MessagesEvent} {reason : String}
    (valid : LifecycleBody body reason) : Lifecycle (body ++ [.messageStop]) := by
  obtain ⟨reasonBefore, reasonAfter, whole, only, settled, quiet⟩ := valid.one_reason
  have fresh {event : MessagesEvent} (once : body.count event ≤ 1)
      {before after : List MessagesEvent} (split : body = before ++ event :: after) :
      event ∉ before := by
    intro again
    have one := List.one_le_count_iff.mpr again
    rw [split, List.count_append, List.count_cons_self] at once
    omega
  -- what may still change the blocks stands in front of the reason
  have unsettled {before after : List MessagesEvent} {event : MessagesEvent}
      (split : body = before ++ event :: after)
      (open_ : event.isBlockEvent ∨ ∃ other, event = .messageDelta (some other)) :
      ∀ other, .messageDelta (some other) ∉ before := by
    intro other given
    rcases positions_cases split whole with ⟨rfl, -, -⟩ | ⟨between, front, -⟩ | ⟨between, behind, rest⟩
    · exact only other (List.mem_append_left _ given)
    · exact only other (List.mem_append_left _ (front ▸ List.mem_append_left _ given))
    · have member : event ∈ reasonAfter := by rw [rest]; simp
      rcases open_ with isBlock | ⟨again, rfl⟩
      · exact quiet event member isBlock
      · exact only again (List.mem_append_right _ member)
  have position (index : Nat) (event : MessagesEvent)
      (own : event = .blockDelta index ∨ event = .blockStop index) {before after}
      (split : body = before ++ event :: after) :
      .blockStart index ∈ before ∧ .blockStop index ∉ before ∧
        ∀ reason, .messageDelta (some reason) ∉ before := by
    obtain ⟨started, notStopped⟩ := valid.while_open index before event after split own
    refine ⟨started, notStopped, unsettled split (Or.inl ?_)⟩
    rcases own with rfl | rfl <;> rfl
  rw [lifecycle_snoc]
  refine ⟨fun before event after split => ⟨?_, ?_⟩, valid.no_stop, ?_, ?_, reason, ?_⟩
  · exact fun stopped => valid.no_stop (split ▸ List.mem_append_left _ stopped)
  · cases event with
    | messageStart => exact fresh (by rw [valid.one_start]) split
    | blockStart index =>
      exact ⟨valid.start_first before _ after split rfl, unsettled split (Or.inl rfl),
        fresh (valid.started_once index) split⟩
    | blockDelta index => exact position index _ (Or.inl rfl) split
    | blockStop index => exact position index _ (Or.inr rfl) split
    | messageDelta given =>
      have started := valid.start_first before _ after split rfl
      cases given with
      | none => exact started
      | some given =>
        have none := unsettled split (Or.inr ⟨given, rfl⟩)
        refine ⟨started, none, ?_⟩
        rcases positions_cases split whole with
          ⟨rfl, -, -⟩ | ⟨between, front, -⟩ | ⟨between, behind, rest⟩
        · exact settled
        · refine absurd ?_ (only given)
          rw [front]
          simp
        · refine absurd ?_ (only given)
          rw [rest]
          simp
    | messageStop => exact absurd (by rw [split]; simp) valid.no_stop
    | native => trivial
  · exact List.count_pos_iff.mp (by rw [valid.one_start]; exact Nat.one_pos)
  · intro index started
    have one := List.one_le_count_iff.mpr started
    rw [← valid.stopped_once index] at one
    exact List.one_le_count_iff.mp one
  · rw [whole]
    simp

/-- The words of the grammar, by position and event by event. -/
theorem lifecycleWord_iff {word : List MessagesEvent} {outcome : ResponseCompletion} :
    LifecycleWord word outcome ↔
      ∃ body reason, word = body ++ [.messageStop] ∧ Lifecycle word ∧
        .messageDelta (some reason) ∈ body ∧
        outcome = ResponseCompletion.fromMessagesStop reason := by
  constructor
  · rintro ⟨body, reason, rfl, valid, rfl⟩
    obtain ⟨before, after, whole, -⟩ := valid.one_reason
    exact ⟨body, reason, rfl, lifecycle_of_body valid, by rw [whole]; simp, rfl⟩
  · rintro ⟨body, reason, rfl, lifecycle, given, rfl⟩
    obtain ⟨other, otherGiven, valid⟩ := lifecycleBody_of_lifecycle lifecycle
    refine ⟨body, other, rfl, valid, ?_⟩
    obtain ⟨before, after, whole, only, -⟩ := valid.one_reason
    rw [whole] at given
    rcases List.mem_append.mp given with earlier | later
    · exact absurd (List.mem_append_left _ earlier) (only reason)
    · rcases List.mem_cons.mp later with same | later
      · simp only [messageDelta.injEq, Option.some.injEq] at same
        rw [same]
      · exact absurd (List.mem_append_right _ later) (only reason)

/-! ### The checker -/

namespace MessagesStreamCompletion

/-- The checker on lifecycle events. -/
def step (completion : MessagesStreamCompletion) (event : MessagesEvent) :
    Option (MessagesStreamCompletion × Option ResponseCompletion) :=
  if completion.stopped then none
  else
    match event with
    | .messageStart =>
      if completion.started then none else some ({ completion with started := true }, none)
    | .blockStart index =>
      if !completion.started || completion.stopReason.isSome
          || (completion.blocks[index]?).isSome then none
      else some ({ completion with blocks := completion.blocks.insert index false }, none)
    | .blockDelta index =>
      if completion.blocks[index]? = some false ∧ completion.stopReason = none then
        some (completion, none)
      else none
    | .blockStop index =>
      if completion.blocks[index]? = some false ∧ completion.stopReason = none then
        some ({ completion with blocks := completion.blocks.insert index true }, none)
      else none
    | .messageDelta none => if completion.started then some (completion, none) else none
    | .messageDelta (some reason) =>
      if !completion.started || completion.stopReason.isSome || completion.openBlocks then none
      else some ({ completion with stopReason := some reason }, none)
    | .messageStop =>
      if !completion.started || completion.openBlocks then none
      else completion.stopReason.map fun reason =>
        ({ completion with stopped := true },
          some (ResponseCompletion.fromMessagesStop reason))
    | .native => some (completion, none)

private theorem step_stopped {completion : MessagesStreamCompletion} (stopped : completion.stopped = true)
    (event : MessagesEvent) : completion.step event = none := by
  rw [step.eq_def, if_pos stopped]

/-- The checker reads a payload as its lifecycle event. -/
private theorem observe_eq_step (completion : MessagesStreamCompletion) (payload : Json) :
    completion.observe payload = (MessagesEvent.ofPayload payload).bind completion.step := by
  rw [observe, MessagesEvent.ofPayload]
  cases (payload.get "type").bind (·.asStr) with
  | none => rfl
  | some kind =>
    simp only [Option.bind_eq_bind, Option.bind_some]
    cases stopped : completion.stopped with
    | true =>
      have silent : completion.step = fun _ => none := funext (step_stopped stopped)
      rw [silent, Option.bind_fun_none, if_pos rfl]
    | false =>
      simp only [Bool.false_eq_true, if_false]
      by_cases ping : kind = "ping"
      · simp [ping, step, stopped]
      rw [if_neg ping, if_neg ping]
      by_cases error : kind = "error"
      · simp [error]
      rw [if_neg error, if_neg error]
      by_cases start : kind = "message_start"
      · rw [if_pos start, if_pos start]
        cases startsMessage payload <;> cases started : completion.started <;>
          simp [step, stopped, started]
      rw [if_neg start, if_neg start]
      by_cases blockStart : kind = "content_block_start"
      · rw [if_pos blockStart, if_pos blockStart]
        cases (payload.get "content_block").any (·.isObject) <;>
          cases (payload.get "index").bind (·.asU64) <;> simp [step, stopped]
      rw [if_neg blockStart, if_neg blockStart]
      by_cases blockDelta : kind = "content_block_delta"
      · subst blockDelta
        cases (payload.get "index").bind (·.asU64) with
        | none => simp
        | some index =>
          cases delta : (payload.get "delta").any (·.isObject) <;>
            cases block : completion.blocks[index]? with
            | none => simp [step, stopped, block]
            | some closed =>
              cases closed <;> cases reason : completion.stopReason <;>
                simp [step, stopped, block, reason]
      by_cases blockStop : kind = "content_block_stop"
      · subst blockStop
        cases (payload.get "index").bind (·.asU64) with
        | none => simp
        | some index =>
          cases block : completion.blocks[index]? with
          | none => simp [step, stopped, block]
          | some closed =>
            cases closed <;> cases reason : completion.stopReason <;>
              simp [step, stopped, block, reason]
      rw [if_neg (by simp [blockDelta, blockStop]), if_neg blockDelta, if_neg blockStop]
      by_cases messageDelta : kind = "message_delta"
      · rw [if_pos messageDelta, if_pos messageDelta]
        cases (payload.get "delta").any (·.isObject) with
        | false => simp
        | true =>
          cases deltaStopReason payload with
          | none => cases started : completion.started <;> simp [step, stopped, started]
          | some reason =>
            cases text : reason.asStr with
            | none => simp [text]
            | some reason =>
              by_cases known : ResponseCompletion.fromMessagesStop reason = .invalid
              · simp [text, known, Option.filter]
              · cases started : completion.started <;>
                  simp [step, stopped, started, known, text, Option.filter]
      rw [if_neg messageDelta, if_neg messageDelta]
      by_cases messageStop : kind = "message_stop"
      · rw [if_pos messageStop, if_pos messageStop]
        cases reason : completion.stopReason <;> simp [step, stopped, reason]
      rw [if_neg messageStop, if_neg messageStop]
      split <;> simp [step, stopped]

/-- The state that the checker keeps of a word. -/
structure Reads (word : List MessagesEvent) (completion : MessagesStreamCompletion) : Prop where
  started : completion.started = true ↔ .messageStart ∈ word
  blocks : ∀ index : Nat, completion.blocks[index]? =
    if .blockStart index ∈ word then some (decide (.blockStop index ∈ word)) else none
  reason : ∀ reason, completion.stopReason = some reason ↔ .messageDelta (some reason) ∈ word
  stopped : completion.stopped = true ↔ .messageStop ∈ word

private theorem unobserved_reads : Reads [] unobserved where
  started := by simp [unobserved]
  blocks := by simp [unobserved]
  reason := by simp [unobserved]
  stopped := by simp [unobserved]

variable {word : List MessagesEvent} {completion : MessagesStreamCompletion}

private theorem Reads.not_started (reads : Reads word completion) :
    completion.started = false ↔ .messageStart ∉ word := by
  rw [← reads.started, Bool.not_eq_true]

private theorem Reads.no_reason (reads : Reads word completion) :
    completion.stopReason = none ↔ ∀ reason, .messageDelta (some reason) ∉ word := by
  rw [Option.eq_none_iff_forall_ne_some]
  exact forall_congr' fun reason => not_congr (reads.reason reason)

theorem Reads.block_open (reads : Reads word completion) (index : Nat) :
    completion.blocks[index]? = some false ↔
      .blockStart index ∈ word ∧ .blockStop index ∉ word := by
  rw [reads.blocks]
  split <;> simp_all

private theorem Reads.block_none (reads : Reads word completion) (index : Nat) :
    completion.blocks[index]? = none ↔ .blockStart index ∉ word := by
  rw [reads.blocks]
  split <;> simp_all

private theorem Reads.all_closed (reads : Reads word completion) :
    completion.openBlocks = false ↔
      ∀ index, .blockStart index ∈ word → .blockStop index ∈ word := by
  rw [openBlocks, List.any_eq_false]
  constructor
  · intro closed index started
    by_contra stays
    have member := BTreeMap.mem_values_iff.mpr ⟨index, (reads.block_open index).mpr ⟨started, stays⟩⟩
    exact closed false member rfl
  · intro closed block member isOpen
    obtain ⟨index, found⟩ := BTreeMap.mem_values_iff.mp member
    obtain rfl : block = false := by simpa using isOpen
    obtain ⟨started, notStopped⟩ := (reads.block_open index).mp found
    exact notStopped (closed index started)

/-- The checker takes exactly the admissible events. -/
theorem step_isSome_iff (reads : Reads word completion) (event : MessagesEvent) :
    (completion.step event).isSome ↔ .messageStop ∉ word ∧ Admissible word event := by
  rw [step.eq_def]
  cases stopped : completion.stopped with
  | true => simp [reads.stopped.mp stopped]
  | false =>
    have open_ : .messageStop ∉ word := by rw [← reads.stopped, stopped]; simp
    simp only [Bool.false_eq_true, if_false, open_, not_false_eq_true, true_and]
    have started := reads.started
    have noReason := reads.no_reason
    have closed := reads.all_closed
    cases event with
    | messageStart =>
      rw [Admissible, ← reads.not_started]
      cases completion.started <;> simp
    | blockStart index =>
      rw [Admissible, ← started, ← noReason, ← reads.block_none]
      cases block : completion.blocks[index]? <;> cases completion.started <;>
        cases completion.stopReason <;> simp [block]
    | blockDelta index =>
      rw [Admissible, ← noReason, ← and_assoc, ← reads.block_open]
      split <;> simp_all
    | blockStop index =>
      rw [Admissible, ← noReason, ← and_assoc, ← reads.block_open]
      split <;> simp_all
    | messageDelta reason =>
      cases reason with
      | none =>
        rw [Admissible, ← started]
        cases completion.started <;> simp
      | some reason =>
        rw [Admissible, ← started, ← noReason, ← closed]
        cases completion.started <;> cases completion.stopReason <;>
          cases completion.openBlocks <;> simp
    | messageStop =>
      have given : (∃ reason, .messageDelta (some reason) ∈ word) ↔
          ∃ reason, completion.stopReason = some reason :=
        exists_congr fun reason => (reads.reason reason).symm
      rw [Admissible, ← started, ← closed, given]
      cases completion.started <;> cases completion.openBlocks <;>
        cases completion.stopReason <;> simp
    | native => simp [Admissible]

/-- A step keeps the state that the word determines. -/
private theorem step_reads (lifecycle : Lifecycle word) (reads : Reads word completion)
    {event : MessagesEvent} {next : MessagesStreamCompletion}
    {reported : Option ResponseCompletion} (taken : completion.step event = some (next, reported)) :
    Reads (word ++ [event]) next := by
  have admissible := ((step_isSome_iff reads event).mp (by rw [taken]; rfl)).2
  rw [step.eq_def] at taken
  cases stopped : completion.stopped with
  | true => simp [stopped] at taken
  | false =>
    have open_ : .messageStop ∉ word := by rw [← reads.stopped, stopped]; simp
    rw [if_neg (by rw [stopped]; exact Bool.false_ne_true)] at taken
    cases event with
    | messageStart =>
      obtain ⟨-, taken⟩ := Option.ite_none_left_eq_some.mp taken
      cases taken
      exact ⟨by simp, by simpa using reads.blocks, by simpa using reads.reason,
        by simpa using reads.stopped⟩
    | blockStart index =>
      obtain ⟨-, taken⟩ := Option.ite_none_left_eq_some.mp taken
      cases taken
      refine ⟨by simpa using reads.started, fun other => ?_, by simpa using reads.reason,
        by simpa using reads.stopped⟩
      have notStopped : .blockStop index ∉ word := mt lifecycle.blockStop_mem admissible.2.2
      by_cases same : other = index
      · subst same
        simp [notStopped]
      · simp [same, reads.blocks other]
    | blockDelta index =>
      obtain ⟨-, taken⟩ := Option.ite_none_right_eq_some.mp taken
      cases taken
      exact ⟨by simpa using reads.started, by simpa using reads.blocks,
        by simpa using reads.reason, by simpa using reads.stopped⟩
    | blockStop index =>
      obtain ⟨-, taken⟩ := Option.ite_none_right_eq_some.mp taken
      cases taken
      refine ⟨by simpa using reads.started, fun other => ?_, by simpa using reads.reason,
        by simpa using reads.stopped⟩
      by_cases same : other = index
      · subst same
        simp [admissible.1]
      · simp [same, reads.blocks other]
    | messageDelta reason =>
      cases reason with
      | none =>
        obtain ⟨-, taken⟩ := Option.ite_none_right_eq_some.mp taken
        cases taken
        exact ⟨by simpa using reads.started, by simpa using reads.blocks,
          by simpa using reads.reason, by simpa using reads.stopped⟩
      | some reason =>
        obtain ⟨-, taken⟩ := Option.ite_none_left_eq_some.mp taken
        cases taken
        refine ⟨by simpa using reads.started, by simpa using reads.blocks, fun other => ?_,
          by simpa using reads.stopped⟩
        have absent := admissible.2.1 other
        simp [absent, eq_comm]
    | messageStop =>
      obtain ⟨-, taken⟩ := Option.ite_none_left_eq_some.mp taken
      obtain ⟨reason, given, rfl, rfl⟩ : ∃ reason, completion.stopReason = some reason ∧
          { completion with stopped := true } = next ∧
          some (ResponseCompletion.fromMessagesStop reason) = reported := by
        simpa [Option.map_eq_some_iff] using taken
      exact ⟨by simpa using reads.started, by simpa using reads.blocks,
        by simpa using reads.reason, by simp⟩
    | native =>
      cases taken
      exact ⟨by simpa using reads.started, by simpa using reads.blocks,
        by simpa using reads.reason, by simpa using reads.stopped⟩

/-- Only a message stop reports, and it reports the word's stop reason. -/
private theorem step_reports (reads : Reads word completion) {event : MessagesEvent}
    {next : MessagesStreamCompletion} {reported : Option ResponseCompletion}
    (taken : completion.step event = some (next, reported)) (outcome : ResponseCompletion) :
    reported = some outcome ↔ event = .messageStop ∧ ∃ reason,
      .messageDelta (some reason) ∈ word ∧
        outcome = ResponseCompletion.fromMessagesStop reason := by
  rw [step.eq_def] at taken
  cases stopped : completion.stopped with
  | true => simp [stopped] at taken
  | false =>
    rw [if_neg (by rw [stopped]; exact Bool.false_ne_true)] at taken
    cases event with
    | messageStop =>
      obtain ⟨-, taken⟩ := Option.ite_none_left_eq_some.mp taken
      obtain ⟨reason, given, -, rfl⟩ : ∃ reason, completion.stopReason = some reason ∧
          { completion with stopped := true } = next ∧
          some (ResponseCompletion.fromMessagesStop reason) = reported := by
        simpa [Option.map_eq_some_iff] using taken
      constructor
      · rintro ⟨⟩
        exact ⟨rfl, reason, (reads.reason reason).mp given, rfl⟩
      · rintro ⟨-, other, present, rfl⟩
        have same := (reads.reason other).mpr present
        rw [given, Option.some.injEq] at same
        rw [same]
    | messageStart =>
      obtain ⟨-, taken⟩ := Option.ite_none_left_eq_some.mp taken
      cases taken
      simp
    | blockStart index =>
      obtain ⟨-, taken⟩ := Option.ite_none_left_eq_some.mp taken
      cases taken
      simp
    | blockDelta index =>
      obtain ⟨-, taken⟩ := Option.ite_none_right_eq_some.mp taken
      cases taken
      simp
    | blockStop index =>
      obtain ⟨-, taken⟩ := Option.ite_none_right_eq_some.mp taken
      cases taken
      simp
    | messageDelta reason =>
      cases reason with
      | none =>
        obtain ⟨-, taken⟩ := Option.ite_none_right_eq_some.mp taken
        cases taken
        simp
      | some reason =>
        obtain ⟨-, taken⟩ := Option.ite_none_left_eq_some.mp taken
        cases taken
        simp
    | native => cases taken; simp

/-- The checker over a stream: the state after it and what its last event reported. -/
def observeAll (completion : MessagesStreamCompletion) (payloads : List Json) :
    Option (MessagesStreamCompletion × Option ResponseCompletion) :=
  payloads.foldlM (fun (current : MessagesStreamCompletion × Option ResponseCompletion) payload =>
    current.1.observe payload) (completion, none)

/-- The last report: what the last event of an accepted stream returned. -/
private theorem observeAll_snoc (completion : MessagesStreamCompletion) (payloads : List Json)
    (payload : Json) : completion.observeAll (payloads ++ [payload]) =
      (completion.observeAll payloads).bind fun current => current.1.observe payload := by
  simp [observeAll, List.foldlM_append]

/-- The checker accepts a stream just when its events can be read and each is
admissible; then it holds the state of the word. -/
private theorem observeAll_spec (payloads : List Json) :
    match unobserved.observeAll payloads with
    | none => ∀ word, payloads.mapM MessagesEvent.ofPayload = some word → ¬Lifecycle word
    | some (completion, reported) => ∃ word,
        payloads.mapM MessagesEvent.ofPayload = some word ∧ Lifecycle word ∧
          Reads word completion ∧ ∀ outcome, reported = some outcome ↔
            ∃ body reason, word = body ++ [.messageStop] ∧ .messageDelta (some reason) ∈ body ∧
              outcome = ResponseCompletion.fromMessagesStop reason := by
  induction payloads using List.reverseRecOn with
  | nil => exact ⟨[], rfl, lifecycle_nil, unobserved_reads, by simp⟩
  | append_singleton payloads payload ih =>
    rw [observeAll_snoc]
    cases earlier : unobserved.observeAll payloads with
    | none =>
      rw [earlier] at ih
      intro word read lifecycle
      obtain ⟨front, readFront, rest, -, rfl⟩ : ∃ front, payloads.mapM MessagesEvent.ofPayload =
          some front ∧ ∃ last, MessagesEvent.ofPayload payload = some last ∧
            front ++ [last] = word := by
        simpa [List.mapM_append, Option.bind_eq_some_iff] using read
      exact ih front readFront (lifecycle_snoc.mp lifecycle).1
    | some current =>
      obtain ⟨completion, reported⟩ := current
      rw [earlier] at ih
      obtain ⟨front, readFront, lifecycle, reads, -⟩ := ih
      rw [Option.bind_some, observe_eq_step]
      cases read : MessagesEvent.ofPayload payload with
      | none =>
        intro word readWord
        simp [List.mapM_append, readFront, read] at readWord
      | some event =>
        rw [Option.bind_some]
        cases taken : completion.step event with
        | none =>
          intro word readWord valid
          obtain rfl : front ++ [event] = word := by
            simpa [List.mapM_append, readFront, read] using readWord
          have admissible := (lifecycle_snoc.mp valid).2
          have isSome := (step_isSome_iff reads event).mpr admissible
          rw [taken] at isSome
          cases isSome
        | some result =>
          obtain ⟨next, reported⟩ := result
          have admissible := (step_isSome_iff reads event).mp (by rw [taken]; rfl)
          refine ⟨front ++ [event], by simp [List.mapM_append, readFront, read],
            lifecycle_snoc.mpr ⟨lifecycle, admissible⟩, step_reads lifecycle reads taken,
            fun outcome => ?_⟩
          rw [step_reports reads taken outcome]
          constructor
          · rintro ⟨rfl, reason, given, rfl⟩
            exact ⟨front, reason, rfl, given, rfl⟩
          · rintro ⟨body, reason, same, given, rfl⟩
            obtain ⟨rfl, rfl⟩ : front = body ∧ event = .messageStop := by simpa using same
            exact ⟨rfl, reason, given, rfl⟩

/-- The checker accepts a stream and reports an outcome exactly when the stream is
a word of the lifecycle grammar with that outcome. -/
theorem accepts_iff_lifecycleWord (payloads : List Json) (outcome : ResponseCompletion) :
    (∃ completion, unobserved.observeAll payloads = some (completion, some outcome)) ↔
      ∃ word, payloads.mapM MessagesEvent.ofPayload = some word ∧ LifecycleWord word outcome := by
  have spec := observeAll_spec payloads
  constructor
  · rintro ⟨completion, accepted⟩
    rw [accepted] at spec
    obtain ⟨word, read, lifecycle, -, reports⟩ := spec
    obtain ⟨body, reason, whole, given, classified⟩ := (reports outcome).mp rfl
    exact ⟨word, read, lifecycleWord_iff.mpr ⟨body, reason, whole, lifecycle, given, classified⟩⟩
  · rintro ⟨word, read, valid⟩
    obtain ⟨body, reason, whole, lifecycle, given, classified⟩ := lifecycleWord_iff.mp valid
    cases accepted : unobserved.observeAll payloads with
    | none =>
      rw [accepted] at spec
      exact absurd lifecycle (spec word read)
    | some result =>
      obtain ⟨completion, reported⟩ := result
      rw [accepted] at spec
      obtain ⟨other, readOther, -, -, reports⟩ := spec
      cases read.symm.trans readOther
      exact ⟨completion, by rw [(reports outcome).mpr ⟨body, reason, whole, given, classified⟩]⟩

end MessagesStreamCompletion

end ZenithRelay.Protocol
