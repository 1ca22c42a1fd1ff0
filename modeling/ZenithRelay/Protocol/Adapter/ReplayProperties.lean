import ZenithRelay.Protocol.Adapter.Replay

/-!
# Properties of the replay of native Responses history

Over a chain of turns of any length, a replayed request carries every client input and
every output in order, and nothing of an earlier request but its history.
-/

set_option autoImplicit false

namespace ZenithRelay.Protocol.Adapter

/-! ### Calls and outputs -/

/-- The item calls a tool. -/
def Calls (inputItem : Json) (kind callId : String) : Prop :=
  itemKind inputItem = some kind ∧ outputCallKind kind = none ∧
    Text.endsWith kind "_call" = true ∧ itemCallId inputItem = some callId

/-- The item is the output of a tool, for a call of this kind. -/
def OutputFor (inputItem : Json) (callKind : String) : Prop :=
  (itemKind inputItem).bind outputCallKind = some callKind

def Answers (inputItem : Json) (callKind callId : String) : Prop :=
  OutputFor inputItem callKind ∧ itemCallId inputItem = some callId

/-- An item of the list calls, and no later item consumes the call. -/
def Open (inputItems : List Json) (kind callId : String) : Prop :=
  ∃ before call after, inputItems = before ++ call :: after ∧ Calls call kind callId ∧
    ∀ later ∈ after, ¬Answers later kind callId

/-- Every output answers an earlier call that no output between them consumed. -/
def OutputsAnswered (inputItems : List Json) : Prop :=
  ∀ before output after callKind, inputItems = before ++ output :: after →
    OutputFor output callKind →
    ∃ callId, itemCallId output = some callId ∧ Open before callKind callId

private theorem open_nil (kind callId : String) : ¬Open [] kind callId := by
  rintro ⟨before, call, after, split, _⟩
  cases before <;> cases split

theorem open_snoc {inputItems : List Json} {item : Json} {kind callId : String} :
    Open (inputItems ++ [item]) kind callId ↔
      Calls item kind callId ∨ Open inputItems kind callId ∧ ¬Answers item kind callId := by
  constructor
  · rintro ⟨before, call, after, split, calls, unanswered⟩
    obtain rfl | ⟨after, last, rfl⟩ := List.eq_nil_or_concat after
    · obtain ⟨_, same⟩ := List.append_inj' split rfl
      injection same with same
      exact .inl (same ▸ calls)
    · rw [List.concat_eq_append, ← List.cons_append, ← List.append_assoc] at split
      obtain ⟨rest, same⟩ := List.append_inj' split rfl
      injection same with same
      subst same
      rw [List.concat_eq_append] at unanswered
      exact .inr ⟨⟨before, call, after, rest, calls,
        fun later member => unanswered later (List.mem_append_left _ member)⟩,
        unanswered item (List.mem_append_right _ List.mem_cons_self)⟩
  · rintro (calls | ⟨⟨before, call, after, rest, calls, unanswered⟩, unconsumed⟩)
    · exact ⟨inputItems, item, [], rfl, calls, nofun⟩
    · refine ⟨before, call, after ++ [item], ?_, calls, ?_⟩
      · rw [rest, List.append_assoc, List.cons_append]
      · intro later member
        cases List.mem_append.mp member with
        | inl earlier => exact unanswered later earlier
        | inr last => exact List.mem_singleton.mp last ▸ unconsumed

theorem outputsAnswered_nil : OutputsAnswered [] := by
  intro before output after callKind split
  cases before <;> cases split

theorem outputsAnswered_snoc {inputItems : List Json} {item : Json}
    (answered : OutputsAnswered inputItems)
    (last : ∀ callKind, OutputFor item callKind →
      ∃ callId, itemCallId item = some callId ∧ Open inputItems callKind callId) :
    OutputsAnswered (inputItems ++ [item]) := by
  intro before output after callKind split isOutput
  obtain rfl | ⟨after, final, rfl⟩ := List.eq_nil_or_concat after
  · obtain ⟨same, sameItem⟩ := List.append_inj' split rfl
    injection sameItem with sameItem
    subst same sameItem
    exact last callKind isOutput
  · rw [List.concat_eq_append, ← List.cons_append, ← List.append_assoc] at split
    obtain ⟨rest, _⟩ := List.append_inj' split rfl
    exact answered before output after callKind rest isOutput

/-- What one item does to the open calls. -/
private theorem followCalls_cases {calls after : Finset (String × String)} {item : Json}
    (followed : followCalls calls item = some after) :
    (∃ callKind callId, Answers item callKind callId ∧ (callKind, callId) ∈ calls ∧
      after = calls.erase (callKind, callId)) ∨
    (∀ callKind, ¬OutputFor item callKind) ∧
      ((∃ kind callId, Calls item kind callId ∧ after = insert (kind, callId) calls) ∨
        (∀ kind callId, ¬Calls item kind callId) ∧ after = calls) := by
  unfold followCalls at followed
  unfold Answers OutputFor Calls
  cases kindOf : itemKind item with
  | none =>
      rw [kindOf] at followed
      cases followed
      exact .inr ⟨nofun, .inr ⟨nofun, rfl⟩⟩
  | some kind =>
      rw [kindOf] at followed
      dsimp only at followed
      rw [Option.bind_some]
      cases callKindOf : outputCallKind kind with
      | some callKind =>
          rw [callKindOf] at followed
          dsimp only at followed
          cases idOf : itemCallId item with
          | none => rw [idOf] at followed; cases followed
          | some callId =>
              rw [idOf] at followed
              dsimp only at followed
              split at followed
              next present =>
                cases followed
                exact .inl ⟨callKind, callId, ⟨rfl, rfl⟩, present, rfl⟩
              next => cases followed
      | none =>
          rw [callKindOf] at followed
          dsimp only at followed
          refine .inr ⟨nofun, ?_⟩
          split at followed
          next isCall =>
            cases idOf : itemCallId item with
            | none =>
                rw [idOf] at followed
                cases followed
                exact .inr ⟨fun _ _ calls => (by cases calls.2.2.2), rfl⟩
            | some callId =>
                rw [idOf] at followed
                cases followed
                exact .inl ⟨kind, callId, ⟨rfl, callKindOf, isCall, rfl⟩, rfl⟩
          next noCall =>
            cases followed
            refine .inr ⟨?_, rfl⟩
            rintro other callId ⟨same, _, isCall, _⟩
            injection same with same
            exact noCall (same ▸ isCall)

/-- The set that the loop keeps is that of the open calls. -/
private theorem followed_open (inputItems : List Json) : ∀ {calls : Finset (String × String)},
    inputItems.foldlM followCalls ∅ = some calls →
    OutputsAnswered inputItems ∧
      ∀ kind callId, (kind, callId) ∈ calls ↔ Open inputItems kind callId := by
  induction inputItems using List.reverseRecOn with
  | nil =>
      intro calls followed
      cases followed
      exact ⟨outputsAnswered_nil, fun kind callId =>
        ⟨fun member => absurd member (Finset.notMem_empty _), fun opened => absurd opened (open_nil _ _)⟩⟩
  | append_singleton inputItems item ih =>
      intro after followed
      rw [List.foldlM_append] at followed
      obtain ⟨calls, earlier, last⟩ := Option.bind_eq_some_iff.mp followed
      obtain ⟨answered, opened⟩ := ih earlier
      rw [List.foldlM_cons] at last
      obtain ⟨next, last, same⟩ := Option.bind_eq_some_iff.mp last
      cases same
      obtain ⟨callKind, callId, answers, present, rfl⟩ | ⟨noOutput, rest⟩ := followCalls_cases last
      · have noCall : ∀ kind id, ¬Calls item kind id := by
          rintro kind id ⟨kindOf, isNone, _⟩
          have isSome := answers.1
          unfold OutputFor at isSome
          rw [kindOf, Option.bind_some, isNone] at isSome
          cases isSome
        refine ⟨outputsAnswered_snoc answered fun kind output => ?_, fun kind id => ?_⟩
        · have same : kind = callKind := Option.some_inj.mp (output.symm.trans answers.1)
          exact ⟨callId, answers.2, same ▸ (opened callKind callId).mp present⟩
        · rw [open_snoc, Finset.mem_erase, opened]
          constructor
          · rintro ⟨differ, stillOpen⟩
            refine .inr ⟨stillOpen, fun consumed => differ ?_⟩
            have sameKind := Option.some_inj.mp (consumed.1.symm.trans answers.1)
            have sameId := Option.some_inj.mp (consumed.2.symm.trans answers.2)
            rw [sameKind, sameId]
          · rintro (calls | ⟨stillOpen, unconsumed⟩)
            · exact absurd calls (noCall kind id)
            · refine ⟨fun same => unconsumed ?_, stillOpen⟩
              injection same with sameKind sameId
              exact sameKind ▸ sameId ▸ answers
      · have unconsumed : ∀ kind id, ¬Answers item kind id :=
          fun kind id answers => noOutput kind answers.1
        refine ⟨outputsAnswered_snoc answered fun kind output => absurd output (noOutput kind),
          fun kind id => ?_⟩
        obtain ⟨callKind, callId, isCall, rfl⟩ | ⟨noCall, rfl⟩ := rest
        · rw [open_snoc, Finset.mem_insert, opened]
          constructor
          · rintro (same | stillOpen)
            · injection same with sameKind sameId
              exact .inl (sameKind ▸ sameId ▸ isCall)
            · exact .inr ⟨stillOpen, unconsumed kind id⟩
          · rintro (calls | ⟨stillOpen, _⟩)
            · have sameKind := Option.some_inj.mp (calls.1.symm.trans isCall.1)
              have sameId := Option.some_inj.mp (calls.2.2.2.symm.trans isCall.2.2.2)
              exact .inl (by rw [sameKind, sameId])
            · exact .inr stillOpen
        · rw [open_snoc, opened]
          exact ⟨fun stillOpen => .inr ⟨stillOpen, unconsumed kind id⟩,
            fun either => either.elim (fun calls => absurd calls (noCall kind id)) And.left⟩

theorem materialized_answered {inputItems : List Json}
    (materialized : nativeToolOutputsAreMaterialized inputItems = true) :
    OutputsAnswered inputItems := by
  obtain ⟨calls, followed⟩ := Option.isSome_iff_exists.mp materialized
  exact (followed_open inputItems followed).1

/-! ### One turn -/

theorem bind_ok {Error First Second : Type} {first : Except Error First}
    {next : First → Except Error Second} {result : Second} (ok : first >>= next = .ok result) :
    ∃ value, first = .ok value ∧ next value = .ok result := by
  cases first with
  | error error => cases ok
  | ok value => exact ⟨value, rfl, ok⟩

/-- The items that a client input stands for. -/
def clientItems : Json → List Json
  | .string text => [textMessage text]
  | .array inputItems => inputItems
  | .object inputItem => [.object inputItem]
  | _ => []

theorem appendReplayInput_ok {replayInput appended : List Json} {input : Json}
    (ok : appendReplayInput replayInput input = .ok appended) :
    appended = replayInput ++ clientItems input := by
  cases input with
  | string | array | object => cases ok; rfl
  | null | bool | number => cases ok

/-- The items that stand in a request's input. -/
def requestItems (request : Json) : List Json :=
  match request.get "input" with
  | some (.array inputItems) => inputItems
  | some (.object inputItem) => [.object inputItem]
  | _ => []

/-- The item only names one that the provider keeps. -/
def NamesItem (inputItem : Json) : Prop :=
  itemKind inputItem = some "item_reference" ∨
    (inputItem.get "id").isSome ∧ inputItem.get "type" = none ∧ inputItem.get "role" = none

/-- The request names nothing that the provider keeps, and its outputs have their calls. -/
structure SelfContained (request : Json) : Prop where
  predecessor : ∀ responseId,
    request.get "previous_response_id" = some (.string responseId) → Text.trim responseId = ""
  conversation : ∀ conversation, request.get "conversation" = some conversation →
    conversation = .null
  items : ∀ item ∈ requestItems request, ¬NamesItem item
  answered : OutputsAnswered (requestItems request)

private theorem providerState_false {request : Json}
    (noState : nativeReplayHasProviderState request = false) :
    (∀ conversation, request.get "conversation" = some conversation → conversation = .null) ∧
      ∀ item ∈ requestItems request, ¬NamesItem item := by
  unfold nativeReplayHasProviderState at noState
  dsimp only at noState
  split at noState
  next => cases noState
  next noConversation =>
    refine ⟨fun conversation named => ?_, ?_⟩
    · rw [named] at noConversation
      cases conversation with
      | null => rfl
      | bool | number | string | array | object => exact absurd rfl noConversation
    · have notNamed : ∀ item : Json, ((item.get "type").bind (·.asStr) == some "item_reference" ||
          ((item.get "id").isSome && (item.get "type").isNone && (item.get "role").isNone)) = false →
          ¬NamesItem item := by
        rintro item none (reference | ⟨id, noType, noRole⟩)
        · unfold itemKind at reference
          simp [reference] at none
        · simp [id, noType, noRole] at none
      unfold requestItems
      cases input : request.get "input" with
      | none => exact nofun
      | some value =>
          rw [input] at noState
          cases value with
          | null | bool | number | string => exact nofun
          | array inputItems =>
              intro item member
              exact notNamed item (Bool.eq_false_iff.mpr (List.any_eq_false.mp noState item member))
          | object inputItem =>
              intro item member
              rw [List.mem_singleton.mp member]
              exact notNamed _ noState

theorem asObject_eq {value : Json} {fields : List (String × Json)}
    (isObject : value.asObject = some fields) : value = .object fields := by
  cases value with
  | object => injection isObject with same; rw [same]
  | null | bool | number | string | array => cases isObject

private theorem bind_asArray {value : Option Json} {items : List Json}
    (isArray : value.bind (·.asArray) = some items) : value = some (.array items) := by
  obtain ⟨value, rfl, isArray⟩ := Option.bind_eq_some_iff.mp isArray
  cases value with
  | array => injection isArray with same; rw [same]
  | null | bool | number | string | object => cases isArray

namespace NativeResponsesReplayState

variable {state next : NativeResponsesReplayState} {request continuation response : Json}
  {model responseId : String} {stream : Bool}

/-- What a snapshot keeps of a turn, and of which requests there is none. -/
theorem fromResponse_some (captured : fromResponse request model response = some (responseId, state)) :
    SelfContained request ∧ state.model = model ∧
      request.get "input" = some state.initialInput ∧
      (responseBody response).get "output" = some (.array state.completedOutput) := by
  unfold fromResponse at captured
  obtain ⟨id, _, rest⟩ := Option.bind_eq_some_iff.mp captured
  clear captured
  split at rest
  next => cases rest
  next noState =>
    obtain ⟨fields, isObject, afterObject⟩ := Option.bind_eq_some_iff.mp rest
    obtain ⟨initialInput, input, afterInput⟩ := Option.bind_eq_some_iff.mp afterObject
    have same := asObject_eq isObject
    subst same
    dsimp only at afterInput
    split at afterInput
    next => cases afterInput
    next materialized =>
      split at afterInput
      next => cases afterInput
      next unnamed =>
        obtain ⟨output, isOutput, same⟩ := Option.bind_eq_some_iff.mp afterInput
        cases same
        obtain ⟨conversation, items⟩ := providerState_false (Bool.eq_false_iff.mpr noState)
        refine ⟨⟨fun responseId named => ?_, conversation, items, ?_⟩, rfl, input,
          bind_asArray isOutput⟩
        · have named : Json.field fields "previous_response_id" = some (.string responseId) := named
          rw [named] at unnamed
          simpa [Json.asStr] using unnamed
        · have answered : OutputsAnswered (initialInput.asArray.getD [initialInput]) := by
            refine materialized_answered ?_
            simpa using materialized
          have held : (Json.object fields).get "input" = some initialInput := input
          unfold requestItems
          rw [held]
          cases initialInput with
          | null | bool | number | string => exact outputsAnswered_nil
          | array | object => exact answered

/-- What a replayed request carries: the history and the continuation's own fields. -/
structure Replayed (state : NativeResponsesReplayState) (continuation : Json) (model : String)
    (stream : Bool) (request : Json) : Prop where
  sameModel : Text.eqIgnoreAsciiCase state.model model = true
  appended : (appendReplayInput [] state.initialInput).isOk = true
  input : request.get "input" = some (.array (clientItems state.initialInput ++
    state.completedOutput ++ ((continuation.get "input").map clientItems).getD []))
  answered : OutputsAnswered (requestItems request)
  unnamed : request.get "previous_response_id" = none
  model : request.get "model" = some (.string model)
  stream : request.get "stream" = some (.bool stream)
  others : ∀ key, key ≠ "input" → key ≠ "previous_response_id" → key ≠ "model" →
    key ≠ "stream" → request.get key = continuation.get key

theorem replayRequest_ok
    (distinct : ∀ fields, continuation.asObject = some fields → (fields.map Prod.fst).Nodup)
    (replayed : state.replayRequest continuation model stream = .ok request) :
    Replayed state continuation model stream request := by
  unfold replayRequest at replayed
  split at replayed
  next => cases replayed
  next accepted =>
    rw [Bool.or_eq_true, not_or, Bool.not_eq_true', Bool.not_eq_false] at accepted
    split at replayed
    next => cases replayed
    next fields isObject =>
      have keys := distinct fields isObject
      have same := asObject_eq isObject
      subst same
      split at replayed
      next => cases replayed
      next currentInput input =>
        obtain ⟨initial, first, rest⟩ := bind_ok replayed
        obtain ⟨replayInput, second, final⟩ := bind_ok rest
        have initial := appendReplayInput_ok first
        have whole := appendReplayInput_ok second
        split at final
        next => cases final
        next =>
          split at final
          next => cases final
          next materialized =>
            injection final with final
            subst final
            have held : (Json.object fields).get "input" = some currentInput := input
            have carried : ∀ key, (Json.object (Json.insert (Json.insert (Json.insert
                (Json.remove fields "previous_response_id") "model" (.string model)) "stream"
                (.bool stream)) "input" (.array replayInput))).get key =
                if key = "input" then some (.array replayInput)
                else if key = "stream" then some (.bool stream)
                else if key = "model" then some (.string model)
                else if key = "previous_response_id" then none else Json.field fields key := by
              intro key
              show Json.field _ key = _
              rw [Json.field_insert, Json.field_insert, Json.field_insert,
                Json.field_remove keys]
            have answered : OutputsAnswered replayInput := by
              refine materialized_answered ?_
              simpa using materialized
            refine ⟨accepted.1, first ▸ rfl, ?_, ?_, ?_, ?_, ?_,
              fun key noInput noId noModel noStream => ?_⟩
            · rw [carried, if_pos rfl, held, whole, initial]
              rfl
            · unfold requestItems
              rw [carried, if_pos rfl]
              exact answered
            · rw [carried, if_neg (by decide), if_neg (by decide), if_neg (by decide), if_pos rfl]
            · rw [carried, if_neg (by decide), if_neg (by decide), if_pos rfl]
            · rw [carried, if_neg (by decide), if_pos rfl]
            · rw [carried, if_neg noInput, if_neg noStream, if_neg noModel, if_neg noId]
              rfl

theorem startsWith_append (items more : List Json) : startsWith (items ++ more) items = true := by
  induction items with
  | nil => cases more <;> rfl
  | cons item items ih =>
      rw [List.cons_append, startsWith, Json.equal_refl, Bool.true_and]
      exact ih

private theorem isReplayTextMessage_textMessage (text : String) :
    isReplayTextMessage (textMessage text) text = true := by
  simp [isReplayTextMessage, textMessage, Json.asObject, Json.field, Json.asStr, Json.asArray]

/-- The snapshot of a replayed request contains the turn that it was replayed from. -/
private theorem replayed_materializes
    (distinct : ∀ fields, continuation.asObject = some fields → (fields.map Prod.fst).Nodup)
    (replayed : state.replayRequest continuation model stream = .ok request)
    (captured : fromResponse request model response = some (responseId, next)) :
    state.isMaterializedPredecessorOf next = true := by
  have carried := replayRequest_ok distinct replayed
  obtain ⟨_, nextModel, nextInput, _⟩ := fromResponse_some captured
  have appended := carried.appended
  rw [carried.input] at nextInput
  injection nextInput with nextInput
  unfold isMaterializedPredecessorOf
  rw [nextModel, carried.sameModel, ← nextInput]
  cases shape : state.initialInput with
  | null | bool | number =>
      rw [shape] at appended
      cases appended
  | string text =>
      have first : isReplayTextMessage (textMessage text) text = true :=
        isReplayTextMessage_textMessage text
      simp [Json.asArray, clientItems, first, startsWith_append]
  | array inputItems =>
      have input : startsWith (inputItems ++ (state.completedOutput ++
          ((continuation.get "input").map clientItems).getD [])) inputItems = true :=
        startsWith_append _ _
      simp [Json.asArray, clientItems, input, startsWith_append]
  | object inputItem =>
      simp [Json.asArray, clientItems, Json.equal_refl, startsWith_append]

end NativeResponsesReplayState

/-! ### A chain of turns -/

/-- One turn: what the client sends, and what the upstream returns. -/
structure Turn where
  request : Json
  keysDistinct : ∀ fields, request.asObject = some fields → (fields.map Prod.fst).Nodup
  model : String
  stream : Bool
  response : Json

namespace Turn

/-- The client's own items of the turn. -/
def input (turn : Turn) : List Json := ((turn.request.get "input").map clientItems).getD []

/-- The output items that completed the turn. -/
def output (turn : Turn) : List Json :=
  (((NativeResponsesReplayState.responseBody turn.response).get "output").bind (·.asArray)).getD []

end Turn

/-- The first request is the client's own; each later one is replayed from the snapshot of
the turn before it. -/
inductive Chain : List Turn → NativeResponsesReplayState → Prop
  | first {turn responseId state} :
      NativeResponsesReplayState.fromResponse turn.request turn.model turn.response =
        some (responseId, state) → Chain [turn] state
  | next {turns state turn request responseId next} : Chain turns state →
      state.replayRequest turn.request turn.model turn.stream = .ok request →
      NativeResponsesReplayState.fromResponse request turn.model turn.response =
        some (responseId, next) → Chain (turns ++ [turn]) next

/-- All items of the turns, in order. -/
def transcript (turns : List Turn) : List Json := turns.flatMap fun turn => turn.input ++ turn.output

open NativeResponsesReplayState in
theorem Chain.transcript {turns : List Turn} {state : NativeResponsesReplayState}
    (chain : Chain turns state) :
    clientItems state.initialInput ++ state.completedOutput = transcript turns := by
  induction chain with
  | first captured =>
      obtain ⟨_, _, input, output⟩ := fromResponse_some captured
      simp [Adapter.transcript, Turn.input, Turn.output, input, output, Json.asArray]
  | @next turns state turn request responseId next chain replayed captured ih =>
      obtain ⟨_, _, input, output⟩ := fromResponse_some captured
      have carried := replayRequest_ok turn.keysDistinct replayed
      rw [carried.input] at input
      injection input with input
      rw [← input, Adapter.transcript, List.flatMap_append, ← Adapter.transcript, ← ih]
      simp [clientItems, Turn.input, Turn.output, output, Json.asArray]

/-- What holds of the request that continues a chain, and of the snapshot it leads to. -/
structure Continues (turns : List Turn) (state : NativeResponsesReplayState) (turn : Turn)
    (request : Json) : Prop where
  input : request.get "input" = some (.array (transcript turns ++ turn.input))
  answered : OutputsAnswered (transcript turns ++ turn.input)
  unnamed : request.get "previous_response_id" = none
  model : request.get "model" = some (.string turn.model)
  stream : request.get "stream" = some (.bool turn.stream)
  others : ∀ key, key ≠ "input" → key ≠ "previous_response_id" → key ≠ "model" →
    key ≠ "stream" → request.get key = turn.request.get key
  materializes : ∀ responseId next,
    NativeResponsesReplayState.fromResponse request turn.model turn.response =
      some (responseId, next) → state.isMaterializedPredecessorOf next = true

open NativeResponsesReplayState in
theorem Chain.continues {turns : List Turn} {state : NativeResponsesReplayState} {turn : Turn}
    {request : Json} (chain : Chain turns state)
    (replayed : state.replayRequest turn.request turn.model turn.stream = .ok request) :
    Continues turns state turn request := by
  have carried := replayRequest_ok turn.keysDistinct replayed
  have input : request.get "input" = some (.array (Adapter.transcript turns ++ turn.input)) := by
    rw [carried.input, ← chain.transcript]
    rfl
  have answered := carried.answered
  unfold requestItems at answered
  rw [input] at answered
  exact ⟨input, answered, carried.unnamed, carried.model, carried.stream, carried.others,
    fun _ _ captured => replayed_materializes turn.keysDistinct replayed captured⟩

/-- A chain loses, doubles and reorders nothing, whatever shapes its inputs have; and no
snapshot is taken of a request that is not self-contained. -/
theorem native_replay_materializes :
    (∀ turns state turn request, Chain turns state →
      state.replayRequest turn.request turn.model turn.stream = .ok request →
      Continues turns state turn request) ∧
    ∀ request model response responseId state,
      NativeResponsesReplayState.fromResponse request model response = some (responseId, state) →
      SelfContained request :=
  ⟨fun _ _ _ _ chain replayed => chain.continues replayed,
    fun _ _ _ _ _ captured => (NativeResponsesReplayState.fromResponse_some captured).1⟩

def greeting : Turn where
  request := .object [("model", .string "native"), ("input", .string "hello")]
  keysDistinct fields same := by cases same; decide
  model := "native"
  stream := true
  response := .object [("id", .string "resp_1"),
    ("output", .array [.object [("type", .string "message")]])]

def question : Turn where
  request := .object [("previous_response_id", .string "resp_1"),
    ("input", .object [("role", .string "user")])]
  keysDistinct fields same := by cases same; decide
  model := "native"
  stream := true
  response := .object [("id", .string "resp_2"), ("output", .array [])]

/-- A string, then an object. -/
theorem native_replay_materializes_greeting : ∃ state request,
    Continues [greeting] state question request :=
  ⟨⟨"native", .string "hello", [.object [("type", .string "message")]]⟩,
    .object [("input", .array [textMessage "hello", .object [("type", .string "message")],
      .object [("role", .string "user")]]), ("model", .string "native"), ("stream", .bool true)],
    native_replay_materializes.1 [greeting] _ question _ (.first rfl) rfl⟩

end ZenithRelay.Protocol.Adapter
