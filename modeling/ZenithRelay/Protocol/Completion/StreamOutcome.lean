import ZenithRelay.Foundations.FinishLog
import ZenithRelay.Protocol.Completion.MessagesLifecycle

/-!
# Streams with several finishes

The Chat and Gemini checkers keep, of every choice or candidate, the reason of its
last mention. An accepted stream is a settled log of mentions, and its outcome is
terminal just when every mentioned index finished.
-/

set_option autoImplicit false

namespace ZenithRelay.Protocol

namespace ResponseCompletion

theorem isTerminal_iff (completion : ResponseCompletion) :
    completion.isTerminal = true ↔ completion ≠ .invalid := by
  cases completion <;> decide

private theorem combine_ne_invalid (left right : ResponseCompletion) :
    left.combine right ≠ .invalid ↔ left ≠ .invalid ∧ right ≠ .invalid := by
  cases left <;> cases right <;> decide

/-- A fold of outcomes is valid when each of them is. -/
theorem foldl_combine_ne_invalid {Item : Type} (outcome : Item → ResponseCompletion)
    (items : List Item) (first : ResponseCompletion) :
    items.foldl (fun total item => total.combine (outcome item)) first ≠ .invalid ↔
      first ≠ .invalid ∧ ∀ item ∈ items, outcome item ≠ .invalid := by
  induction items generalizing first with
  | nil => simp
  | cons item rest ih =>
    rw [List.foldl_cons, ih, combine_ne_invalid, List.forall_mem_cons, and_assoc]

end ResponseCompletion

/-- Every index that a log mentions has its finish in the log. -/
def AllFinished (log : List (Nat × Option String)) : Prop :=
  ∀ index mention, (index, mention) ∈ log → ∃ reason, (index, some reason) ∈ log

/-! ### Chat -/

namespace ChatStreamCompletion

/-- The index of a choice and the finish reason that comes with it. -/
def mention (choice : Json) : Option (Nat × Option String) :=
  ((choice.get "index").bind (·.asU64)).map fun index =>
    (index, ((choice.get "finish_reason").filter (!·.isNull)).bind (·.asStr))

def mentions (payload : Json) : List (Nat × Option String) :=
  (((payload.get "choices").bind (·.asArray)).getD []).filterMap mention

/-- The state that the checker keeps of a log. -/
structure Holds (log : List (Nat × Option String)) (completion : ChatStreamCompletion) : Prop where
  tracks : Tracks log completion.choices
  known : ∀ index reason, (index, some reason) ∈ log →
    ResponseCompletion.fromChatFinish reason ≠ .invalid

variable {log : List (Nat × Option String)} {completion : ChatStreamCompletion}

theorem unobserved_holds : Holds [] unobserved where
  tracks := Tracks.nil
  known := by simp

/-- An accepted choice mentions an unfinished index. -/
private theorem observeChoice_cases {seen : List Nat} {choice : Json}
    {next : ChatStreamCompletion × List Nat}
    (accepted : observeChoice (completion, seen) choice = some next) :
    ∃ index reason, mention choice = some (index, reason) ∧
      completion.choices[index]?.getD none = none ∧
      (∀ known, reason = some known → ResponseCompletion.fromChatFinish known ≠ .invalid) ∧
      next.1 = { completion with choices := completion.choices.insert index reason } := by
  obtain ⟨index, atIndex, accepted⟩ := Option.bind_eq_some_iff.mp accepted
  obtain ⟨-, accepted⟩ := Option.ite_none_left_eq_some.mp accepted
  obtain ⟨open_, accepted⟩ := Option.ite_none_left_eq_some.mp accepted
  obtain ⟨-, accepted⟩ := Option.ite_none_left_eq_some.mp accepted
  have unfinished : completion.choices[index]?.getD none = none := by simpa using open_
  rw [mention, atIndex, Option.map_some]
  cases finish : (choice.get "finish_reason").filter (!·.isNull) with
  | none =>
    obtain rfl : ({ completion with choices := completion.choices.insert index none },
        seen ++ [index]) = next := by simpa [finish, unfinished] using accepted
    exact ⟨index, none, rfl, unfinished, by simp, rfl⟩
  | some value =>
    cases text : value.asStr with
    | none => simp [finish, text] at accepted
    | some known =>
      obtain ⟨valid, rfl⟩ : ResponseCompletion.fromChatFinish known ≠ .invalid ∧
          ({ completion with choices := completion.choices.insert index (some known) },
            seen ++ [index]) = next := by
        simpa [finish, text, unfinished] using accepted
      exact ⟨index, some known, by simp [text], unfinished, by simpa using valid, rfl⟩

private theorem observeChoice_holds (holds : Holds log completion) {seen : List Nat} {choice : Json}
    {next : ChatStreamCompletion × List Nat}
    (accepted : observeChoice (completion, seen) choice = some next) :
    Holds (log ++ (mention choice).toList) next.1 := by
  obtain ⟨index, reason, mentioned, unfinished, valid, changed⟩ := observeChoice_cases accepted
  rw [changed, mentioned, Option.toList_some]
  refine ⟨holds.tracks.snoc unfinished reason, fun other known member => ?_⟩
  rcases List.mem_append.mp member with earlier | last
  · exact holds.known other known earlier
  · obtain ⟨rfl, same⟩ : other = index ∧ some known = reason := by simpa using last
    exact valid known same.symm

/-- The choices of a chunk are mentioned one by one. -/
private theorem observeChoices_holds (choices : List Json) (holds : Holds log completion)
    {seen : List Nat} {next : ChatStreamCompletion × List Nat}
    (accepted : choices.foldlM observeChoice (completion, seen) = some next) :
    Holds (log ++ choices.filterMap mention) next.1 := by
  induction choices generalizing log completion seen with
  | nil =>
    cases accepted
    simpa using holds
  | cons choice rest ih =>
    rw [List.foldlM_cons] at accepted
    obtain ⟨⟨middle, indices⟩, first, accepted⟩ := Option.bind_eq_some_iff.mp accepted
    have whole := ih (observeChoice_holds holds first) accepted
    cases mentioned : mention choice <;> simpa [mentioned] using whole

theorem observe_holds (holds : Holds log completion) {payload : Json}
    {next : ChatStreamCompletion} (accepted : completion.observe payload = some next) :
    Holds (log ++ mentions payload) next := by
  obtain ⟨choices, atChoices, accepted⟩ := Option.bind_eq_some_iff.mp accepted
  obtain ⟨-, accepted⟩ := Option.ite_none_left_eq_some.mp accepted
  rw [mentions, atChoices, Option.getD_some]
  by_cases empty : choices.isEmpty
  · rw [if_pos empty] at accepted
    obtain ⟨-, accepted⟩ := Option.ite_none_left_eq_some.mp accepted
    cases accepted
    rw [List.isEmpty_iff.mp empty]
    exact ⟨by simpa using holds.tracks, by simpa using holds.known⟩
  · rw [if_neg empty, Option.map_eq_some_iff] at accepted
    obtain ⟨result, folded, rfl⟩ := accepted
    exact observeChoices_holds choices holds folded

/-- The log of an accepted stream. -/
theorem observeAll_holds (payloads : List Json) (holds : Holds log completion)
    {final : ChatStreamCompletion} (accepted : payloads.foldlM observe completion = some final) :
    Holds (log ++ payloads.flatMap mentions) final := by
  induction payloads generalizing log completion with
  | nil =>
    cases accepted
    simpa using holds
  | cons payload rest ih =>
    rw [List.foldlM_cons] at accepted
    obtain ⟨middle, first, accepted⟩ := Option.bind_eq_some_iff.mp accepted
    simpa using ih (observe_holds holds first) accepted

theorem outcome_isTerminal_iff (holds : Holds log completion) :
    completion.outcome.isTerminal = true ↔ log ≠ [] ∧ AllFinished log := by
  rw [ResponseCompletion.isTerminal_iff, AllFinished, ← holds.tracks.all_finished_iff, outcome,
    Ne.eq_def log, ← holds.tracks.isEmpty_iff]
  by_cases empty : completion.choices.isEmpty
  · simp [empty]
  · rw [if_neg empty, ResponseCompletion.foldl_combine_ne_invalid]
    have valid (mention : Option String) (member : mention ∈ completion.choices.values) :
        (mention.map ResponseCompletion.fromChatFinish).getD .invalid ≠ .invalid ↔
          mention.isSome := by
      cases mention with
      | none => simp
      | some reason =>
        obtain ⟨index, found⟩ := BTreeMap.mem_values_iff.mp member
        simpa using holds.known index reason ((holds.tracks.finished index reason).mp found)
    exact ⟨fun all => ⟨empty, fun mention member => (valid mention member).mp (all.2 mention member)⟩,
      fun all => ⟨by decide, fun mention member => (valid mention member).mpr (all.2 mention member)⟩⟩

end ChatStreamCompletion

/-! ### Gemini -/

namespace GeminiStreamCompletion

/-- The index of a candidate and the finish reason that comes with it. -/
def mention (candidate : Json) : Option (Nat × Option String) :=
  (candidateIndex candidate).map fun index =>
    (index, ((candidate.get "finishReason").filter (!·.isNull)).bind (·.asStr))

def mentions (payload : Json) : List (Nat × Option String) :=
  (((payload.get "candidates").bind (·.asArray)).getD []).filterMap mention

def finishReasons (completion : GeminiStreamCompletion) : BTreeMap Nat (Option String) :=
  completion.candidates.map fun _ candidate => candidate.finishReason

/-- The state that the checker keeps of a log; `blocked` tells of prompt feedback. -/
structure Holds (log : List (Nat × Option String)) (blocked : Prop)
    (completion : GeminiStreamCompletion) : Prop where
  tracks : Tracks log completion.finishReasons
  outcomes : ∀ index : Nat, ∀ state : GeminiCandidateCompletion,
    completion.candidates[index]? = some state →
      (state.outcome.isSome ↔ state.finishReason.isSome) ∧ state.outcome ≠ some .invalid
  blocked_iff : completion.promptBlocked = true ↔ blocked
  /-- Block feedback comes without candidates. -/
  alone : completion.promptBlocked = true → log = []

variable {log : List (Nat × Option String)} {blocked : Prop}
  {completion : GeminiStreamCompletion}

theorem unobserved_holds : Holds [] False unobserved where
  tracks := Tracks.nil
  outcomes := by simp [unobserved]
  blocked_iff := by simp [unobserved]
  alone := by simp

theorem getElem?_finishReasons (completion : GeminiStreamCompletion) (index : Nat) :
    completion.finishReasons[index]? =
      completion.candidates[index]?.map (·.finishReason) :=
  Std.ExtTreeMap.getElem?_map

private theorem finishReasons_insert (completion : GeminiStreamCompletion) (index : Nat)
    (state : GeminiCandidateCompletion) :
    finishReasons { completion with candidates := completion.candidates.insert index state } =
      completion.finishReasons.insert index state.finishReason := by
  apply Std.ExtTreeMap.ext_getElem?
  intro other
  rw [getElem?_finishReasons, Std.ExtTreeMap.getElem?_insert, Std.ExtTreeMap.getElem?_insert,
    getElem?_finishReasons]
  split <;> rfl

theorem Holds.isEmpty_iff (holds : Holds log blocked completion) :
    completion.candidates.isEmpty = true ↔ log = [] := by
  rw [← holds.tracks.isEmpty_iff, Std.ExtTreeMap.isEmpty_iff, Std.ExtTreeMap.isEmpty_iff]
  constructor
  · intro empty
    apply Std.ExtTreeMap.ext_getElem?
    intro index
    rw [getElem?_finishReasons, empty]
    simp
  · intro empty
    apply Std.ExtTreeMap.ext_getElem?
    intro index
    have absent := getElem?_finishReasons completion index
    rw [empty] at absent
    simpa using absent.symm

/-- A finish records a valid outcome with its reason. -/
private theorem finishCandidate_cases {state finished : GeminiCandidateCompletion}
    {candidate reason : Json} (accepted : finishCandidate state candidate reason = some finished) :
    ∃ text outcome, reason.asStr = some text ∧ outcome ≠ .invalid ∧
      finished = { state with finishReason := some text, outcome := some outcome } := by
  obtain ⟨text, atText, accepted⟩ := Option.bind_eq_some_iff.mp accepted
  obtain ⟨-, accepted⟩ := Option.ite_none_left_eq_some.mp accepted
  refine ⟨text, ?_⟩
  cases known : candidateIncompleteReason text with
  | none => simp [known] at accepted
  | some incomplete =>
    cases incomplete with
    | some detail =>
      obtain ⟨-, rfl⟩ : ¬(state.finishReason.any (· ≠ text)) = true ∧
          { state with finishReason := some text, outcome := some .incomplete } = finished := by
        simpa [known] using accepted
      exact ⟨.incomplete, atText, by decide, rfl⟩
    | none =>
      cases content : state.hasContent with
      | false => simp [known, content] at accepted
      | true =>
        obtain ⟨-, rfl⟩ : ¬(state.finishReason.any (· ≠ text)) = true ∧
            { state with finishReason := some text, outcome := some .completed } = finished := by
          simpa [known, content] using accepted
        exact ⟨.completed, atText, by decide, by rw [content]⟩

private theorem receiveContent_cases {state received : GeminiCandidateCompletion} {candidate : Json}
    (accepted : receiveContent state candidate = some received) :
    received.outcome = state.outcome ∧ received.finishReason = state.finishReason := by
  rw [receiveContent] at accepted
  cases content : candidate.get "content" with
  | none =>
    obtain rfl : state = received := by simpa [content] using accepted
    exact ⟨rfl, rfl⟩
  | some content =>
    rw [‹candidate.get "content" = _›] at accepted
    obtain ⟨parts, -, rfl⟩ := Option.map_eq_some_iff.mp accepted
    exact ⟨rfl, rfl⟩

/-- An accepted candidate mentions an unfinished index. -/
private theorem observeCandidate_cases (holds : Holds log blocked completion) {seen : List Nat}
    {candidate : Json} {next : GeminiStreamCompletion × List Nat}
    (accepted : observeCandidate (completion, seen) candidate = some next) :
    ∃ index state, mention candidate = some (index, state.finishReason) ∧
      completion.finishReasons[index]?.getD none = none ∧
      (state.outcome.isSome ↔ state.finishReason.isSome) ∧ state.outcome ≠ some .invalid ∧
      next.1 = { completion with candidates := completion.candidates.insert index state } := by
  obtain ⟨-, accepted⟩ := Option.ite_none_left_eq_some.mp accepted
  obtain ⟨index, atIndex, accepted⟩ := Option.bind_eq_some_iff.mp accepted
  obtain ⟨-, accepted⟩ := Option.ite_none_left_eq_some.mp accepted
  obtain ⟨open_, accepted⟩ := Option.ite_none_left_eq_some.mp accepted
  obtain ⟨received, content, accepted⟩ := Option.bind_eq_some_iff.mp accepted
  obtain ⟨state, finish, taken⟩ := Option.bind_eq_some_iff.mp accepted
  obtain ⟨sameOutcome, sameReason⟩ := receiveContent_cases content
  -- the state before the candidate has neither an outcome nor a reason
  obtain ⟨noOutcome, noReason, unfinished⟩ : received.outcome = none ∧
      received.finishReason = none ∧ completion.finishReasons[index]?.getD none = none := by
    rw [sameOutcome, sameReason, getElem?_finishReasons]
    cases found : completion.candidates[index]? with
    | none => exact ⟨rfl, rfl, rfl⟩
    | some earlier =>
      have agree := (holds.outcomes index earlier found).1
      have outcome : earlier.outcome = none := by simpa [found] using open_
      have reason : earlier.finishReason = none := by simpa [outcome] using agree
      exact ⟨outcome, reason, by simpa using reason⟩
  rw [mention, atIndex, Option.map_some]
  rw [receiveFinish] at finish
  cases given : (candidate.get "finishReason").filter (!·.isNull) with
  | none =>
    obtain rfl : received = state := by simpa [given] using finish
    cases taken
    refine ⟨index, received, ?_, unfinished, ?_, ?_, rfl⟩
    · rw [noReason, Option.bind_none]
    · simp [noReason, noOutcome]
    · simp [noOutcome]
  | some reason =>
    rw [given] at finish
    obtain ⟨text, outcome, atText, valid, rfl⟩ := finishCandidate_cases finish
    cases taken
    exact ⟨index, _, by rw [Option.bind_some, atText], unfinished, by simp, by simpa using valid, rfl⟩

private theorem observeCandidate_holds (holds : Holds log blocked completion)
    (open_ : completion.promptBlocked = false) {seen : List Nat} {candidate : Json}
    {next : GeminiStreamCompletion × List Nat}
    (accepted : observeCandidate (completion, seen) candidate = some next) :
    Holds (log ++ (mention candidate).toList) blocked next.1 ∧ next.1.promptBlocked = false := by
  obtain ⟨index, state, mentioned, unfinished, agree, valid, changed⟩ :=
    observeCandidate_cases holds accepted
  rw [changed, mentioned, Option.toList_some]
  refine ⟨⟨?_, fun other found atOther => ?_, holds.blocked_iff, fun isBlocked => ?_⟩, open_⟩
  · rw [finishReasons_insert]
    exact holds.tracks.snoc unfinished state.finishReason
  · rw [Std.ExtTreeMap.getElem?_insert] at atOther
    split at atOther
    next =>
      cases atOther
      exact ⟨agree, valid⟩
    next => exact holds.outcomes other found atOther
  · rw [open_] at isBlocked
    cases isBlocked

/-- The candidates of an event are mentioned one by one. -/
private theorem observeCandidates_holds (candidates : List Json) (holds : Holds log blocked completion)
    (open_ : completion.promptBlocked = false) {seen : List Nat}
    {next : GeminiStreamCompletion × List Nat}
    (accepted : candidates.foldlM observeCandidate (completion, seen) = some next) :
    Holds (log ++ candidates.filterMap mention) blocked next.1 := by
  induction candidates generalizing log completion seen with
  | nil =>
    cases accepted
    simpa using holds
  | cons candidate rest ih =>
    rw [List.foldlM_cons] at accepted
    obtain ⟨⟨middle, indices⟩, first, accepted⟩ := Option.bind_eq_some_iff.mp accepted
    obtain ⟨earlier, stillOpen⟩ := observeCandidate_holds holds open_ first
    have whole := ih earlier stillOpen accepted
    cases mentioned : mention candidate <;> simpa [mentioned] using whole

theorem observe_holds (holds : Holds log blocked completion) {payload : Json}
    {next : GeminiStreamCompletion} (accepted : completion.observe payload = some next) :
    Holds (log ++ mentions payload) (blocked ∨ Protocol.promptBlocked payload = some true) next := by
  obtain ⟨-, accepted⟩ := Option.ite_none_left_eq_some.mp accepted
  obtain ⟨feedback, atFeedback, accepted⟩ := Option.bind_eq_some_iff.mp accepted
  obtain ⟨noCandidates, accepted⟩ := Option.ite_none_left_eq_some.mp accepted
  rw [atFeedback, Option.some.injEq, mentions]
  have silent : feedback = true → log = [] := by
    rintro rfl
    have empty : completion.candidates.isEmpty = true := by simpa using noCandidates
    exact holds.isEmpty_iff.mp empty
  have marked : Holds log (blocked ∨ feedback = true)
      { completion with promptBlocked := completion.promptBlocked || feedback } := by
    refine ⟨holds.tracks, holds.outcomes, ?_, fun isBlocked => ?_⟩
    · rw [Bool.or_eq_true, holds.blocked_iff]
    · rcases Bool.or_eq_true_iff.mp isBlocked with earlier | now
      · exact holds.alone earlier
      · exact silent now
  cases atCandidates : payload.get "candidates" with
  | none =>
    obtain rfl : { completion with promptBlocked := completion.promptBlocked || feedback } = next := by
      simpa [atCandidates] using accepted
    simpa using marked
  | some value =>
    rw [atCandidates] at accepted
    obtain ⟨candidates, isArray, accepted⟩ := Option.bind_eq_some_iff.mp accepted
    obtain ⟨allowed, accepted⟩ := Option.ite_none_left_eq_some.mp accepted
    rw [Option.bind_some, isArray, Option.getD_some]
    obtain ⟨result, folded, rfl⟩ := Option.map_eq_some_iff.mp accepted
    cases candidates with
    | nil =>
      cases folded
      simpa using marked
    | cons candidate rest =>
      have open_ : (completion.promptBlocked || feedback) = false := by simpa using allowed
      exact observeCandidates_holds (candidate :: rest) marked open_ folded

/-- The log of an accepted stream. -/
theorem observeAll_holds (payloads : List Json) (holds : Holds log blocked completion)
    {final : GeminiStreamCompletion} (accepted : payloads.foldlM observe completion = some final) :
    Holds (log ++ payloads.flatMap mentions)
      (blocked ∨ ∃ payload ∈ payloads, Protocol.promptBlocked payload = some true) final := by
  induction payloads generalizing log blocked completion with
  | nil =>
    cases accepted
    simpa using holds
  | cons payload rest ih =>
    rw [List.foldlM_cons] at accepted
    obtain ⟨middle, first, accepted⟩ := Option.bind_eq_some_iff.mp accepted
    simpa [or_assoc] using ih (observe_holds holds first) accepted

theorem outcome_isTerminal_iff (holds : Holds log blocked completion) :
    completion.outcome.isTerminal = true ↔
      blocked ∧ log = [] ∨ log ≠ [] ∧ AllFinished log := by
  rw [ResponseCompletion.isTerminal_iff, outcome]
  cases isBlocked : completion.promptBlocked with
  | true =>
    have empty := holds.alone isBlocked
    have given := holds.blocked_iff.mp isBlocked
    simp [empty, given]
  | false =>
    have open_ : ¬blocked := by
      rw [← holds.blocked_iff, isBlocked]
      exact Bool.false_ne_true
    rw [if_neg Bool.false_ne_true, AllFinished, ← holds.tracks.all_finished_iff, Ne.eq_def log,
      ← holds.isEmpty_iff]
    by_cases empty : completion.candidates.isEmpty
    · simp [empty, open_]
    · rw [if_neg empty, ResponseCompletion.foldl_combine_ne_invalid]
      have valid {index : Nat} {state : GeminiCandidateCompletion}
          (found : completion.candidates[index]? = some state) :
          state.outcome.getD .invalid ≠ .invalid ↔ state.finishReason.isSome := by
        obtain ⟨agree, known⟩ := holds.outcomes index state found
        rw [← agree]
        cases outcome : state.outcome with
        | none => simp
        | some reported => simpa [outcome] using known
      have both : (∀ state ∈ completion.candidates.values,
            state.outcome.getD .invalid ≠ .invalid) ↔
          ∀ mention ∈ completion.finishReasons.values, mention.isSome := by
        constructor
        · intro all mention member
          obtain ⟨index, found⟩ := BTreeMap.mem_values_iff.mp member
          rw [getElem?_finishReasons] at found
          obtain ⟨state, atIndex, rfl⟩ := Option.map_eq_some_iff.mp found
          exact (valid atIndex).mp (all state (BTreeMap.mem_values_iff.mpr ⟨index, atIndex⟩))
        · intro all state member
          obtain ⟨index, found⟩ := BTreeMap.mem_values_iff.mp member
          refine (valid found).mpr (all state.finishReason (BTreeMap.mem_values_iff.mpr ⟨index, ?_⟩))
          rw [getElem?_finishReasons, found, Option.map_some]
      rw [both]
      simp [empty, open_]

end GeminiStreamCompletion

/-- The outcome of an accepted stream of chunks with several finishes: `blocked`
tells of an answer that its prompt prevented. -/
structure StreamOutcome (log : List (Nat × Option String)) (blocked : Prop)
    (outcome : ResponseCompletion) : Prop where
  terminal : outcome.isTerminal = true ↔ blocked ∧ log = [] ∨ log ≠ [] ∧ AllFinished log
  finishes_once : ∀ index, log.countP (fun mention => mention.1 = index ∧ mention.2.isSome) ≤ 1
  settled : Settled log

/-- The Messages checker accepts exactly the words of the lifecycle grammar and reports
their outcome; the Chat and Gemini checkers judge a stream by the finishes of all its
choices or candidates. -/
theorem stream_checkers_judge_by_lifecycle :
    (∀ (payloads : List Json) (outcome : ResponseCompletion),
      (∃ completion, MessagesStreamCompletion.unobserved.observeAll payloads =
        some (completion, some outcome)) ↔
      ∃ word, payloads.mapM MessagesEvent.ofPayload = some word ∧ LifecycleWord word outcome) ∧
    (∀ (payloads : List Json) (completion : ChatStreamCompletion),
      payloads.foldlM ChatStreamCompletion.observe ChatStreamCompletion.unobserved =
        some completion →
      StreamOutcome (payloads.flatMap ChatStreamCompletion.mentions) False completion.outcome) ∧
    ∀ (payloads : List Json) (completion : GeminiStreamCompletion),
      payloads.foldlM GeminiStreamCompletion.observe GeminiStreamCompletion.unobserved =
        some completion →
      StreamOutcome (payloads.flatMap GeminiStreamCompletion.mentions)
        (∃ payload ∈ payloads, promptBlocked payload = some true) completion.outcome := by
  refine ⟨MessagesStreamCompletion.accepts_iff_lifecycleWord, ?_, ?_⟩
  · intro payloads completion accepted
    have holds := ChatStreamCompletion.observeAll_holds payloads
      ChatStreamCompletion.unobserved_holds accepted
    rw [List.nil_append] at holds
    refine ⟨?_, holds.tracks.settled.finishes_once, holds.tracks.settled⟩
    rw [ChatStreamCompletion.outcome_isTerminal_iff holds]
    simp
  · intro payloads completion accepted
    have holds := GeminiStreamCompletion.observeAll_holds payloads
      GeminiStreamCompletion.unobserved_holds accepted
    rw [List.nil_append] at holds
    refine ⟨?_, holds.tracks.settled.finishes_once, holds.tracks.settled⟩
    rw [GeminiStreamCompletion.outcome_isTerminal_iff holds, false_or]

/-- Two interleaved Chat choices: the stream is terminal once the second of them has
finished, and not before. A Messages stream with one text block is a lifecycle word. -/
theorem interleaved_choices_are_terminal :
    let choice (index : String) (finish : Json) : Json :=
      .object [("index", .number index), ("finish_reason", finish)]
    let opened := Json.object [("choices", .array [choice "0" .null, choice "1" (.string "length")])]
    let closed := Json.object [("choices", .array [choice "0" (.string "stop")])]
    let half : ChatStreamCompletion :=
      ⟨(Std.ExtTreeMap.insert ∅ 0 none).insert 1 (some "length"), false⟩
    let whole : ChatStreamCompletion := ⟨half.choices.insert 0 (some "stop"), false⟩
    let event (kind : String) (fields : List (String × Json)) : Json :=
      .object (("type", .string kind) :: fields)
    let message := [
      event "message_start" [("message", .object [("id", .string "msg_1"),
        ("type", .string "message"), ("role", .string "assistant"), ("content", .array [])])],
      event "content_block_start" [("index", .number "0"), ("content_block", .object [])],
      event "content_block_stop" [("index", .number "0")],
      event "message_delta" [("delta", .object [("stop_reason", .string "end_turn")])],
      event "message_stop" []]
    [opened].foldlM ChatStreamCompletion.observe ChatStreamCompletion.unobserved = some half ∧
      half.outcome.isTerminal = false ∧
      [opened, closed].foldlM ChatStreamCompletion.observe ChatStreamCompletion.unobserved =
        some whole ∧
      whole.outcome.isTerminal = true ∧
      ∃ word, message.mapM MessagesEvent.ofPayload = some word ∧ LifecycleWord word .completed := by
  intro choice opened closed half whole event message
  have first : [opened].foldlM ChatStreamCompletion.observe ChatStreamCompletion.unobserved =
      some half := rfl
  have accepted : [opened, closed].foldlM ChatStreamCompletion.observe
      ChatStreamCompletion.unobserved = some whole := rfl
  have openedLog : [opened].flatMap ChatStreamCompletion.mentions =
      [(0, none), (1, some "length")] := rfl
  have log : [opened, closed].flatMap ChatStreamCompletion.mentions =
      [(0, none), (1, some "length"), (0, some "stop")] := rfl
  obtain ⟨messages, chat, -⟩ := stream_checkers_judge_by_lifecycle
  have early := chat [opened] half first
  have judged := chat [opened, closed] whole accepted
  rw [openedLog] at early
  rw [log] at judged
  refine ⟨first, ?_, accepted, ?_, ?_⟩
  · rw [← Bool.not_eq_true, early.terminal]
    rintro (⟨blocked, -⟩ | ⟨-, finished⟩)
    · exact blocked
    · obtain ⟨reason, member⟩ := finished 0 none (by simp)
      simp at member
  · refine judged.terminal.mpr (Or.inr ⟨by simp, fun index mention member => ?_⟩)
    obtain rfl | rfl : index = 0 ∨ index = 1 := by
      simp only [List.mem_cons, Prod.mk.injEq, List.not_mem_nil, or_false] at member
      omega
    · exact ⟨"stop", by simp⟩
    · exact ⟨"length", by simp⟩
  · have reported : (MessagesStreamCompletion.unobserved.observeAll message).map (·.2) =
        some (some .completed) := by decide +kernel
    obtain ⟨⟨completion, _⟩, observed, rfl⟩ := Option.map_eq_some_iff.mp reported
    exact (messages message .completed).mp ⟨completion, observed⟩

end ZenithRelay.Protocol
