import ZenithRelay.Protocol.Adapter.Translation.Usage

/-!
# Usage survives its encodings

Decoding what was encoded for a protocol gives back every counter that the protocol
can express, whatever protocol the counters came from.
-/

set_option autoImplicit false

namespace ZenithRelay.Protocol.Adapter.Translation

/-! ## Fields -/

theorem field_nil (key : String) : Json.field [] key = none := rfl

theorem field_insertKnown (fields : List (String × Json)) (key : String) (count : Option Nat)
    (encode : Nat → Json) (other : String) :
    Json.field (insertKnown fields key count encode) other =
      if other = key then (count.map encode).or (Json.field fields other)
      else Json.field fields other := by
  cases count with
  | none =>
      rw [insertKnown, Option.map_none, Option.none_or]
      split <;> rfl
  | some count => rw [insertKnown, Json.field_insert, Option.map_some, Option.some_or]

theorem insertKnown_distinct {fields : List (String × Json)} (distinct : (fields.map Prod.fst).Nodup)
    (key : String) (count : Option Nat) (encode : Nat → Json) :
    ((insertKnown fields key count encode).map Prod.fst).Nodup := by
  cases count with
  | none => exact distinct
  | some count => exact Json.insert_distinct distinct key (encode count)

/-- Fields that are inserted one by one replace those that were there. -/
private theorem field_foldl_insert {details : List (String × Json)}
    (distinct : (details.map Prod.fst).Nodup) (fields : List (String × Json)) (key : String) :
    Json.field (details.foldl (fun fields detail => Json.insert fields detail.1 detail.2) fields)
      key = (Json.field details key).or (Json.field fields key) := by
  induction details generalizing fields with
  | nil => rfl
  | cons detail details ih =>
      obtain ⟨absent, distinct⟩ := List.nodup_cons.mp distinct
      rw [List.foldl_cons, ih distinct, Json.field_insert, Json.field_cons]
      by_cases own : detail.1 = key
      · have missing : Json.field details key = none := Json.field_eq_none.mpr (own ▸ absent)
        rw [if_pos own, if_pos own.symm, missing]
        rfl
      · rw [if_neg own, if_neg (Ne.symm own)]

theorem asU64_countValue {count : Nat} (fits : count ≤ u64Max) :
    (countValue count).asU64 = some count := by
  have digits : (Nat.toDigits 10 count).all Char.isDigit = true :=
    List.all_eq_true.mpr fun _ member =>
      Nat.isDigit_of_mem_toDigits (by decide) (by decide) member
  have nonempty : Nat.toDigits 10 count ≠ [] := Nat.toDigits_ne_nil
  simp [countValue, Json.asU64, Json.parseU64, digits, nonempty, Nat.ofDigitChars_ten_toDigits,
    fits]

private theorem asU64_le {value : Json} {count : Nat} (counts : value.asU64 = some count) :
    count ≤ u64Max := by
  cases value with
  | number text =>
      simp only [Json.asU64, Json.parseU64] at counts
      split at counts
      · exact of_decide_eq_true (Option.filter_eq_some_iff.mp counts).2
      · cases counts
  | _ => cases counts

/-! ## Counters -/

/-- Every counter is a `u64`. -/
structure Usage.InRange (usage : Usage) : Prop where
  input : ∀ count ∈ usage.input, count ≤ u64Max
  output : ∀ count ∈ usage.output, count ≤ u64Max
  total : ∀ count ∈ usage.total, count ≤ u64Max
  cached : ∀ count ∈ usage.cached, count ≤ u64Max
  reasoning : ∀ count ∈ usage.reasoning, count ≤ u64Max
  cacheWrite : ∀ count ∈ usage.cacheWrite, count ≤ u64Max
  cacheWrite5m : ∀ count ∈ usage.cacheWrite5m, count ≤ u64Max
  cacheWrite1h : ∀ count ∈ usage.cacheWrite1h, count ≤ u64Max

/-- The parts of a counter do not exceed it; an absent part is zero. -/
structure Usage.Consistent (usage : Usage) : Prop where
  input : ∀ count ∈ usage.input, usage.cached.getD 0 + usage.cacheWrite.getD 0 ≤ count
  output : ∀ count ∈ usage.output, usage.reasoning.getD 0 ≤ count

/-- The counters that a portable protocol can express. -/
def Usage.expressibleIn (protocol : WireApi) (usage : Usage) : Usage :=
  match protocol with
  | .messages => { usage with total := none, reasoning := none }
  | .gemini => { usage with cacheWrite := none, cacheWrite5m := none, cacheWrite1h := none }
  | _ => usage

/-- The protocols of the conversion matrix, `WireApi::ALL`. -/
def portable : List WireApi := [.responses, .chatCompletions, .messages, .gemini]

private theorem checkedAdd_le {left right sum : Nat} (added : checkedAdd left right = some sum) :
    sum ≤ u64Max := by
  unfold checkedAdd at added
  split at added
  next fits =>
    cases added
    exact fits
  · cases added

/-- Decoded counters are machine integers: each was parsed, or added with a check. -/
private theorem usage_inRange (protocol : WireApi) (responsePayload : Json) :
    (usage protocol responsePayload).InRange := by
  have parsed : ∀ {value : Option Json} {count : Nat},
      count ∈ value.bind (·.asU64) → count ≤ u64Max := by
    intro value count member
    obtain ⟨json, -, counts⟩ := Option.bind_eq_some_iff.mp member
    exact asU64_le counts
  have added : ∀ {value : Option Nat} {other count : Nat},
      count ∈ value.bind (fun left => checkedAdd left other) → count ≤ u64Max := by
    intro value other count member
    obtain ⟨left, -, sum⟩ := Option.bind_eq_some_iff.mp member
    exact checkedAdd_le sum
  have either : ∀ {first second : Option Json} {count : Nat},
      count ∈ (first.bind (·.asU64)).or (second.bind (·.asU64)) → count ≤ u64Max := by
    intro first second count member
    rcases Option.or_eq_some_iff.mp member with counts | ⟨-, counts⟩
    · exact parsed counts
    · exact parsed counts
  cases protocol <;> constructor <;> intro count member <;>
    first
      | exact parsed member
      | exact added member
      | exact either member
      | cases member

/-! ## Encodings -/

section

variable {usage : Usage}

theorem counter_known {count : Option Nat} (fits : ∀ known ∈ count, known ≤ u64Max) :
    (count.map countValue).bind (·.asU64) = count := by
  cases count with
  | none => rfl
  | some count => exact asU64_countValue (fits count rfl)

/-- The lifetimes read back. -/
private theorem cacheCreation_field (inRange : usage.InRange) :
    (Json.field (cacheCreation usage) "ephemeral_5m_input_tokens").bind (·.asU64) =
        usage.cacheWrite5m ∧
      (Json.field (cacheCreation usage) "ephemeral_1h_input_tokens").bind (·.asU64) =
        usage.cacheWrite1h := by
  simp only [cacheCreation, field_insertKnown]
  refine ⟨?_, ?_⟩
  · simpa [Json.field] using counter_known inRange.cacheWrite5m
  · simpa [Json.field] using counter_known inRange.cacheWrite1h

/-- The written tokens under their name, the lifetimes as they are, the rest untouched. -/
theorem cacheDetails_field (protocol : WireApi) (usage : Usage) (details : List (String × Json))
    (key : String) :
    Json.field (cacheDetails protocol usage details) key =
      if key = "cache_creation" then
        if cacheCreation usage = [] then Json.field details key
        else some (.object (cacheCreation usage))
      else if key = (if protocol = .messages then "cache_creation_input_tokens"
          else "cache_write_tokens") then
        (usage.cacheWrite.map countValue).or (Json.field details key)
      else Json.field details key := by
  have other : "cache_creation" ≠
      (if protocol = .messages then "cache_creation_input_tokens" else "cache_write_tokens") := by
    split <;> decide
  unfold cacheDetails
  generalize (if protocol = .messages then "cache_creation_input_tokens"
    else "cache_write_tokens") = written at *
  dsimp only
  by_cases lifetimes : cacheCreation usage = []
  · rw [if_pos lifetimes, if_pos lifetimes, field_insertKnown]
    by_cases creation : key = "cache_creation"
    · rw [if_pos creation, if_neg (creation ▸ other)]
    · rw [if_neg creation]
  · rw [if_neg lifetimes, if_neg lifetimes, Json.field_insert, field_insertKnown]

private theorem cacheDetails_distinct (protocol : WireApi) (usage : Usage) {details : List (String × Json)}
    (distinct : (details.map Prod.fst).Nodup) :
    ((cacheDetails protocol usage details).map Prod.fst).Nodup := by
  unfold cacheDetails
  dsimp only
  by_cases lifetimes : cacheCreation usage = []
  · rw [if_pos lifetimes]
    exact insertKnown_distinct distinct ..
  · rw [if_neg lifetimes]
    exact Json.insert_distinct (insertKnown_distinct distinct ..) ..

private theorem commonCounters_distinct (protocol : WireApi) (usage : Usage) :
    ((commonCounters protocol usage).map Prod.fst).Nodup := by
  unfold commonCounters
  dsimp only
  split <;> split <;> (repeat apply insertKnown_distinct) <;> exact List.nodup_nil

/-- The encoding for the protocols that keep details of the input in an object. -/
def detailedFields (protocol : WireApi) (usage : Usage) : List (String × Json) :=
  let cached := (usageNames protocol).cached
  let fields := commonCounters protocol usage
  let details :=
    cacheDetails protocol usage (((Json.field fields cached).bind (·.asObject)).getD [])
  if details = [] then Json.remove fields cached
  else Json.insert (Json.remove fields cached) cached (.object details)

/-- The details that are kept: the cached tokens, before what was written. -/
def cachedDetails (usage : Usage) : List (String × Json) :=
  (usage.cached.map fun count => [("cached_tokens", countValue count)]).getD []

theorem detailedFields_field {protocol : WireApi}
    (detailed : protocol = .responses ∨ protocol = .chatCompletions) (key : String) :
    Json.field (detailedFields protocol usage) key =
      if key = (usageNames protocol).cached then
        if cacheDetails protocol usage (cachedDetails usage) = [] then none
        else some (.object (cacheDetails protocol usage (cachedDetails usage)))
      else Json.field (commonCounters protocol usage) key := by
  have kept : ((Json.field (commonCounters protocol usage) (usageNames protocol).cached).bind
      (·.asObject)).getD [] = cachedDetails usage := by
    rcases detailed with rfl | rfl <;> cases cached : usage.cached <;>
      simp [commonCounters, usageNames, field_insertKnown, cached, cachedDetails, Json.asObject,
        field_nil]
  have distinct := commonCounters_distinct protocol usage
  simp only [detailedFields, kept]
  split
  · rw [Json.field_remove distinct]
  · rw [Json.field_insert, Json.field_remove distinct]
    split <;> rfl

/-- A look into the details, which are left out when there are none. -/
private theorem detailedFields_pointer {protocol : WireApi}
    (detailed : protocol = .responses ∨ protocol = .chatCompletions) (keys : List String)
    (key : String) :
    jsonPointer (.object (detailedFields protocol usage))
        ((usageNames protocol).cached :: key :: keys) =
      (Json.field (cacheDetails protocol usage (cachedDetails usage)) key).bind fun value =>
        jsonPointer value keys := by
  have reached : jsonPointer (.object (detailedFields protocol usage))
      ((usageNames protocol).cached :: key :: keys) =
        ((Json.field (detailedFields protocol usage) (usageNames protocol).cached).bind
          (·.get key)).bind fun value => jsonPointer value keys :=
    (Option.bind_assoc ..).symm
  rw [reached, detailedFields_field detailed, if_pos rfl]
  split
  next nothing =>
    rw [nothing]
    rfl
  · rfl

theorem cachedDetails_field (key : String) :
    Json.field (cachedDetails usage) key =
      if key = "cached_tokens" then usage.cached.map countValue else none := by
  unfold cachedDetails
  cases usage.cached with
  | none =>
      simp only [Option.map_none, Option.getD_none, Json.field, List.find?_nil]
      split <;> rfl
  | some count =>
      rw [Option.map_some, Option.getD_some, Json.field_cons, Option.map_some]
      by_cases own : key = "cached_tokens"
      · simp [own]
      · simp [own, Ne.symm own, Json.field]

/-- The lifetimes, read through the object that holds them. -/
theorem cacheCreation_pointer (inRange : usage.InRange) (protocol : WireApi)
    {details : List (String × Json)} (absent : Json.field details "cache_creation" = none) :
    ((Json.field (cacheDetails protocol usage details) "cache_creation").bind fun value =>
        jsonPointer value ["ephemeral_5m_input_tokens"]).bind (·.asU64) = usage.cacheWrite5m ∧
      ((Json.field (cacheDetails protocol usage details) "cache_creation").bind fun value =>
        jsonPointer value ["ephemeral_1h_input_tokens"]).bind (·.asU64) = usage.cacheWrite1h := by
  have lifetimes := cacheCreation_field inRange
  rw [cacheDetails_field, if_pos rfl]
  split
  next nothing =>
    rw [nothing] at lifetimes
    rw [absent]
    exact lifetimes
  · simpa [jsonPointer, Json.get, Json.field] using lifetimes

/-- A counter that is encoded as it is. -/
theorem counter_object {fields : List (String × Json)} {key : String} {count : Option Nat}
    (encoded : Json.field fields key = count.map countValue)
    (fits : ∀ known ∈ count, known ≤ u64Max) :
    ((Json.object fields).get key).bind (·.asU64) = count := by
  have read : (Json.object fields).get key = Json.field fields key := rfl
  rw [read, encoded, counter_known fits]

/-- The details read back: cached and written tokens, and the lifetimes of the written. -/
theorem details_decode {protocol : WireApi}
    (detailed : protocol = .responses ∨ protocol = .chatCompletions) (inRange : usage.InRange) :
    let payload := Json.object (detailedFields protocol usage)
    let cached := (usageNames protocol).cached
    (jsonPointer payload [cached, "cached_tokens"]).bind (·.asU64) = usage.cached ∧
      (jsonPointer payload [cached, "cache_write_tokens"]).bind (·.asU64) = usage.cacheWrite ∧
      (jsonPointer payload [cached, "cache_creation", "ephemeral_5m_input_tokens"]).bind
        (·.asU64) = usage.cacheWrite5m ∧
      (jsonPointer payload [cached, "cache_creation", "ephemeral_1h_input_tokens"]).bind
        (·.asU64) = usage.cacheWrite1h := by
  have notMessages : protocol ≠ .messages := by rcases detailed with rfl | rfl <;> decide
  have absent : ∀ key, key ≠ "cached_tokens" → Json.field (cachedDetails usage) key = none :=
    fun key other => (cachedDetails_field key).trans (if_neg other)
  have lifetimes := cacheCreation_pointer inRange protocol (absent "cache_creation" (by decide))
  have cached : Json.field (cacheDetails protocol usage (cachedDetails usage)) "cached_tokens" =
      usage.cached.map countValue := by
    rw [cacheDetails_field, if_neg (by decide), if_neg notMessages, if_neg (by decide),
      cachedDetails_field, if_pos rfl]
  have written : Json.field (cacheDetails protocol usage (cachedDetails usage))
      "cache_write_tokens" = usage.cacheWrite.map countValue := by
    rw [cacheDetails_field, if_neg (by decide), if_neg notMessages, if_pos rfl,
      absent _ (by decide), Option.or_none]
  have last : ∀ value : Option Json, (value.bind fun value => jsonPointer value []) = value := by
    intro value
    cases value <;> rfl
  simp only [detailedFields_pointer detailed]
  refine ⟨?_, ?_, lifetimes⟩
  · rw [last, cached, counter_known inRange.cached]
  · rw [last, written, counter_known inRange.cacheWrite]

/-- What the details leave alone. -/
theorem detailed_direct {protocol : WireApi}
    (detailed : protocol = .responses ∨ protocol = .chatCompletions) {key : String}
    (other : key ≠ (usageNames protocol).cached) :
    Json.field (detailedFields protocol usage) key =
      Json.field (commonCounters protocol usage) key :=
  (detailedFields_field detailed key).trans (if_neg other)

theorem usageValue_detailed {protocol : WireApi}
    (detailed : protocol = .responses ∨ protocol = .chatCompletions) :
    usageValue protocol usage = .object (detailedFields protocol usage) := by
  rcases detailed with rfl | rfl <;> simp only [usageValue, detailedFields, apply_ite Json.object]

/-- Reasoning tokens lie in an object of their own. -/
private theorem reasoning_decode {fields : List (String × Json)} {key : String}
    (encoded : Json.field fields key =
      usage.reasoning.map fun count => .object [("reasoning_tokens", countValue count)])
    (inRange : usage.InRange) :
    (jsonPointer (.object fields) [key, "reasoning_tokens"]).bind (·.asU64) = usage.reasoning := by
  have reached : jsonPointer (.object fields) [key, "reasoning_tokens"] =
      (Json.field fields key).bind (·.get "reasoning_tokens") := by
    simp [jsonPointer, Json.get, Json.field]
  rw [reached, encoded]
  cases known : usage.reasoning with
  | none => rfl
  | some count => exact asU64_countValue (inRange.reasoning count known)

/-- The counters beside the details. -/
theorem detailed_counters {protocol : WireApi}
    (detailed : protocol = .responses ∨ protocol = .chatCompletions) (inRange : usage.InRange) :
    let payload := Json.object (detailedFields protocol usage)
    let names := usageNames protocol
    (payload.get names.input).bind (·.asU64) = usage.input ∧
      (payload.get names.output).bind (·.asU64) = usage.output ∧
      (payload.get names.total).bind (·.asU64) = usage.total ∧
      (jsonPointer payload [names.reasoning, "reasoning_tokens"]).bind (·.asU64) =
        usage.reasoning := by
  refine ⟨counter_object ?_ inRange.input, counter_object ?_ inRange.output,
    counter_object ?_ inRange.total, reasoning_decode ?_ inRange⟩
  all_goals
    rw [detailed_direct detailed (by rcases detailed with rfl | rfl <;> decide)]
    rcases detailed with rfl | rfl <;> simp [commonCounters, usageNames, field_insertKnown, field_nil]

private theorem decode_responses (inRange : usage.InRange) {responsePayload : Json}
    (carries : responsePayload.get "usage" = some (usageValue .responses usage)) :
    Translation.usage .responses responsePayload = usage := by
  have detailed : WireApi.responses = .responses ∨ WireApi.responses = .chatCompletions := .inl rfl
  obtain ⟨cached, written, lifetime5m, lifetime1h⟩ := details_decode detailed inRange
  obtain ⟨input, output, total, reasoning⟩ := detailed_counters detailed inRange
  unfold Translation.usage
  simp only [usageField, reduceCtorEq, if_false, carries, Option.getD_some,
    usageValue_detailed detailed]
  exact Usage.ext input output total cached reasoning written lifetime5m lifetime1h

private theorem decode_chatCompletions (inRange : usage.InRange) {responsePayload : Json}
    (carries : responsePayload.get "usage" = some (usageValue .chatCompletions usage)) :
    Translation.usage .chatCompletions responsePayload = usage := by
  have detailed : WireApi.chatCompletions = .responses ∨
    WireApi.chatCompletions = .chatCompletions := .inr rfl
  obtain ⟨cached, written, lifetime5m, lifetime1h⟩ := details_decode detailed inRange
  obtain ⟨input, output, total, reasoning⟩ := detailed_counters detailed inRange
  unfold Translation.usage
  simp only [usageField, reduceCtorEq, if_false, carries, Option.getD_some,
    usageValue_detailed detailed]
  refine Usage.ext input output total ?_ reasoning written lifetime5m lifetime1h
  -- no other name of the cached counter is encoded
  have other : (Json.object (detailedFields .chatCompletions usage)).get
      "prompt_cache_hit_tokens" = none := by
    refine (detailed_direct detailed (by decide)).trans ?_
    simp [commonCounters, usageNames, field_insertKnown, field_nil]
  rw [other]
  exact (congrArg (·.or none) cached).trans (Option.or_none)

/-- The checked sums undo the checked differences. -/
private theorem checked_roundTrip {count part other : Nat} (fits : count ≤ u64Max)
    (within : part + other ≤ count) :
    ∃ rest, (checkedSub count part).bind (checkedSub · other) = some rest ∧ rest ≤ u64Max ∧
      (checkedAdd rest part).bind (checkedAdd · other) = some count := by
  refine ⟨count - part - other, ?_, by omega, ?_⟩
  · rw [checkedSub, if_pos (by omega), Option.bind_some, checkedSub, if_pos (by omega)]
  · rw [checkedAdd, if_pos (by omega), Option.bind_some, checkedAdd, if_pos (by omega)]
    congr 1
    omega

/-- The fields of a Messages usage: the details beside the common counters. -/
theorem messages_field (usage : Usage) (key : String) :
    (usageValue .messages usage).get key =
      (Json.field (cacheDetails .messages usage []) key).or
        (Json.field (commonCounters .messages usage) key) :=
  field_foldl_insert (@cacheDetails_distinct .messages usage [] List.nodup_nil) _ key

theorem messages_counter (usage : Usage) {key : String} (other : key ≠ "cache_creation")
    (unwritten : key ≠ "cache_creation_input_tokens") :
    (usageValue .messages usage).get key = Json.field (commonCounters .messages usage) key := by
  rw [messages_field, cacheDetails_field, if_neg other, if_pos rfl, if_neg unwritten]
  rfl

private theorem messages_lifetimes (inRange : usage.InRange) :
    (jsonPointer (usageValue .messages usage)
        ["cache_creation", "ephemeral_5m_input_tokens"]).bind (·.asU64) = usage.cacheWrite5m ∧
      (jsonPointer (usageValue .messages usage)
        ["cache_creation", "ephemeral_1h_input_tokens"]).bind (·.asU64) = usage.cacheWrite1h := by
  have common : Json.field (commonCounters .messages usage) "cache_creation" = none := by
    simp [commonCounters, usageNames, field_insertKnown, field_nil]
  have reached : ∀ key, jsonPointer (usageValue .messages usage) ["cache_creation", key] =
      (Json.field (cacheDetails .messages usage []) "cache_creation").bind fun value =>
        jsonPointer value [key] := by
    intro key
    have field := messages_field usage "cache_creation"
    rw [common, Option.or_none] at field
    rw [← field]
    rfl
  rw [reached, reached]
  exact cacheCreation_pointer inRange .messages (field_nil _)

/-- What is reported as input is what neither was cached nor written. -/
private theorem messages_input (inRange : usage.InRange) (consistent : usage.Consistent) :
    ((((usageValue .messages usage).get "input_tokens").bind (·.asU64)).bind fun count =>
        checkedAdd count (usage.cached.getD 0)).bind (checkedAdd · (usage.cacheWrite.getD 0)) =
      usage.input := by
  rw [messages_counter usage (by decide) (by decide)]
  simp only [commonCounters, usageNames, field_insertKnown, field_nil, if_true, Option.or_none]
  cases known : usage.input with
  | none => simp
  | some input =>
      obtain ⟨rest, reported, fits, back⟩ :=
        checked_roundTrip (inRange.input input known) (consistent.input input known)
      simp only [Option.bind_some, reported]
      simpa [asU64_countValue fits] using back

private theorem decode_messages (inRange : usage.InRange) (consistent : usage.Consistent)
    {responsePayload : Json}
    (carries : responsePayload.get "usage" = some (usageValue .messages usage)) :
    Translation.usage .messages responsePayload = usage.expressibleIn .messages := by
  have cached : ((usageValue .messages usage).get "cache_read_input_tokens").bind (·.asU64) =
      usage.cached := by
    rw [messages_counter usage (by decide) (by decide)]
    simpa [commonCounters, usageNames, field_insertKnown, field_nil] using
      counter_known inRange.cached
  have written : ((usageValue .messages usage).get "cache_creation_input_tokens").bind (·.asU64) =
      usage.cacheWrite := by
    rw [messages_field, cacheDetails_field]
    simpa [commonCounters, usageNames, field_insertKnown, field_nil] using
      counter_known inRange.cacheWrite
  have output : ((usageValue .messages usage).get "output_tokens").bind (·.asU64) =
      usage.output := by
    rw [messages_counter usage (by decide) (by decide)]
    simpa [commonCounters, usageNames, field_insertKnown, field_nil] using
      counter_known inRange.output
  obtain ⟨lifetime5m, lifetime1h⟩ := messages_lifetimes inRange
  unfold Translation.usage
  simp only [usageField, reduceCtorEq, if_false, carries, Option.getD_some, cached, written]
  exact Usage.ext (messages_input inRange consistent) output rfl rfl rfl rfl lifetime5m lifetime1h

/-- What is reported as output is what was not thought. -/
private theorem gemini_output (inRange : usage.InRange) (consistent : usage.Consistent) :
    ((((usageValue .gemini usage).get "candidatesTokenCount").bind (·.asU64)).bind fun count =>
      checkedAdd count (usage.reasoning.getD 0)) = usage.output := by
  have encoded : (usageValue .gemini usage).get "candidatesTokenCount" =
      (usage.output.bind fun count => checkedSub count (usage.reasoning.getD 0)).map
        countValue := by
    have field : (usageValue .gemini usage).get "candidatesTokenCount" =
        Json.field (commonCounters .gemini usage) "candidatesTokenCount" := rfl
    rw [field]
    simp [commonCounters, usageNames, field_insertKnown, field_nil]
  rw [encoded]
  cases known : usage.output with
  | none => rfl
  | some output =>
      have fits := inRange.output output known
      have within := consistent.output output known
      rw [Option.bind_some, checkedSub, if_pos within, Option.map_some, Option.bind_some,
        asU64_countValue (by omega), Option.bind_some, checkedAdd, if_pos (by omega),
        Nat.sub_add_cancel within]

private theorem decode_gemini (inRange : usage.InRange) (consistent : usage.Consistent)
    {responsePayload : Json}
    (carries : responsePayload.get "usageMetadata" = some (usageValue .gemini usage)) :
    Translation.usage .gemini responsePayload = usage.expressibleIn .gemini := by
  have field : ∀ key, (usageValue .gemini usage).get key =
      Json.field (commonCounters .gemini usage) key := fun _ => rfl
  have input : ((usageValue .gemini usage).get "promptTokenCount").bind (·.asU64) =
      usage.input := by
    rw [field]
    simpa [commonCounters, usageNames, field_insertKnown, field_nil] using
      counter_known inRange.input
  have total : ((usageValue .gemini usage).get "totalTokenCount").bind (·.asU64) =
      usage.total := by
    rw [field]
    simpa [commonCounters, usageNames, field_insertKnown, field_nil] using
      counter_known inRange.total
  have cached : ((usageValue .gemini usage).get "cachedContentTokenCount").bind (·.asU64) =
      usage.cached := by
    rw [field]
    simpa [commonCounters, usageNames, field_insertKnown, field_nil] using
      counter_known inRange.cached
  have reasoning : ((usageValue .gemini usage).get "thoughtsTokenCount").bind (·.asU64) =
      usage.reasoning := by
    rw [field]
    simpa [commonCounters, usageNames, field_insertKnown, field_nil] using
      counter_known inRange.reasoning
  unfold Translation.usage
  simp only [usageField, if_true, carries, Option.getD_some, reasoning]
  exact Usage.ext input (gemini_output inRange consistent) total cached rfl rfl rfl rfl

/-- What was encoded for a portable protocol decodes to all that it can express. -/
private theorem decode_usageValue {protocol : WireApi} (isPortable : protocol ∈ portable)
    (inRange : usage.InRange) (consistent : usage.Consistent) {responsePayload : Json}
    (carries : responsePayload.get (usageField protocol) = some (usageValue protocol usage)) :
    Translation.usage protocol responsePayload = usage.expressibleIn protocol := by
  cases protocol with
  | responses => exact decode_responses inRange carries
  | chatCompletions => exact decode_chatCompletions inRange carries
  | messages => exact decode_messages inRange consistent carries
  | gemini => exact decode_gemini inRange consistent carries
  | geminiInteractions => simp [portable] at isPortable

end

/-- A protocol has no counter that it cannot express. -/
private theorem usage_expressible {protocol : WireApi} (isPortable : protocol ∈ portable)
    (responsePayload : Json) :
    (usage protocol responsePayload).expressibleIn protocol = usage protocol responsePayload := by
  cases protocol with
  | geminiInteractions => simp [portable] at isPortable
  | _ => rfl

/-- Usage of `first`, encoded for `second` and decoded there, has the same counters as far
as `second` can express them; for one and the same protocol it is the same usage. -/
theorem usage_roundTrip {first second : WireApi} (isFirst : first ∈ portable)
    (isSecond : second ∈ portable) (upstreamPayload : Json)
    (consistent : (usage first upstreamPayload).Consistent) (clientPayload : Json)
    (carries : clientPayload.get (usageField second) =
      some (usageValue second (usage first upstreamPayload))) :
    let decoded := usage first upstreamPayload
    let again := usage second clientPayload
    again.input = decoded.input ∧ again.output = decoded.output ∧ again.cached = decoded.cached ∧
      (second ≠ .gemini → again.cacheWrite = decoded.cacheWrite ∧
        again.cacheWrite5m = decoded.cacheWrite5m ∧ again.cacheWrite1h = decoded.cacheWrite1h) ∧
      (second ≠ .messages → again.reasoning = decoded.reasoning ∧ again.total = decoded.total) ∧
      (second = .gemini → again.cacheWrite = none ∧ again.cacheWrite5m = none ∧
        again.cacheWrite1h = none) ∧
      (second = .messages → again.reasoning = none ∧ again.total = none) ∧
      (second = first → again = decoded) := by
  intro decoded again
  have result : again = decoded.expressibleIn second :=
    decode_usageValue isSecond (usage_inRange first upstreamPayload) consistent carries
  have own : second = first → again = decoded := by
    rintro rfl
    exact result.trans (usage_expressible isFirst upstreamPayload)
  clear_value again
  subst result
  refine ⟨?_, ?_, ?_, ?_, ?_, ?_, ?_, own⟩ <;> cases second <;> simp [Usage.expressibleIn]

/-- A Messages usage with cached and written tokens, reported to a Chat Completions client. -/
theorem usage_roundTrip_messages :
    let upstreamPayload := Json.object [("usage", .object [("input_tokens", .number "30"),
      ("cache_read_input_tokens", .number "50"), ("cache_creation_input_tokens", .number "20"),
      ("output_tokens", .number "7")])]
    let decoded := usage .messages upstreamPayload
    let again := usage .chatCompletions
      (.object [("usage", usageValue .chatCompletions decoded)])
    decoded = ⟨some 100, some 7, none, some 50, none, some 20, none, none⟩ ∧
      again.input = some 100 ∧ again.cached = some 50 ∧ again.cacheWrite = some 20 := by
  intro upstreamPayload decoded again
  have isDecoded : decoded = ⟨some 100, some 7, none, some 50, none, some 20, none, none⟩ := by
    decide +kernel
  have consistent : decoded.Consistent := by
    rw [isDecoded]
    constructor <;> simp
  obtain ⟨input, -, cached, written, -⟩ := @usage_roundTrip .messages
    .chatCompletions (by decide) (by decide) upstreamPayload consistent
    (.object [("usage", usageValue .chatCompletions decoded)]) rfl
  refine ⟨isDecoded, ?_, ?_, ?_⟩
  · exact input.trans (congrArg Usage.input isDecoded)
  · exact cached.trans (congrArg Usage.cached isDecoded)
  · exact (written (by decide)).1.trans (congrArg Usage.cacheWrite isDecoded)

end ZenithRelay.Protocol.Adapter.Translation
