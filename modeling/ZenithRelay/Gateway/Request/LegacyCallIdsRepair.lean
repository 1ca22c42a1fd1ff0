import ZenithRelay.Foundations.TextProperties
import ZenithRelay.Gateway.Request.LegacyCallIdsSecondScan

/-!
# The repaired request

What the edits make of the items, and that a repair is complete or no change at all.
-/

set_option autoImplicit false

namespace ZenithRelay.Gateway.Request

/-! ### Ids that an item can carry -/

/-- An id that is read back as it was written. -/
structure Carried (callId : String) : Prop where
  visible : callId ≠ ""
  bare : Text.trim callId = callId
  short : callId.utf8ByteSize ≤ 256

theorem carried_field {inputItem : Json} {field id : String}
    (formed : isMalformedField inputItem field = false)
    (present : boundedToolCallId (inputItem.get field) = some id) : Carried id := by
  unfold boundedToolCallId at present
  obtain ⟨trimmed, good⟩ := Option.filter_eq_some_iff.mp present
  obtain ⟨text, read, same⟩ := Option.map_eq_some_iff.mp trimmed
  obtain ⟨value, stored, isText⟩ := Option.bind_eq_some_iff.mp read
  have whole : text = Text.trim text := by
    unfold isMalformedField at formed
    rw [stored, Option.any_some, isText, Option.all_some] at formed
    cases value with
    | string content =>
        rw [Bool.and_eq_false_iff, Bool.or_eq_false_iff] at formed
        rcases formed with text | ⟨same, _⟩
        · cases text
        · simpa using same
    | _ => cases isText
  rw [← same] at good ⊢
  rw [Bool.and_eq_true, decide_eq_true_iff, decide_eq_true_iff] at good
  exact ⟨good.1, by rw [← whole, ← whole], good.2⟩

/-- The fields that a legacy entry reads are well formed. -/
def WellFormed (inputItem : Json) : Prop :=
  ∀ field ∈ ["call_id", "id", "name", "namespace"], isMalformedField inputItem field = false

/-- An item that is read as a call or an output. -/
theorem legacyEntry_cases (inputItem : Json) :
    legacyEntry inputItem = .ignored ∨ legacyEntry inputItem = .malformed ∨
      ∃ itemType family, (inputItem.get "type").bind Json.asStr = some itemType ∧
        legacyResponsesCallFamily itemType = some family ∧ WellFormed inputItem ∧
        (itemType = family.callType ∧
            legacyEntry inputItem = .call (legacyLink inputItem itemType family) ∨
          itemType ≠ family.callType ∧ itemType = family.outputType ∧
            legacyEntry inputItem = .output (legacyLink inputItem itemType family)) := by
  unfold legacyEntry
  cases read : (inputItem.get "type").bind Json.asStr with
  | none => exact .inl rfl
  | some itemType =>
      dsimp only
      cases known : legacyResponsesCallFamily itemType with
      | none => exact .inl rfl
      | some family =>
          dsimp only
          split
          next => exact .inr (.inl rfl)
          next formed =>
            have wellFormed : WellFormed inputItem := fun field member => by
              simpa using fun malformed => formed (List.any_eq_true.mpr ⟨field, member, malformed⟩)
            split
            next call => exact .inr (.inr ⟨_, _, rfl, known, wellFormed, .inl ⟨call, rfl⟩⟩)
            next noCall =>
              split
              next output =>
                exact .inr (.inr ⟨_, _, rfl, known, wellFormed, .inr ⟨noCall, output, rfl⟩⟩)
              next => exact .inl rfl

/-- The link of a call or an output, whichever the item is. -/
def LegacyEntry.link? : LegacyEntry → Option LegacyLink
  | .call link => some link
  | .output link => some link
  | _ => none

theorem carried_ids {inputItem : Json} {link : LegacyLink}
    (read : (legacyEntry inputItem).link? = some link) {id : String}
    (known : link.callId = some id ∨ link.itemId = some id) : Carried id := by
  have fields : link = legacyLink inputItem
      (((inputItem.get "type").bind Json.asStr).getD "") link.family ∧ WellFormed inputItem := by
    rcases legacyEntry_cases inputItem with none | none | ⟨itemType, family, kind, _, formed, entry⟩
    · rw [none] at read
      cases read
    · rw [none] at read
      cases read
    · rw [kind]
      rcases entry with ⟨_, entry⟩ | ⟨_, _, entry⟩ <;>
        (rw [entry] at read; cases read; exact ⟨rfl, formed⟩)
  obtain ⟨same, formed⟩ := fields
  rw [same] at known
  rcases known with callId | itemId
  · exact carried_field (formed "call_id" (by simp)) callId
  · exact carried_field (formed "id" (by simp)) itemId

/-! ### New ids -/

theorem digits_short {number : Nat} (small : number < 10000) :
    (String.ofList (Nat.toDigits 10 number)).utf8ByteSize ≤ 16 := by
  have length : (Nat.toDigits 10 number).length ≤ 4 :=
    (Nat.length_toDigits_le_iff (by decide) (by decide)).mpr small
  exact (Text.utf8ByteSize_ofList_le _).trans (by omega)

theorem digits_visible (number : Nat) :
    ∀ character ∈ Nat.toDigits 10 number, Text.isWhitespace character = false := by
  intro character member
  have digit := Nat.isDigit_of_mem_toDigits (by decide) (by decide) member
  have range : 48 ≤ character.toNat ∧ character.toNat ≤ 57 := by
    simpa [Char.isDigit, UInt32.le_iff_toNat_le] using digit
  simp [Text.isWhitespace]
  omega

/-- The candidates have a start, digits and maybe an ending. -/
theorem carried_of_visible {start : String} {ending : List Char} {number : Nat}
    (small : number < 10000) (visible : ∀ character ∈ start.toList ++ ending,
      Text.isWhitespace character = false)
    (short : start.utf8ByteSize + 4 * ending.length ≤ 240) :
    Carried (start ++ String.ofList (Nat.toDigits 10 number) ++ String.ofList ending) := by
  refine ⟨?_, ?_, ?_⟩
  · intro empty
    have none := congrArg String.toList empty
    simp at none
  · rw [← String.toList_inj, Text.toList_trim]
    refine Text.trimChars_of_visible fun character member => ?_
    rw [String.toList_append, String.toList_append, String.toList_ofList, String.toList_ofList]
      at member
    rcases List.mem_append.mp member with front | back
    · rcases List.mem_append.mp front with first | digit
      · exact visible character (List.mem_append_left _ first)
      · exact digits_visible number character digit
    · exact visible character (List.mem_append_right _ back)
  · rw [String.utf8ByteSize_append, String.utf8ByteSize_append]
    have digits := digits_short small
    have rest := Text.utf8ByteSize_ofList_le ending
    omega

theorem visible_of_all {text : List Char}
    (all : (text.all fun character => !Text.isWhitespace character) = true) :
    ∀ character ∈ text, Text.isWhitespace character = false := by
  intro character member
  simpa using List.all_eq_true.mp all character member

theorem start_visible :
    ∀ character ∈ "call_missing_".toList, Text.isWhitespace character = false :=
  visible_of_all rfl

/-- A new id can be carried, even where every suffix is taken. -/
private theorem nextLegacyResponsesCallId_carried {index : Nat} (small : index < 4096)
    (used : List String) : Carried (nextLegacyResponsesCallId index used).1 := by
  have size : "call_missing_".utf8ByteSize = 13 := rfl
  have underscore : "_".toList = ['_'] := rfl
  unfold nextLegacyResponsesCallId
  dsimp only
  split
  next =>
    have plain := @carried_of_visible "call_missing_" [] index (by omega)
      (by simpa using start_visible) (by rw [size]; decide)
    simpa using plain
  next =>
    split
    next suffix found =>
      have within : suffix < 4096 := List.mem_range.mp (List.mem_of_find?_eq_some found)
      have numbered := @carried_of_visible
        ("call_missing_" ++ String.ofList (Nat.toDigits 10 index) ++ "_") [] (suffix + 1)
        (by omega) (fun character member => ?_) ?_
      · simpa using numbered
      · rw [List.append_nil, String.toList_append, String.toList_append, String.toList_ofList,
          underscore] at member
        rcases List.mem_append.mp member with front | last
        · rcases List.mem_append.mp front with first | digit
          · exact start_visible character first
          · exact digits_visible index character (by
              rwa [String.toList_ofList] at digit)
        · obtain rfl := List.mem_singleton.mp last
          decide
      · have digits := digits_short (show index < 10000 by omega)
        have one : "_".utf8ByteSize = 1 := rfl
        rw [String.utf8ByteSize_append, String.utf8ByteSize_append, size, one]
        simp only [List.length_nil]
        omega
    next =>
      have shape : "_overflow".toList = ['_', 'o', 'v', 'e', 'r', 'f', 'l', 'o', 'w'] := rfl
      have ended := @carried_of_visible "call_missing_" "_overflow".toList index (by omega)
        (fun character member => ?_) (by rw [size, shape]; decide)
      · simpa using ended
      · rcases List.mem_append.mp member with first | last
        · exact start_visible character first
        · exact visible_of_all rfl character last

/-! ### One edit -/

theorem get_setCallId {inputItem : Json} {fields : List (String × Json)}
    (isObject : inputItem = .object fields) (callId key : String) :
    (setCallId inputItem callId).get key =
      if key = "call_id" then some (.string callId) else inputItem.get key := by
  subst isObject
  rw [setCallId]
  exact Json.field_insert fields "call_id" key (.string callId)

theorem isObject_of_get {inputItem value : Json} {key : String}
    (present : inputItem.get key = some value) : ∃ fields, inputItem = .object fields := by
  cases inputItem with
  | object fields => exact ⟨fields, rfl⟩
  | _ => cases present

private theorem legacyEntry_eq {inputItem : Json} {itemType : String} {family : LegacyResponsesCallFamily}
    (kind : (inputItem.get "type").bind Json.asStr = some itemType)
    (known : legacyResponsesCallFamily itemType = some family) (formed : WellFormed inputItem) :
    legacyEntry inputItem =
      if itemType = family.callType then .call (legacyLink inputItem itemType family)
      else if itemType = family.outputType then .output (legacyLink inputItem itemType family)
      else .ignored := by
  have none : ["call_id", "id", "name", "namespace"].any (isMalformedField inputItem) = false := by
    rw [List.any_eq_false]
    intro field member
    rw [formed field member]
    exact Bool.false_ne_true
  unfold legacyEntry
  rw [kind]
  dsimp only
  rw [known]
  dsimp only
  rw [if_neg (by rw [none]; exact Bool.false_ne_true)]

theorem WellFormed.setCallId {inputItem : Json} {fields : List (String × Json)}
    (isObject : inputItem = .object fields) (formed : WellFormed inputItem) {id : String}
    (carried : Carried id) : WellFormed (setCallId inputItem id) := by
  intro field member
  by_cases own : field = "call_id"
  · unfold isMalformedField
    rw [get_setCallId isObject, if_pos own, Option.any_some, Json.asStr, Option.all_some,
      carried.bare]
    have short : ¬maxLegacyResponsesNameChars < id.utf8ByteSize := Nat.not_lt.mpr carried.short
    simp [short]
  · have same := formed field member
    unfold isMalformedField at same ⊢
    rw [get_setCallId isObject, if_neg own]
    exact same

/-- The new id is all that the repair reads differently. -/
private theorem legacyLink_setCallId {inputItem : Json} {fields : List (String × Json)}
    (isObject : inputItem = .object fields) (itemType : String)
    (family : LegacyResponsesCallFamily) {id : String} (carried : Carried id) :
    legacyLink (setCallId inputItem id) itemType family =
      (legacyLink inputItem itemType family).withId id := by
  have callId : legacyResponsesCallId (setCallId inputItem id) = some id := by
    unfold legacyResponsesCallId
    rw [get_setCallId isObject, if_pos rfl, Option.bind_some, Json.asStr, Option.map_some,
      carried.bare]
    have visible := carried.visible
    have short := carried.short
    simp [visible, short]
  unfold legacyLink LegacyLink.withId legacyToolName
  rw [callId, get_setCallId isObject, get_setCallId isObject, get_setCallId isObject,
    if_neg (by decide), if_neg (by decide), if_neg (by decide)]

def LegacyEntry.withId : LegacyEntry → String → LegacyEntry
  | .call link, id => .call (link.withId id)
  | .output link, id => .output (link.withId id)
  | entry, _ => entry

theorem legacyEntry_setCallId {inputItem : Json} {link : LegacyLink}
    (read : (legacyEntry inputItem).link? = some link) {id : String} (carried : Carried id) :
    legacyEntry (setCallId inputItem id) = (legacyEntry inputItem).withId id := by
  rcases legacyEntry_cases inputItem with none | none | ⟨itemType, family, kind, known, formed, entry⟩
  · rw [none] at read
    cases read
  · rw [none] at read
    cases read
  · obtain ⟨value, present, _⟩ := Option.bind_eq_some_iff.mp kind
    obtain ⟨fields, isObject⟩ := isObject_of_get present
    have kindAfter : ((setCallId inputItem id).get "type").bind Json.asStr = some itemType := by
      rw [get_setCallId isObject, if_neg (by decide)]
      exact kind
    rw [legacyEntry_eq kindAfter known (formed.setCallId isObject carried),
      legacyLink_setCallId isObject itemType family carried]
    rcases entry with ⟨call, entry⟩ | ⟨noCall, output, entry⟩
    · rw [entry, if_pos call]
      rfl
    · rw [entry, if_neg noCall, if_pos output]
      rfl

/-! ### All edits -/

/-- Edits of different items do not interfere. -/
theorem applyEdits_getElem? {edits : List (Nat × String)} (apart : (edits.map Prod.fst).Nodup)
    (inputItems : List Json) (index : Nat) :
    (applyEdits inputItems edits)[index]? =
      match edits.find? fun edit => edit.1 = index with
      | some edit => inputItems[index]?.map fun item => setCallId item edit.2
      | none => inputItems[index]? := by
  unfold applyEdits
  induction edits generalizing inputItems with
  | nil => rfl
  | cons edit edits ih =>
      obtain ⟨fresh, rest⟩ := List.nodup_cons.mp apart
      rw [List.foldl_cons, ih rest, List.find?_cons]
      by_cases own : edit.1 = index
      · have absent : edits.find? (fun edit => edit.1 = index) = none := by
          rw [List.find?_eq_none]
          intro other member same
          exact fresh (List.mem_map.mpr ⟨other, member, by simpa [own] using same⟩)
        rw [absent, decide_eq_true own]
        dsimp only
        rw [← own, List.getElem?_modify_eq]
        rfl
      · rw [decide_eq_false own]
        have kept : (inputItems.modify edit.1 fun item => setCallId item edit.2)[index]? =
            inputItems[index]? := by
          rw [List.getElem?_modify]
          simp [own]
        rw [kept]

theorem applyEdits_length (inputItems : List Json) (edits : List (Nat × String)) :
    (applyEdits inputItems edits).length = inputItems.length := by
  unfold applyEdits
  induction edits generalizing inputItems with
  | nil => rfl
  | cons edit edits ih => rw [List.foldl_cons, ih, List.length_modify]

theorem applyEdits_edited {edits : List (Nat × String)} (apart : (edits.map Prod.fst).Nodup)
    (inputItems : List Json) {edit : Nat × String} (member : edit ∈ edits) :
    (applyEdits inputItems edits)[edit.1]? =
      inputItems[edit.1]?.map fun item => setCallId item edit.2 := by
  rw [applyEdits_getElem? apart]
  cases found : edits.find? fun other => other.1 = edit.1 with
  | none =>
      have missed := List.find?_eq_none.mp found edit member
      simp at missed
  | some other =>
      have same : other.1 = edit.1 := by simpa using List.find?_some found
      rw [List.inj_on_of_nodup_map apart (List.mem_of_find?_eq_some found) member same]

theorem applyEdits_unedited {edits : List (Nat × String)} (apart : (edits.map Prod.fst).Nodup)
    (inputItems : List Json) {index : Nat} (untouched : ∀ edit ∈ edits, edit.1 ≠ index) :
    (applyEdits inputItems edits)[index]? = inputItems[index]? := by
  rw [applyEdits_getElem? apart]
  have none : edits.find? (fun edit => edit.1 = index) = none := by
    rw [List.find?_eq_none]
    intro edit member
    simpa using untouched edit member
  rw [none]

/-! ### The edits of a plan -/

namespace Answer

theorem mem_edits {answer : Answer} {edit : Nat × String} :
    edit ∈ answer.edits ↔
      answer.call.link.callId = none ∧ edit = (answer.call.index, answer.callId) ∨
        answer.outputLink.callId ≠ some answer.callId ∧ edit = (answer.output, answer.callId) := by
  unfold edits
  rw [List.mem_append]
  cases own : answer.call.link.callId <;>
    by_cases linked : answer.outputLink.callId = some answer.callId <;> simp [linked]

end Answer

section Edits

variable {entries : List LegacyEntry} {final : LegacyRepairScan} {answers : List Answer}
  (whole : Planned entries final answers)

include whole

/-- No call is an output. -/
theorem call_ne_output {first second : Answer} (firstMember : first ∈ answers)
    (secondMember : second ∈ answers) : first.call.index ≠ second.output := by
  intro same
  have asked := whole.asked first firstMember
  rw [same, (whole.given second secondMember).1] at asked
  cases asked

theorem same_call {first second : Answer} (firstMember : first ∈ answers)
    (secondMember : second ∈ answers) (same : first.call.index = second.call.index) :
    first = second :=
  List.inj_on_of_nodup_map (List.nodup_append.mp whole.once).2.1 firstMember secondMember same

theorem same_output {first second : Answer} (firstMember : first ∈ answers)
    (secondMember : second ∈ answers) (same : first.output = second.output) : first = second :=
  List.inj_on_of_nodup_map whole.outputs firstMember secondMember same

theorem edits_apart : (final.edits.map Prod.fst).Nodup := by
  have distinct : answers.Nodup := List.Nodup.of_map _ whole.outputs
  rw [whole.edits, List.map_flatMap, List.nodup_flatMap]
  refine ⟨fun answer member => ?_, distinct.pairwise_of_forall_ne ?_⟩
  · unfold Answer.edits
    have apart := call_ne_output whole member member
    split <;> split <;> simp [apart]
  · intro first firstMember second secondMember differ index inFirst inSecond
    obtain ⟨one, oneEdit, rfl⟩ := List.mem_map.mp inFirst
    obtain ⟨other, otherEdit, same⟩ := List.mem_map.mp inSecond
    rcases Answer.mem_edits.mp oneEdit with ⟨_, rfl⟩ | ⟨_, rfl⟩ <;>
      rcases Answer.mem_edits.mp otherEdit with ⟨_, rfl⟩ | ⟨_, rfl⟩
    · exact differ (same_call whole firstMember secondMember same.symm)
    · exact call_ne_output whole firstMember secondMember same.symm
    · exact call_ne_output whole secondMember firstMember same
    · exact differ (same_output whole firstMember secondMember same.symm)

theorem call_after {answer : Answer} (member : answer ∈ answers) (inputItems : List Json) :
    (applyEdits inputItems final.edits)[answer.call.index]? =
      inputItems[answer.call.index]?.map fun item =>
        if answer.call.link.callId.isSome then item else setCallId item answer.callId := by
  cases own : answer.call.link.callId with
  | none =>
      have edited : (answer.call.index, answer.callId) ∈ final.edits := by
        rw [whole.edits]
        exact List.mem_flatMap.mpr ⟨answer, member, Answer.mem_edits.mpr (.inl ⟨own, rfl⟩)⟩
      exact applyEdits_edited (edits_apart whole) inputItems edited
  | some id =>
      rw [applyEdits_unedited (edits_apart whole)]
      · simp
      · intro edit edited same
        rw [whole.edits] at edited
        obtain ⟨other, otherMember, inside⟩ := List.mem_flatMap.mp edited
        rcases Answer.mem_edits.mp inside with ⟨missing, rfl⟩ | ⟨_, rfl⟩
        · rw [same_call whole otherMember member same, own] at missing
          cases missing
        · exact call_ne_output whole member otherMember same.symm

theorem output_after {answer : Answer} (member : answer ∈ answers) (inputItems : List Json) :
    (applyEdits inputItems final.edits)[answer.output]? =
      inputItems[answer.output]?.map fun item =>
        if answer.outputLink.callId = some answer.callId then item
        else setCallId item answer.callId := by
  by_cases linked : answer.outputLink.callId = some answer.callId
  · rw [applyEdits_unedited (edits_apart whole)]
    · simp [linked]
    · intro edit edited same
      rw [whole.edits] at edited
      obtain ⟨other, otherMember, inside⟩ := List.mem_flatMap.mp edited
      rcases Answer.mem_edits.mp inside with ⟨_, rfl⟩ | ⟨unlinked, rfl⟩
      · exact call_ne_output whole otherMember member same
      · rw [same_output whole otherMember member same] at unlinked
        exact unlinked linked
  · have edited : (answer.output, answer.callId) ∈ final.edits := by
      rw [whole.edits]
      exact List.mem_flatMap.mpr ⟨answer, member, Answer.mem_edits.mpr (.inr ⟨linked, rfl⟩)⟩
    simpa [linked] using applyEdits_edited (edits_apart whole) inputItems edited

theorem other_after {index : Nat}
    (other : ∀ answer ∈ answers, answer.call.index ≠ index ∧ answer.output ≠ index)
    (inputItems : List Json) : (applyEdits inputItems final.edits)[index]? = inputItems[index]? := by
  refine applyEdits_unedited (edits_apart whole) inputItems fun edit edited same => ?_
  rw [whole.edits] at edited
  obtain ⟨answer, member, inside⟩ := List.mem_flatMap.mp edited
  rcases Answer.mem_edits.mp inside with ⟨_, rfl⟩ | ⟨_, rfl⟩
  · exact (other answer member).1 same
  · exact (other answer member).2 same

end Edits

theorem item_of_entry {inputItems : List Json} {index : Nat} {entry : LegacyEntry}
    (present : (inputItems.map legacyEntry)[index]? = some entry) :
    ∃ item, inputItems[index]? = some item ∧ legacyEntry item = entry := by
  rw [List.getElem?_map] at present
  exact Option.map_eq_some_iff.mp present

section Items

variable {inputItems : List Json} {final : LegacyRepairScan} {answers : List Answer}
  (whole : Planned (inputItems.map legacyEntry) final answers)
  (bounded : inputItems.length ≤ maxLegacyResponsesRepairItems)

include whole bounded

theorem answer_carried {answer : Answer} (member : answer ∈ answers) : Carried answer.callId := by
  have asked := whole.asked answer member
  obtain ⟨item, _, entry⟩ := item_of_entry asked
  have read : (legacyEntry item).link? = some answer.call.link := by rw [entry]; rfl
  rcases whole.origin answer member with own | named | ⟨used, generated⟩
  · exact carried_ids read (.inl own)
  · exact carried_ids read (.inr named)
  · rw [generated]
    have inside := lt_of_getElem? asked
    rw [List.length_map] at inside
    exact nextLegacyResponsesCallId_carried (Nat.lt_of_lt_of_le inside bounded) used

/-- The edits leave every call and its output with one id. -/
theorem relinked :
    Relinked (inputItems.map legacyEntry)
      ((applyEdits inputItems final.edits).map legacyEntry) answers where
  calls answer member := by
    obtain ⟨item, present, entry⟩ := item_of_entry (whole.asked answer member)
    rw [List.getElem?_map, call_after whole member, present, Option.map_some, Option.map_some]
    cases own : answer.call.link.callId with
    | none =>
        have read : (legacyEntry item).link? = some answer.call.link := by rw [entry]; rfl
        rw [if_neg (by simp), legacyEntry_setCallId read (answer_carried whole bounded member),
          entry]
        rfl
    | some id =>
        have same : answer.call.link.withId answer.callId = answer.call.link := by
          rw [LegacyLink.withId, whole.own answer member id own, ← own]
        rw [if_pos (by simp), entry, same]
  outputs answer member := by
    obtain ⟨item, present, entry⟩ := item_of_entry (whole.given answer member).1
    rw [List.getElem?_map, output_after whole member, present, Option.map_some, Option.map_some]
    by_cases linked : answer.outputLink.callId = some answer.callId
    · have same : answer.outputLink.withId answer.callId = answer.outputLink := by
        rw [LegacyLink.withId, ← linked]
      rw [if_pos linked, entry, same]
    · have read : (legacyEntry item).link? = some answer.outputLink := by rw [entry]; rfl
      rw [if_neg linked, legacyEntry_setCallId read (answer_carried whole bounded member), entry]
      rfl
  others index other := by
    rw [List.getElem?_map, List.getElem?_map, other_after whole other]

end Items

/-! ### What a repair amounts to -/

/-- An output says nothing against a call being its own. -/
structure Identifies (output call : LegacyLink) : Prop where
  family : call.family = output.family
  toolName : ∀ name, output.toolName = some name → call.toolName = some name
  namespaceName : ∀ name, output.namespaceName = some name → call.namespaceName = some name
  named : ∀ id, output.callId = some id → call.callId = some id ∨ call.itemId = some id

theorem identifies_spec {output call : LegacyLink} :
    output.identifies call = true ↔ Identifies output call := by
  rw [identifies_iff]
  unfold sameKind
  rw [Bool.and_eq_true, Bool.and_eq_true, decide_eq_true_iff]
  constructor
  · rintro ⟨⟨⟨family, toolName⟩, namespaceName⟩, named⟩
    refine ⟨family, fun name own => ?_, fun name own => ?_, named⟩
    · rw [own] at toolName
      simpa using toolName
    · rw [own] at namespaceName
      simpa using namespaceName
  · intro identifies
    refine ⟨⟨⟨identifies.family, ?_⟩, ?_⟩, identifies.named⟩
    · cases own : output.toolName with
      | none => rfl
      | some name => simpa using identifies.toolName name own
    · cases own : output.namespaceName with
      | none => rfl
      | some name => simpa using identifies.namespaceName name own

/-- The entry at an index. -/
def entryAt (items : List Json) (index : Nat) : Option LegacyEntry := items[index]?.map legacyEntry

/-- `pairs` links calls to outputs, both by index. -/
structure RepairedLinks (items after : List Json) (pairs : List (Nat × Nat)) : Prop where
  length : after.length = items.length
  /-- Nothing but the id of a call or an output changes. -/
  fields : ∀ (index : Nat) (item : Json), items[index]? = some item →
    ∃ itemAfter, after[index]? = some itemAfter ∧
      (itemAfter = item ∨ (legacyEntry item).link?.isSome = true ∧
        ∀ key, key ≠ "call_id" → itemAfter.get key = item.get key)
  kept : ∀ (index : Nat) (call : LegacyLink), entryAt items index = some (.call call) →
    call.callId.isSome = true → after[index]? = items[index]?
  distinct : ∀ (first second : Nat) (firstCall secondCall : LegacyLink),
    entryAt after first = some (.call firstCall) → entryAt after second = some (.call secondCall) →
    firstCall.callId = secondCall.callId → first = second
  once : (pairs.map Prod.fst).Nodup ∧ (pairs.map Prod.snd).Nodup
  answered : ∀ (index : Nat) (call : LegacyLink), entryAt after index = some (.call call) →
    ∃ output, (index, output) ∈ pairs
  linked : ∀ pair ∈ pairs, ∃ call output id, pair.1 < pair.2 ∧
    entryAt items pair.1 = some (.call call) ∧ entryAt items pair.2 = some (.output output) ∧
    Identifies output call ∧
    entryAt after pair.1 = some (.call (call.withId id)) ∧
    entryAt after pair.2 = some (.output (output.withId id))
  /-- An output that is linked to no call stays as it is: whatever call it could mean was
  answered before. -/
  unlinked : ∀ (index : Nat) (output : LegacyLink), entryAt items index = some (.output output) →
    index ∉ pairs.map Prod.snd → after[index]? = items[index]? ∧
      ∀ (call : Nat) (link : LegacyLink), call < index → entryAt items call = some (.call link) →
        Identifies output link → ∃ earlier, (call, earlier) ∈ pairs ∧ earlier < index

/-- A request after its repair. -/
structure RepairedRequest (request repaired : Json) : Prop where
  links : ∃ items after pairs, (request.get "input").bind Json.asArray = some items ∧
    repaired = request.set "input" (.array after) ∧ RepairedLinks items after pairs
  settled : repairLegacyResponsesCallIds repaired = (repaired, false)

theorem entryAt_eq (items : List Json) (index : Nat) :
    entryAt items index = (items.map legacyEntry)[index]? := (List.getElem?_map).symm

section Repaired

variable {inputItems : List Json} {final : LegacyRepairScan} {answers : List Answer}
  (whole : Planned (inputItems.map legacyEntry) final answers)
  (bounded : inputItems.length ≤ maxLegacyResponsesRepairItems)

include whole

private theorem fields_after {index : Nat} {item : Json} (present : inputItems[index]? = some item) :
    ∃ itemAfter, (applyEdits inputItems final.edits)[index]? = some itemAfter ∧
      (itemAfter = item ∨ (legacyEntry item).link?.isSome = true ∧
        ∀ key, key ≠ "call_id" → itemAfter.get key = item.get key) := by
  have edited : ∀ id link, (legacyEntry item).link? = some link →
      ∀ key, key ≠ "call_id" → (setCallId item id).get key = item.get key := by
    intro id link read key other
    rcases legacyEntry_cases item with none | none | ⟨itemType, _, kind, _⟩
    · rw [none] at read
      cases read
    · rw [none] at read
      cases read
    · obtain ⟨_, found, _⟩ := Option.bind_eq_some_iff.mp kind
      obtain ⟨fields, isObject⟩ := isObject_of_get found
      rw [get_setCallId isObject, if_neg other]
  by_cases call : ∃ answer ∈ answers, answer.call.index = index
  · obtain ⟨answer, member, rfl⟩ := call
    have read : legacyEntry item = .call answer.call.link := by
      have asked := whole.asked answer member
      rw [List.getElem?_map, present] at asked
      exact Option.some.inj asked
    rw [call_after whole member, present]
    refine ⟨_, rfl, ?_⟩
    split
    next => exact .inl rfl
    next =>
      exact .inr ⟨by rw [read]; rfl, edited _ answer.call.link (by rw [read]; rfl)⟩
  · by_cases output : ∃ answer ∈ answers, answer.output = index
    · obtain ⟨answer, member, rfl⟩ := output
      have read : legacyEntry item = .output answer.outputLink := by
        have given := (whole.given answer member).1
        rw [List.getElem?_map, present] at given
        exact Option.some.inj given
      rw [output_after whole member, present]
      refine ⟨_, rfl, ?_⟩
      split
      next => exact .inl rfl
      next =>
        exact .inr ⟨by rw [read]; rfl, edited _ answer.outputLink (by rw [read]; rfl)⟩
    · refine ⟨item, ?_, .inl rfl⟩
      rw [other_after whole fun answer member =>
        ⟨fun same => call ⟨answer, member, same⟩, fun same => output ⟨answer, member, same⟩⟩]
      exact present

include bounded

theorem call_answered (complete : final.pending = []) {index : Nat} {call : LegacyLink}
    (present : entryAt (applyEdits inputItems final.edits) index = some (.call call)) :
    ∃ answer ∈ answers, answer.call.index = index ∧
      call = answer.call.link.withId answer.callId := by
  have relink := relinked whole bounded
  rw [entryAt_eq] at present
  by_cases asked : ∃ answer ∈ answers, answer.call.index = index
  · obtain ⟨answer, member, rfl⟩ := asked
    have after := relink.calls answer member
    rw [present] at after
    cases after
    exact ⟨answer, member, rfl, rfl⟩
  · by_cases output : ∃ answer ∈ answers, answer.output = index
    · obtain ⟨answer, member, rfl⟩ := output
      have after := relink.outputs answer member
      rw [present] at after
      cases after
    · rw [relink.others index fun answer member =>
        ⟨fun same => asked ⟨answer, member, same⟩, fun same => output ⟨answer, member, same⟩⟩]
        at present
      obtain ⟨answer, member, same, _⟩ := answered whole complete present
      exact absurd ⟨answer, member, by rw [same]⟩ asked

private theorem repairedLinks (complete : final.pending = []) :
    RepairedLinks inputItems (applyEdits inputItems final.edits)
      (answers.map fun answer => (answer.call.index, answer.output)) where
  length := applyEdits_length _ _
  fields index item present := fields_after whole present
  kept index call present known := by
    rw [entryAt_eq] at present
    obtain ⟨answer, member, same, _⟩ := answered whole complete present
    have after := call_after whole member inputItems
    rw [same] at after
    simpa [known] using after
  distinct first second firstCall secondCall firstPresent secondPresent same := by
    obtain ⟨one, oneMember, rfl, rfl⟩ := call_answered whole bounded complete firstPresent
    obtain ⟨other, otherMember, rfl, rfl⟩ := call_answered whole bounded complete secondPresent
    have ids : (answers.map (·.callId)).Nodup := (List.nodup_append.mp whole.ids).2.1
    rw [List.inj_on_of_nodup_map ids oneMember otherMember (Option.some.inj same)]
  once := by
    rw [List.map_map, List.map_map]
    exact ⟨(List.nodup_append.mp whole.once).2.1, whole.outputs⟩
  answered index call present := by
    obtain ⟨answer, member, rfl, _⟩ := call_answered whole bounded complete present
    exact ⟨answer.output, List.mem_map.mpr ⟨answer, member, rfl⟩⟩
  linked pair member := by
    obtain ⟨answer, inside, rfl⟩ := List.mem_map.mp member
    obtain ⟨given, before, identified⟩ := whole.given answer inside
    have relink := relinked whole bounded
    refine ⟨answer.call.link, answer.outputLink, answer.callId, before, ?_, ?_,
      identifies_spec.mp identified, ?_, ?_⟩
    · rw [entryAt_eq]
      exact whole.asked answer inside
    · rw [entryAt_eq]
      exact given
    · rw [entryAt_eq]
      exact relink.calls answer inside
    · rw [entryAt_eq]
      exact relink.outputs answer inside
  unlinked index output present free := by
    rw [entryAt_eq] at present
    have noOutput : ∀ answer ∈ answers, answer.output ≠ index := fun answer member same =>
      free (List.mem_map.mpr ⟨_, List.mem_map.mpr ⟨answer, member, rfl⟩, same⟩)
    refine ⟨other_after whole (fun answer member => ⟨fun same => ?_, noOutput answer member⟩) _, ?_⟩
    · have asked := whole.asked answer member
      rw [same, present] at asked
      cases asked
    · intro call link before called identified
      rw [entryAt_eq] at called
      rcases whole.orphans index output present with ⟨answer, member, same⟩ | taken
      · exact absurd same (noOutput answer member)
      · obtain ⟨answer, member, rfl, earlier⟩ :=
          taken call link before called (identifies_spec.mpr identified)
        exact ⟨answer.output, List.mem_map.mpr ⟨answer, member, rfl⟩, earlier⟩

end Repaired

/-- A plan comes from a scan that answers every call. -/
theorem plannedEdits_scanned {inputItems : List Json} {edits : List (Nat × String)}
    (planned : plannedEdits inputItems = some edits) :
    inputItems.length ≤ maxLegacyResponsesRepairItems ∧ edits ≠ [] ∧ ∃ used scan answers,
      Scanned used (inputItems.map legacyEntry) scan answers ∧ scan.pending = [] ∧
        scan.edits = edits := by
  unfold plannedEdits at planned
  split at planned
  next => cases planned
  next sized =>
    split at planned
    next => cases planned
    next =>
      split at planned
      next => cases planned
      next scan scanned =>
        split at planned
        next => cases planned
        next done =>
          cases planned
          rw [Bool.or_eq_true, not_or] at sized done
          obtain ⟨answers, whole⟩ := scanItems_scanned .start scanned
          refine ⟨by simpa using sized.2, by simpa using done.2, knownIdentifiers inputItems, scan,
            answers, ?_, ?_, rfl⟩
          · simpa using whole
          · simpa using done.1

/-- A repair is complete, or leaves the request alone. -/
theorem repairLegacyResponsesCallIds_links (request : Json) :
    ((repairLegacyResponsesCallIds request).2 = false →
        (repairLegacyResponsesCallIds request).1 = request) ∧
      ((repairLegacyResponsesCallIds request).2 = true →
        RepairedRequest request (repairLegacyResponsesCallIds request).1) := by
  unfold repairLegacyResponsesCallIds
  cases input : (request.get "input").bind Json.asArray with
  | none => exact ⟨fun _ => rfl, fun changed => absurd changed Bool.false_ne_true⟩
  | some inputItems =>
      dsimp only
      cases planned : plannedEdits inputItems with
      | none => exact ⟨fun _ => rfl, fun changed => absurd changed Bool.false_ne_true⟩
      | some edits =>
          refine ⟨fun same => absurd same Bool.true_eq_false.mp, fun _ => ?_⟩
          obtain ⟨bounded, _, used, scan, answers, scanned, complete, rfl⟩ :=
            plannedEdits_scanned planned
          refine ⟨⟨inputItems, _, _, input, rfl, repairedLinks scanned.planned bounded complete⟩, ?_⟩
          obtain ⟨value, stored, _⟩ := Option.bind_eq_some_iff.mp input
          have again : plannedEdits (applyEdits inputItems scan.edits) = none := by
            cases second : plannedEdits (applyEdits inputItems scan.edits) with
            | none => rfl
            | some more =>
                obtain ⟨_, edited, _, _, _, scannedAgain, _, rfl⟩ := plannedEdits_scanned second
                refine absurd (scanned.settled complete (relinked scanned.planned bounded) ?_
                  scannedAgain) edited
                rw [List.length_map, List.length_map, applyEdits_length]
          unfold repairLegacyResponsesCallIds
          dsimp only
          rw [Json.get_set, if_pos rfl, stored]
          dsimp only [Option.map_some, Option.bind_some, Json.asArray]
          rw [again]

/-- A call with its output twice, and a call that has to be repaired. -/
def repeatedOutput : Json :=
  .object [("input", .array [
    .object [("type", .string "function_call"), ("call_id", .string "a")],
    .object [("type", .string "function_call_output"), ("call_id", .string "a")],
    .object [("type", .string "function_call_output"), ("call_id", .string "a")],
    .object [("type", .string "function_call"), ("id", .string "b")],
    .object [("type", .string "function_call_output")]])]

/-- Both outputs keep the id of the call, which answers it twice. -/
theorem repeatedOutput_shared :
    (repairLegacyResponsesCallIds repeatedOutput).2 = true ∧
      ((repairLegacyResponsesCallIds repeatedOutput).1.get "input").bind (fun input =>
        input.asArray.map fun items => items.map fun item =>
          ((item.get "type").bind Json.asStr, (item.get "call_id").bind Json.asStr)) =
        some [(some "function_call", some "a"), (some "function_call_output", some "a"),
          (some "function_call_output", some "a"), (some "function_call", some "b"),
          (some "function_call_output", some "b")] := by
  decide +kernel

end ZenithRelay.Gateway.Request
