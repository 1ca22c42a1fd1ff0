import ZenithRelay.LocalPool.StateDatabaseProperties

/-!
# Reloading what was written

An inventory is saved as a list with newer items over it. Each item belongs to the record
at its position, so that a reload gives the records that are in memory.
-/

set_option autoImplicit false

namespace ZenithRelay.LocalPool

variable {Details Value : Type} {codec : StateCodec Details} {encoding : Encoding Value}

/-! ### What a transaction writes of one part -/

/-- A part of the state is kept, or written as a whole. -/
inductive Written (codec : StateCodec Details) (encoding : Encoding Value) (key : String)
    (entries : List StateEntry) (old new : Value) : Prop where
  | kept : entryText entries key = none → new = old → Written codec encoding key entries old new
  | whole (text : String) : entryText entries key = some text →
      codec.serializeState encoding new = .ok text → Written codec encoding key entries old new

/-- An inventory is kept or written as a whole, or one record is written as an item. -/
inductive WrittenList (codec : StateCodec Details) (encoding : Encoding Value)
    (idOf : Value → String) (key : String) (entries : List StateEntry) (items : List StateItem)
    (old new : List Value) : Prop where
  | list : Written codec encoding.list key entries old new →
      (∀ position, itemText items key position = none) →
      WrittenList codec encoding idOf key entries items old new
  | item (index : Nat) (previous value : Value) (text : String) : entryText entries key = none →
      old[index]? = some previous → idOf previous = idOf value →
      codec.serializeState encoding value = .ok text →
      (∀ position, itemText items key position = if position = index then some text else none) →
      new = old.set index value → WrittenList codec encoding idOf key entries items old new

/-- A list that is saved as a whole has no items of the same transaction. -/
theorem WrittenList.itemless {idOf : Value → String} {key text : String}
    {entries : List StateEntry} {items : List StateItem} {old new : List Value}
    (written : WrittenList codec encoding idOf key entries items old new)
    (present : entryText entries key = some text) (position : Nat) :
    itemText items key position = none := by
  cases written with
  | list _ itemless => exact itemless position
  | item _ _ _ _ absent =>
    rw [present] at absent
    cases absent

/-! ### What the database holds of one part -/

def SavedAs (codec : StateCodec Details) (encoding : Encoding Value) (database : StateDatabase)
    (key : String) (value : Value) : Prop :=
  ∃ text, database.appState[key]? = some text ∧ codec.deserialize encoding text = some value

/-- One position of an inventory: an item over the list is a newer form of the record that
the list has there. -/
inductive RecordReads (codec : StateCodec Details) (encoding : Encoding Value)
    (idOf : Value → String) : Option Json → Option String → Option Value → Prop where
  | beyond : RecordReads codec encoding idOf none none none
  | listed (item : Json) (value : Value) : encoding.decode item = some value →
      RecordReads codec encoding idOf (some item) none (some value)
  | observed (item : Json) (listed value : Value) (text : String) :
      encoding.decode item = some listed → codec.deserialize encoding text = some value →
      idOf listed = idOf value →
      RecordReads codec encoding idOf (some item) (some text) (some value)

structure SavedInventory (codec : StateCodec Details) (encoding : Encoding Value)
    (idOf : Value → String) (database : StateDatabase) (key : String) (base : List Json)
    (values : List Value) : Prop where
  text : ∃ text, database.appState[key]? = some text ∧ codec.parse text = some (.array base)
  records (position : Nat) : RecordReads codec encoding idOf base[position]?
    database.items[(key, position)]? values[position]?

private theorem serializeState_ok {value : Value} {text : String}
    (serialized : codec.serializeState encoding value = .ok text) :
    ∃ json, encoding.encode value = some json ∧ codec.print json = some text := by
  rw [StateCodec.serializeState] at serialized
  split at serialized
  next found printed =>
    cases serialized
    exact Option.bind_eq_some_iff.mp printed
  next => cases serialized

theorem parse_serialized (lawful : codec.Lawful) {value : Value} {text : String}
    (serialized : codec.serializeState encoding value = .ok text) :
    ∃ json, encoding.encode value = some json ∧ codec.parse text = some json := by
  obtain ⟨json, encoded, printed⟩ := serializeState_ok serialized
  exact ⟨json, encoded, lawful.printed json text printed⟩

variable {database next : StateDatabase} {key : String} {entries : List StateEntry}
  {items : List StateItem}

/-- A part that is written as a whole. -/
theorem SavedAs.of_whole (lawful : codec.Lawful)
    (written : database.replaced entries items = .ok next) {value : Value} {text : String}
    (reads : ∀ json, encoding.encode value = some json → encoding.decode json = some value)
    (present : entryText entries key = some text)
    (serialized : codec.serializeState encoding value = .ok text) :
    SavedAs codec encoding next key value := by
  obtain ⟨json, encoded, parsed⟩ := parse_serialized lawful serialized
  refine ⟨text, by rw [(StateDatabase.replaced_ok written).1 key, present]; rfl, ?_⟩
  rw [StateCodec.deserialize, parsed, Option.bind_some, reads json encoded]

theorem SavedAs.step (lawful : codec.Lawful)
    (written : database.replaced entries items = .ok next) {old new : Value}
    (reads : ∀ json, encoding.encode new = some json → encoding.decode json = some new)
    (saved : SavedAs codec encoding database key old)
    (change : Written codec encoding key entries old new) :
    SavedAs codec encoding next key new := by
  have state := (StateDatabase.replaced_ok written).1 key
  cases change with
  | kept absent same =>
    obtain ⟨text, held, read⟩ := saved
    exact ⟨text, by rw [state, absent, held]; rfl, same ▸ read⟩
  | whole text present serialized => exact .of_whole lawful written reads present serialized

variable {idOf : Value → String}

private theorem mapM_getElem? {Item Result : Type} {step : Item → Option Result} {list : List Item}
    {results : List Result} (each : list.mapM step = some results) (position : Nat) :
    list[position]?.bind step = results[position]? ∧
      (list[position]? = none ↔ results[position]? = none) := by
  induction list generalizing results position with
  | nil =>
    obtain rfl : results = [] := by simpa using each.symm
    simp
  | cons item rest ih =>
    simp only [List.mapM_cons, Option.bind_eq_bind, Option.bind_eq_some_iff] at each
    obtain ⟨result, first, others, later, same⟩ := each
    cases same
    cases position with
    | zero => simp [first]
    | succ position => simpa using ih later position

/-- A list that is written as a whole has no items yet. -/
theorem SavedInventory.of_whole (lawful : codec.Lawful)
    (written : database.replaced entries items = .ok next) {new : List Value} {text : String}
    (reads : ∀ value json, encoding.encode value = some json → encoding.decode json = some value)
    (present : entryText entries key = some text)
    (serialized : codec.serializeState encoding.list new = .ok text)
    (itemless : ∀ position, itemText items key position = none) :
    ∃ base, SavedInventory codec encoding idOf next key base new := by
  obtain ⟨state, rows⟩ := StateDatabase.replaced_ok written
  obtain ⟨json, encoded, parsed⟩ := parse_serialized lawful serialized
  obtain ⟨base, each, rfl⟩ := Option.map_eq_some_iff.mp encoded
  have decoded := mapM_decode reads each
  refine ⟨base, ⟨text, by rw [state, present]; rfl, parsed⟩, fun position => ?_⟩
  have itemAbsent : next.items[(key, position)]? = none := by
    rw [rows, itemless, present]
    rfl
  obtain ⟨value, absent⟩ := mapM_getElem? decoded position
  rw [itemAbsent]
  cases item : base[position]? with
  | none =>
    rw [absent.mp item]
    exact .beyond
  | some item_ =>
    rw [item, Option.bind_some] at value
    cases found : new[position]? with
    | none =>
      rw [absent.mpr found] at item
      cases item
    | some record => exact .listed item_ record (value.trans found)

/-- The record that an item replaces has the id of the item. -/
theorem RecordReads.replaced {item : Option Json} {text : Option String} {previous value : Value}
    {json : String} (reads : RecordReads codec encoding idOf item text (some previous))
    (same : idOf previous = idOf value)
    (read : codec.deserialize encoding json = some value) :
    RecordReads codec encoding idOf item (some json) (some value) := by
  cases reads with
  | listed item _ decoded => exact .observed item previous value json decoded read same
  | observed item listed _ _ decoded _ id =>
    exact .observed item listed value json decoded read (id.trans same)

theorem SavedInventory.step (lawful : codec.Lawful)
    (written : database.replaced entries items = .ok next) {old new : List Value}
    (reads : ∀ value json, encoding.encode value = some json → encoding.decode json = some value)
    (saved : ∃ base, SavedInventory codec encoding idOf database key base old)
    (change : WrittenList codec encoding idOf key entries items old new) :
    ∃ base, SavedInventory codec encoding idOf next key base new := by
  obtain ⟨state, rows⟩ := StateDatabase.replaced_ok written
  obtain ⟨base, ⟨text, held, parsed⟩, records⟩ := saved
  cases change with
  | list change itemless =>
    cases change with
    | kept absent same =>
      refine ⟨base, ⟨text, by rw [state, absent, held]; rfl, parsed⟩, fun position => ?_⟩
      have row : next.items[(key, position)]? = database.items[(key, position)]? := by
        rw [rows, itemless, absent]
        rfl
      rw [row, same]
      exact records position
    | whole text present serialized =>
      exact SavedInventory.of_whole lawful written reads present serialized itemless
  | item index previous value json absent found id serialized item same =>
    refine ⟨base, ⟨text, by rw [state, absent, held]; rfl, parsed⟩, fun position => ?_⟩
    obtain ⟨encoded, encodes, parses⟩ := parse_serialized lawful serialized
    have read : codec.deserialize encoding json = some value := by
      rw [StateCodec.deserialize, parses, Option.bind_some, reads value encoded encodes]
    have before := records position
    have row : next.items[(key, position)]? =
        if position = index then some json else database.items[(key, position)]? := by
      rw [rows, item, absent]
      split <;> rfl
    by_cases here : position = index
    · subst here
      have within : position < old.length := (List.getElem?_eq_some_iff.mp found).1
      rw [found] at before
      rw [row, if_pos rfl, same, List.getElem?_set_self within]
      exact before.replaced id read
    · rw [row, if_neg here, same, List.getElem?_set_ne (Ne.symm here)]
      exact before

/-! ### Reading the items over the lists -/

/-- The list of an inventory in the entries. -/
def Listed (codec : StateCodec Details) (entries : BTreeMap String String) (key : String)
    (base : List Json) : Prop :=
  ∃ text, entries[key]? = some text ∧ codec.parse text = some (.array base)

/-- The list with the rows of its key. -/
def overlaid (codec : StateCodec Details) (key : String) (list : List Json)
    (rows : List ((String × Nat) × String)) : List Json :=
  rows.foldl (fun list row =>
    if row.1.1 = key then list.set row.1.2 ((codec.parse row.2).getD .null) else list) list

theorem overlaid_cons (key : String) (list : List Json) (row : (String × Nat) × String)
    (rows : List ((String × Nat) × String)) :
    overlaid codec key list (row :: rows) = overlaid codec key
      (if row.1.1 = key then list.set row.1.2 ((codec.parse row.2).getD .null) else list) rows := rfl

theorem overlaid_absent {key : String} {position : Nat} {rows : List ((String × Nat) × String)}
    (list : List Json) (absent : (key, position) ∉ rows.map Prod.fst) :
    (overlaid codec key list rows)[position]? = list[position]? := by
  induction rows generalizing list with
  | nil => rfl
  | cons row rest ih =>
    obtain ⟨other, later⟩ := not_or.mp (List.mem_cons.not.mp absent)
    rw [overlaid_cons, ih _ later]
    by_cases own : row.1.1 = key
    · have different : row.1.2 ≠ position := fun same => other (Prod.ext own same).symm
      rw [if_pos own, List.getElem?_set_ne different]
    · rw [if_neg own]

theorem overlaid_other {key : String} {rows : List ((String × Nat) × String)} (list : List Json)
    (other : ∀ row ∈ rows, row.1.1 ≠ key) : overlaid codec key list rows = list := by
  induction rows generalizing list with
  | nil => rfl
  | cons row rest ih =>
    obtain ⟨different, later⟩ := List.forall_mem_cons.mp other
    rw [overlaid_cons, if_neg different]
    exact ih list later

private theorem overlaid_present {key : String} {position : Nat} {text : String}
    {rows : List ((String × Nat) × String)} (distinct : (rows.map Prod.fst).Nodup)
    (list : List Json) (within : position < list.length)
    (member : ((key, position), text) ∈ rows) :
    (overlaid codec key list rows)[position]? = some ((codec.parse text).getD .null) := by
  induction rows generalizing list with
  | nil => cases member
  | cons row rest ih =>
    obtain ⟨fresh, others⟩ := List.nodup_cons.mp distinct
    rw [overlaid_cons]
    rcases List.mem_cons.mp member with rfl | later
    · rw [overlaid_absent _ fresh, if_pos rfl, List.getElem?_set_self within]
    · refine ih others _ ?_ later
      split
      next => rwa [List.length_set]
      next => exact within

/-- The rows of the items fit the lists. -/
def RowFits (codec : StateCodec Details) (entries : BTreeMap String String)
    (row : (String × Nat) × String) : Prop :=
  ∃ base item, Listed codec entries row.1.1 base ∧ row.1.2 < base.length ∧
    codec.parse row.2 = some item

theorem Listed.unique {entries : BTreeMap String String} {left right : List Json}
    (first : Listed codec entries key left) (second : Listed codec entries key right) :
    left = right := by
  obtain ⟨text, held, parsed⟩ := first
  obtain ⟨other, sameText, sameParsed⟩ := second
  rw [held] at sameText
  cases sameText
  rw [parsed] at sameParsed
  cases sameParsed
  rfl

private theorem updatedItems_ok {base : List Json} {text : String}
    (parsed : codec.parse text = some (.array base)) (updated : Option (List Json)) :
    StateDatabase.updatedItems codec text updated = .ok (updated.getD base) := by
  cases updated with
  | none => simp [StateDatabase.updatedItems, parsed]
  | some items => rfl

private theorem overlayRow_ok {entries : BTreeMap String String} (updated : BTreeMap String (List Json))
    {row : (String × Nat) × String} {base : List Json} {item : Json}
    (listed : Listed codec entries row.1.1 base)
    (within : row.1.2 < (updated[row.1.1]?.getD base).length)
    (parsed : codec.parse row.2 = some item) :
    StateDatabase.overlayRow codec entries updated row =
      .ok (updated.insert row.1.1 ((updated[row.1.1]?.getD base).set row.1.2 item)) := by
  obtain ⟨⟨key, position⟩, json⟩ := row
  obtain ⟨text, held, array⟩ := listed
  simp only at held array within parsed
  simp only [StateDatabase.overlayRow, held, updatedItems_ok array, bind, Except.bind, within,
    if_true, parsed]

/-- The lists changed so far can be printed. -/
def AllPrint (codec : StateCodec Details) (updated : BTreeMap String (List Json)) : Prop :=
  ∀ (key : String) (list : List Json), updated[key]? = some list →
    ∀ item ∈ list, codec.Prints item

private theorem AllPrint.insert_set {updated : BTreeMap String (List Json)}
    (all : AllPrint codec updated) (key : String) {list : List Json}
    (prints : ∀ item ∈ list, codec.Prints item) (position : Nat) {item : Json}
    (printed : codec.Prints item) :
    AllPrint codec (updated.insert key (list.set position item)) := by
  intro other items found
  rw [BTreeMap.lookup_insert] at found
  by_cases same : other = key
  · rw [if_pos same] at found
    cases found
    intro member inside
    rcases List.mem_or_eq_of_mem_set inside with earlier | rfl
    · exact prints member earlier
    · exact printed
  · rw [if_neg same] at found
    exact all other items found

/-- The loop over fitting rows puts each over the list of its key. -/
private theorem overlayRows_ok (lawful : codec.Lawful) {entries : BTreeMap String String}
    (rows : List ((String × Nat) × String)) (updated : BTreeMap String (List Json))
    (fits : ∀ row ∈ rows, RowFits codec entries row)
    (lengths : ∀ key base list, Listed codec entries key base → updated[key]? = some list →
      list.length = base.length)
    (prints : AllPrint codec updated) :
    ∃ final, rows.foldlM (StateDatabase.overlayRow codec entries) updated = .ok final ∧
      (∀ key, (∀ row ∈ rows, row.1.1 ≠ key) → final[key]? = updated[key]?) ∧
      (∀ key base, Listed codec entries key base → (∃ row ∈ rows, row.1.1 = key) →
        final[key]? = some (overlaid codec key (updated[key]?.getD base) rows)) ∧
      AllPrint codec final := by
  induction rows generalizing updated with
  | nil =>
    refine ⟨updated, rfl, fun _ _ => rfl, fun _ _ _ present => ?_, prints⟩
    obtain ⟨_, member, _⟩ := present
    cases member
  | cons row rest ih =>
    obtain ⟨fit, others⟩ := List.forall_mem_cons.mp fits
    obtain ⟨base, item, listed, within, parsed⟩ := fit
    have size : (updated[row.1.1]?.getD base).length = base.length := by
      cases found : updated[row.1.1]? with
      | none => rfl
      | some list => exact lengths _ base list listed found
    have first := overlayRow_ok updated listed (size ▸ within) parsed
    have printable : ∀ item ∈ updated[row.1.1]?.getD base, codec.Prints item := by
      cases found : updated[row.1.1]? with
      | none =>
        obtain ⟨text, _, array⟩ := listed
        exact (lawful.array base).mp (lawful.parsed text _ array)
      | some list => exact prints _ list found
    obtain ⟨final, ran, untouched, touched, final_prints⟩ := ih
      (updated.insert row.1.1 ((updated[row.1.1]?.getD base).set row.1.2 item)) others
      (fun key other list listedOther found => by
        rw [BTreeMap.lookup_insert] at found
        by_cases same : key = row.1.1
        · rw [if_pos same] at found
          cases found
          subst same
          rw [List.length_set, size, listed.unique listedOther]
        · rw [if_neg same] at found
          exact lengths key other list listedOther found)
      (prints.insert_set _ printable _ (lawful.parsed _ _ parsed))
    refine ⟨final, by rw [List.foldlM_cons, first]; exact ran, fun key absent => ?_,
      fun key list listedKey present => ?_, final_prints⟩
    · obtain ⟨own, later⟩ := List.forall_mem_cons.mp absent
      rw [untouched key later, BTreeMap.lookup_insert, if_neg (Ne.symm own)]
    · rw [overlaid_cons]
      by_cases own : row.1.1 = key
      · subst own
        obtain rfl := listed.unique listedKey
        have value : (codec.parse row.2).getD .null = item := by rw [parsed]; rfl
        rw [if_pos rfl, value]
        by_cases later : ∃ other ∈ rest, other.1.1 = row.1.1
        · rw [touched _ base listed later, BTreeMap.lookup_insert, if_pos rfl, Option.getD_some]
        · have none (other) (member : other ∈ rest) : other.1.1 ≠ row.1.1 := fun same =>
            later ⟨other, member, same⟩
          rw [untouched _ none, BTreeMap.lookup_insert, if_pos rfl]
          rw [overlaid_other _ none]
      · have later : ∃ other ∈ rest, other.1.1 = key := by
          obtain ⟨other, member, same⟩ := present
          rcases List.mem_cons.mp member with rfl | member
          · exact absurd same own
          · exact ⟨other, member, same⟩
        rw [touched key list listedKey later, BTreeMap.lookup_insert, if_neg (Ne.symm own),
          if_neg own]

private theorem writeBack_ok (lawful : codec.Lawful) (changed : List (String × List Json))
    (distinct : (changed.map Prod.fst).Nodup)
    (prints : ∀ key list, (key, list) ∈ changed → codec.Prints (.array list))
    (entries : BTreeMap String String) :
    ∃ final, changed.foldlM (StateDatabase.writeBack codec) entries = .ok final ∧
      (∀ key, key ∉ changed.map Prod.fst → final[key]? = entries[key]?) ∧
      ∀ key list, (key, list) ∈ changed → Listed codec final key list := by
  induction changed generalizing entries with
  | nil =>
    refine ⟨entries, rfl, fun _ _ => rfl, fun _ _ member => ?_⟩
    cases member
  | cons first rest ih =>
    obtain ⟨fresh, others⟩ := List.nodup_cons.mp distinct
    obtain ⟨text, printed⟩ := prints first.1 first.2 List.mem_cons_self
    have parsed := lawful.printed _ text printed
    obtain ⟨final, ran, untouched, written⟩ := ih others
      (fun key list member => prints key list (List.mem_cons_of_mem _ member))
      (entries.insert first.1 text)
    refine ⟨final, ?_, fun key absent => ?_, fun key list member => ?_⟩
    · rw [List.foldlM_cons, StateDatabase.writeBack, printed]
      exact ran
    · obtain ⟨own, later⟩ := not_or.mp (List.mem_cons.not.mp absent)
      rw [untouched key later, BTreeMap.lookup_insert, if_neg own]
    · rcases List.mem_cons.mp member with rfl | later
      · exact ⟨text, by rw [untouched key fresh, BTreeMap.lookup_insert, if_pos rfl], parsed⟩
      · exact written key list later

/-- A reload with fitting rows puts them over their lists and leaves the other texts. -/
theorem stateJsonEntries_ok (lawful : codec.Lawful)
    (inventory : ∃ key text, inventoryKey key = true ∧ database.appState[key]? = some text)
    (fits : ∀ row ∈ database.items.toList, RowFits codec database.appState row) :
    ∃ final, database.stateJsonEntries codec = .ok final ∧
      (∀ key : String, (∀ position : Nat, database.items[(key, position)]? = none) →
        final[key]? = database.appState[key]?) ∧
      ∀ key base, Listed codec database.appState key base →
        Listed codec final key (overlaid codec key base database.items.toList) := by
  obtain ⟨updated, ran, untouched, touched, prints⟩ := overlayRows_ok lawful database.items.toList ∅
    fits (fun _ _ _ _ found => by simp at found) (fun _ _ found => by simp at found)
  obtain ⟨final, wrote, kept, changed⟩ :=
    writeBack_ok lawful updated.toList (BTreeMap.keys_nodup updated)
      (fun key list member => (lawful.array list).mpr
        (prints key list (BTreeMap.mem_toList_iff.mp member))) database.appState
  have some_ : database.appState.keys.any inventoryKey = true := by
    obtain ⟨key, text, isInventory, held⟩ := inventory
    refine List.any_eq_true.mpr ⟨key, ?_, isInventory⟩
    rw [Std.ExtTreeMap.mem_keys, Std.ExtTreeMap.mem_iff_isSome_getElem?, held]
    rfl
  have same (key : String) (rowless : ∀ row ∈ database.items.toList, row.1.1 ≠ key) :
      final[key]? = database.appState[key]? := by
    refine kept key fun member => ?_
    obtain ⟨⟨_, list⟩, entry, rfl⟩ := List.mem_map.mp member
    have found := BTreeMap.mem_toList_iff.mp entry
    rw [untouched _ rowless] at found
    simp at found
  refine ⟨final, ?_, fun key rowless => same key fun row member own => ?_, fun key base listed => ?_⟩
  · rw [StateDatabase.stateJsonEntries, StateDatabase.overlay, some_]
    simp only [Bool.not_true, Bool.false_eq_true, if_false, ran, bind, Except.bind]
    exact wrote
  · obtain ⟨⟨_, position⟩, json⟩ := row
    have found := BTreeMap.mem_toList_iff.mp member
    simp only at own
    rw [own, rowless position] at found
    cases found
  · by_cases present : ∃ row ∈ database.items.toList, row.1.1 = key
    · have found := touched key base listed present
      rw [Std.ExtTreeMap.getElem?_empty, Option.getD_none] at found
      exact changed key _ (BTreeMap.mem_toList_iff.mpr found)
    · have rowless (row) (member : row ∈ database.items.toList) : row.1.1 ≠ key := fun own =>
        present ⟨row, member, own⟩
      rw [overlaid_other base rowless]
      obtain ⟨text, held, parsed⟩ := listed
      exact ⟨text, by rw [same key rowless, held], parsed⟩

private theorem mapM_of_getElem? {Item Result : Type} {step : Item → Option Result} {list : List Item}
    {results : List Result}
    (each : ∀ position : Nat, list[position]?.bind step = results[position]? ∧
      (list[position]? = none ↔ results[position]? = none)) :
    list.mapM step = some results := by
  induction list generalizing results with
  | nil =>
    have first := (each 0).2.mp rfl
    obtain rfl : results = [] := by simpa using first
    rfl
  | cons item rest ih =>
    cases results with
    | nil =>
      have first := (each 0).2.mpr rfl
      cases first
    | cons result others =>
      have later : rest.mapM step = some others := ih fun position => each (position + 1)
      have first : step item = some result := (each 0).1
      simp [first, later]

/-- The list with its items is what is in memory. -/
theorem SavedInventory.decodes {base : List Json} {values : List Value}
    (saved : SavedInventory codec encoding idOf database key base values) :
    (overlaid codec key base database.items.toList).mapM encoding.decode = some values := by
  refine mapM_of_getElem? fun position => ?_
  have reads := saved.records position
  have distinct := BTreeMap.keys_nodup database.items
  have absent (rowless : database.items[(key, position)]? = none) :
      (overlaid codec key base database.items.toList)[position]? = base[position]? := by
    refine overlaid_absent base fun member => ?_
    obtain ⟨⟨_, text⟩, row, rfl⟩ := List.mem_map.mp member
    have found := BTreeMap.mem_toList_iff.mp row
    rw [rowless] at found
    cases found
  generalize listed : base[position]? = item at reads absent
  generalize row : database.items[(key, position)]? = text at reads absent
  generalize values[position]? = value at reads ⊢
  cases reads with
  | beyond =>
    rw [absent rfl]
    exact ⟨rfl, by simp⟩
  | listed item value decoded =>
    rw [absent rfl]
    exact ⟨decoded, by simp⟩
  | observed item old value text _ read _ =>
    have within : position < base.length := (List.getElem?_eq_some_iff.mp listed).1
    obtain ⟨newer, parsed, decoded⟩ := Option.bind_eq_some_iff.mp read
    rw [overlaid_present distinct base within (BTreeMap.mem_toList_iff.mpr row), parsed]
    exact ⟨decoded, by simp⟩

/-- Every item of a saved inventory fits its list. -/
theorem SavedInventory.fits {base : List Json} {values : List Value}
    (saved : SavedInventory codec encoding idOf database key base values) {position : Nat}
    {text : String} (row : database.items[(key, position)]? = some text) :
    RowFits codec database.appState ((key, position), text) := by
  have reads := saved.records position
  rw [row] at reads
  generalize listed : base[position]? = item at reads
  generalize values[position]? = value at reads
  cases reads with
  | observed item old value _ _ read _ =>
    obtain ⟨newer, parsed, -⟩ := Option.bind_eq_some_iff.mp read
    exact ⟨base, newer, saved.text, (List.getElem?_eq_some_iff.mp listed).1, parsed⟩

theorem replaced_inventoryKeys (written : database.replaced entries items = .ok next)
    (inventory : ∀ key (position : Nat) (text : String),
      database.items[(key, position)]? = some text → inventoryKey key = true)
    (key : String) (position : Nat) (text : String)
    (found : next.items[(key, position)]? = some text) : inventoryKey key = true := by
  obtain ⟨-, rows, keys⟩ := StateDatabase.withItems_ok written
  rw [rows] at found
  cases item : itemText items key position with
  | none =>
    rw [item, StateDatabase.withEntries_items] at found
    split at found
    next => cases found
    next => exact inventory key position text found
  | some other =>
    have member : ∃ row ∈ items, row.1 = key := by
      clear written keys rows found inventory
      induction items with
      | nil => cases item
      | cons row rest ih =>
        rw [itemText_cons] at item
        cases later : itemText rest key position with
        | some value =>
          rw [later, Option.some_or] at item
          obtain ⟨row, member, same⟩ := ih (later.trans item)
          exact ⟨row, List.mem_cons_of_mem _ member, same⟩
        | none =>
          rw [later, Option.none_or] at item
          have own := (Option.ite_none_right_eq_some.mp item).1
          exact ⟨row, List.mem_cons_self, own.1⟩
    obtain ⟨row, member, rfl⟩ := member
    exact (keys row member).1

end ZenithRelay.LocalPool
