import ZenithRelay.LocalPool.StateDatabase

/-!
# What the saved state reads as

Each part of the state depends on its own entry and items only. A transaction changes
those that it writes, and a reload decodes the items over their lists.
-/

set_option autoImplicit false

namespace ZenithRelay.LocalPool

variable {Details Value : Type}

/-! ### Laws of the codec -/

/-- A value with a text; of the others, such as a number that is none, no text is parsed. -/
def StateCodec.Prints (codec : StateCodec Details) (value : Json) : Prop :=
  ∃ text, codec.print value = some text

/-- JSON is read back from its text, and what is encoded is decoded, gateway settings apart. -/
structure StateCodec.Lawful (codec : StateCodec Details) : Prop where
  printed : ∀ value text, codec.print value = some text → codec.parse text = some value
  parsed : ∀ text value, codec.parse text = some value → codec.Prints value
  array : ∀ items, codec.Prints (.array items) ↔ ∀ item ∈ items, codec.Prints item
  source : ∀ value json, codec.source.encode value = some json →
    codec.source.decode json = some value
  account : ∀ value json, codec.account.encode value = some json →
    codec.account.decode json = some value
  trashed : ∀ value json, codec.trashed.encode value = some json →
    codec.trashed.decode json = some value
  key : ∀ value json, codec.key.encode value = some json → codec.key.decode json = some value
  automations : ∀ value json, codec.automations.encode value = some json →
    codec.automations.decode json = some value
  refreshRevisions : ∀ value json, codec.refreshRevisions.encode value = some json →
    codec.refreshRevisions.decode json = some value
  sourceRevisions : ∀ value json, codec.sourceRevisions.encode value = some json →
    codec.sourceRevisions.decode json = some value

theorem mapM_decode {Item : Type} {encode : Value → Option Item} {decode : Item → Option Value}
    (reads : ∀ value item, encode value = some item → decode item = some value)
    {values : List Value} {items : List Item} (encoded : values.mapM encode = some items) :
    items.mapM decode = some values := by
  induction values generalizing items with
  | nil =>
    obtain rfl : items = [] := by simpa using encoded.symm
    rfl
  | cons value rest ih =>
    simp only [List.mapM_cons, Option.bind_eq_bind, Option.bind_eq_some_iff] at encoded
    obtain ⟨item, first, others, later, same⟩ := encoded
    cases same
    simp [reads value item first, ih later]

/-- Lists of values that are read back are read back. -/
theorem list_decode {encoding : Encoding Value}
    (reads : ∀ value json, encoding.encode value = some json → encoding.decode json = some value)
    (values : List Value) (json : Json) (encoded : encoding.list.encode values = some json) :
    encoding.list.decode json = some values := by
  obtain ⟨items, each, rfl⟩ := Option.map_eq_some_iff.mp encoded
  exact mapM_decode reads each

/-! ### Transactions -/

/-- The text that the entries save under a key. -/
def entryText (entries : List StateEntry) (key : String) : Option String :=
  entries.foldl (fun found entry => if entry.1 = key then some entry.2 else found) none

/-- The text that the items save for a position. -/
def itemText (items : List StateItem) (key : String) (position : Nat) : Option String :=
  items.foldl (fun found item =>
    if item.1 = key ∧ item.2.1 = position then some item.2.2 else found) none

theorem foldl_found {Item : Type} (found : Option String) (step : Option String → Item → Option String)
    (value : Item → Option String)
    (steps : ∀ found item, step found item = (value item).or found) (items : List Item) :
    items.foldl step found = (items.foldl step none).or found := by
  induction items generalizing found with
  | nil => rfl
  | cons item rest ih =>
    rw [List.foldl_cons, List.foldl_cons, ih, ih (step none item), steps, steps]
    cases value item <;> simp

theorem entryText_cons (entry : StateEntry) (entries : List StateEntry) (key : String) :
    entryText (entry :: entries) key =
      (entryText entries key).or (if entry.1 = key then some entry.2 else none) := by
  rw [entryText, List.foldl_cons, foldl_found _ _ fun entry =>
    if entry.1 = key then some entry.2 else none]
  · rfl
  · intro found item
    split <;> rfl

theorem itemText_cons (item : StateItem) (items : List StateItem) (key : String) (position : Nat) :
    itemText (item :: items) key position = (itemText items key position).or
      (if item.1 = key ∧ item.2.1 = position then some item.2.2 else none) := by
  rw [itemText, List.foldl_cons, foldl_found _ _ fun item =>
    if item.1 = key ∧ item.2.1 = position then some item.2.2 else none]
  · rfl
  · intro found item
    split <;> rfl

@[simp] theorem entryText_nil (key : String) : entryText [] key = none := rfl

@[simp] theorem itemText_nil (key : String) (position : Nat) : itemText [] key position = none := rfl

theorem entryText_append (first second : List StateEntry) (key : String) :
    entryText (first ++ second) key = (entryText second key).or (entryText first key) := by
  induction first with
  | nil => simp
  | cons entry rest ih => rw [List.cons_append, entryText_cons, ih, entryText_cons, Option.or_assoc]

theorem itemText_append (first second : List StateItem) (key : String) (position : Nat) :
    itemText (first ++ second) key position =
      (itemText second key position).or (itemText first key position) := by
  induction first with
  | nil => simp
  | cons item rest ih => rw [List.cons_append, itemText_cons, ih, itemText_cons, Option.or_assoc]

namespace StateDatabase

private theorem withEntries_appState (database : StateDatabase) (entries : List StateEntry) (key : String) :
    (database.withEntries entries).appState[key]? =
      (entryText entries key).or database.appState[key]? := by
  induction entries generalizing database with
  | nil => rfl
  | cons entry rest ih =>
    rw [entryText_cons, withEntries, List.foldl_cons, ← withEntries, ih]
    by_cases same : entry.1 = key
    · simp [same]
    · simp [same, Ne.symm same]

theorem withEntries_items (database : StateDatabase) (entries : List StateEntry) (key : String)
    (position : Nat) :
    (database.withEntries entries).items[(key, position)]? =
      if (entryText entries key).isSome then none else database.items[(key, position)]? := by
  induction entries generalizing database with
  | nil => rfl
  | cons entry rest ih =>
    rw [entryText_cons, withEntries, List.foldl_cons, ← withEntries, ih]
    by_cases same : entry.1 = key
    · simp [same]
    · have other : key ≠ entry.1 := Ne.symm same
      have all (row : Option String) : row.filter (fun _ => true) = row := by cases row <;> rfl
      simp [same, other, all]

private theorem withItem_ok {database next : StateDatabase} {item : StateItem}
    (written : database.withItem item = .ok next) :
    next.appState = database.appState ∧
      next.items = database.items.insert (item.1, item.2.1) item.2.2 ∧
      inventoryKey item.1 = true ∧ database.appState.contains item.1 = true := by
  obtain ⟨key, position, json⟩ := item
  simp only [withItem] at written
  split_ifs at written with refused large missing
  cases written
  simp only [Bool.or_eq_true, Bool.not_eq_true', not_or, Bool.not_eq_false] at refused missing
  exact ⟨rfl, rfl, refused.1, missing⟩

theorem withItems_ok {database next : StateDatabase} {items : List StateItem}
    (written : items.foldlM withItem database = .ok next) :
    next.appState = database.appState ∧
      (∀ key position, next.items[(key, position)]? =
        (itemText items key position).or database.items[(key, position)]?) ∧
      ∀ item ∈ items, inventoryKey item.1 = true ∧ database.appState.contains item.1 = true := by
  induction items generalizing database with
  | nil =>
    cases written
    exact ⟨rfl, fun _ _ => rfl, by simp⟩
  | cons item rest ih =>
    rw [List.foldlM_cons] at written
    cases first : database.withItem item with
    | error error =>
      rw [first] at written
      cases written
    | ok middle =>
      rw [first] at written
      obtain ⟨state, rows, inventory, present⟩ := withItem_ok first
      obtain ⟨others, texts, keys⟩ := ih written
      rw [state] at others keys
      refine ⟨others, fun key position => ?_, List.forall_mem_cons.mpr ⟨⟨inventory, present⟩, keys⟩⟩
      rw [texts, itemText_cons, rows, BTreeMap.lookup_insert, Option.or_assoc]
      simp only [Prod.mk.injEq]
      congr 1
      by_cases same : item.1 = key ∧ item.2.1 = position
      · simp [same]
      · have other : ¬(key = item.1 ∧ position = item.2.1) := fun equal =>
          same ⟨equal.1.symm, equal.2.symm⟩
        simp [same, other]

/-- The tables after a transaction, by key and position. -/
theorem replaced_ok {database next : StateDatabase} {entries : List StateEntry}
    {items : List StateItem} (written : database.replaced entries items = .ok next) :
    (∀ key, next.appState[key]? = (entryText entries key).or database.appState[key]?) ∧
    ∀ key position, next.items[(key, position)]? =
      (itemText items key position).or
        (if (entryText entries key).isSome then none else database.items[(key, position)]?) := by
  obtain ⟨state, rows, -⟩ := withItems_ok written
  refine ⟨fun key => ?_, fun key position => ?_⟩
  · rw [state, withEntries_appState]
  · rw [rows, withEntries_items]

end StateDatabase

end ZenithRelay.LocalPool
