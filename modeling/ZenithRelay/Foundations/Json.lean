import ZenithRelay.Foundations.Integers

/-!
# JSON values

`serde_json::Value` with arbitrary precision and preserved key order: a number is
its text, and an object its fields in order, each key once.
-/

set_option autoImplicit false

namespace ZenithRelay

inductive Json where
  | null
  | bool (value : Bool)
  | number (text : String)
  | string (text : String)
  | array (items : List Json)
  | object (fields : List (String × Json))
  deriving Inhabited

namespace Json

/-- `Value::get` with a key. -/
def get (value : Json) (key : String) : Option Json :=
  match value with
  | .object fields => (fields.find? (·.1 == key)).map (·.2)
  | _ => none

/-- `Value::pointer` with two keys that are no array indices. -/
def pointer (value : Json) (first second : String) : Option Json :=
  (value.get first).bind (·.get second)

def isObject : Json → Bool
  | .object _ => true
  | _ => false

def isArray : Json → Bool
  | .array _ => true
  | _ => false

def isNull : Json → Bool
  | .null => true
  | _ => false

def asStr : Json → Option String
  | .string text => some text
  | _ => none

def asArray : Json → Option (List Json)
  | .array items => some items
  | _ => none

/-- `str::parse::<u64>` of a JSON number's text. -/
def parseU64 (text : String) : Option Nat :=
  if text.toList ≠ [] ∧ text.toList.all Char.isDigit then
    (some (Nat.ofDigitChars 10 text.toList 0)).filter (· ≤ u64Max)
  else none

def asU64 : Json → Option Nat
  | .number text => parseU64 text
  | _ => none

/-! ### Objects -/

def field (fields : List (String × Json)) (key : String) : Option Json :=
  (fields.find? (·.1 == key)).map (·.2)

def asObject : Json → Option (List (String × Json))
  | .object fields => some fields
  | _ => none

/-- `Map::insert`: a new key goes to the end. -/
def insert (fields : List (String × Json)) (key : String) (value : Json) :
    List (String × Json) :=
  if fields.any (·.1 == key) then
    fields.map fun entry => if entry.1 == key then (key, value) else entry
  else fields ++ [(key, value)]

/-- `Map::remove`: the last field takes the place of the removed one. -/
def remove : List (String × Json) → String → List (String × Json)
  | [], _ => []
  | entry :: rest, key =>
    if entry.1 == key then
      match rest.getLast? with
      | none => []
      | some last => last :: rest.dropLast
    else entry :: remove rest key

theorem field_cons (entry : String × Json) (fields : List (String × Json)) (key : String) :
    field (entry :: fields) key = if entry.1 = key then some entry.2 else field fields key := by
  unfold field
  by_cases own : entry.1 = key
  · simp [own]
  · have skipped : (entry.1 == key) = false := beq_eq_false_iff_ne.mpr own
    simp [own, skipped]

private theorem field_append (first second : List (String × Json)) (key : String) :
    field (first ++ second) key = (field first key).or (field second key) := by
  induction first with
  | nil => simp [field]
  | cons entry first ih =>
      rw [List.cons_append, field_cons, field_cons, ih]
      split <;> rfl

/-- A key that no field has. -/
theorem field_eq_none {fields : List (String × Json)} {key : String} :
    field fields key = none ↔ key ∉ fields.map Prod.fst := by
  induction fields with
  | nil => simp [field]
  | cons entry fields ih =>
      rw [field_cons, List.map_cons, List.mem_cons]
      by_cases own : entry.1 = key
      · simp [own]
      · simp [own, Ne.symm own, ih]

@[simp] theorem field_insert (fields : List (String × Json)) (key other : String) (value : Json) :
    field (insert fields key value) other =
      if other = key then some value else field fields other := by
  have replaced : ∀ fields : List (String × Json),
      field (fields.map fun entry => if entry.1 == key then (key, value) else entry) other =
        if other = key then (field fields key).map fun _ => value else field fields other := by
    intro fields
    induction fields with
    | nil => simp [field]
    | cons entry fields ih =>
        rw [List.map_cons, field_cons, field_cons, field_cons, ih]
        by_cases own : entry.1 = key
        · by_cases same : other = key
          · simp [own, same]
          · simp [own, same, Ne.symm same]
        · by_cases same : other = key
          · subst same
            simp [own]
          · simp [own, same]
  unfold insert
  split
  next present =>
    rw [replaced]
    split
    next same =>
      obtain ⟨entry, member, own⟩ := List.any_eq_true.mp present
      cases found : field fields key with
      | some _ => rfl
      | none =>
          exact absurd (List.mem_map_of_mem member) (beq_iff_eq.mp own ▸ field_eq_none.mp found)
    next => rfl
  next absent =>
    rw [field_append, field_cons]
    by_cases same : other = key
    · subst same
      have missing : field fields other = none := by
        refine field_eq_none.mpr fun member => absent ?_
        obtain ⟨entry, member, own⟩ := List.mem_map.mp member
        exact List.any_eq_true.mpr ⟨entry, member, beq_iff_eq.mpr own⟩
      simp [missing]
    · simp [same, Ne.symm same, field]

/-- An insertion leaves each key there once. -/
theorem insert_distinct {fields : List (String × Json)} (distinct : (fields.map Prod.fst).Nodup)
    (key : String) (value : Json) : ((insert fields key value).map Prod.fst).Nodup := by
  unfold insert
  split
  · have same : (fields.map fun entry => if entry.1 == key then (key, value) else entry).map
        Prod.fst = fields.map Prod.fst := by
      rw [List.map_map]
      refine List.map_congr_left fun entry _ => ?_
      by_cases own : entry.1 = key
      · simp [own]
      · simp [own]
    rw [same]
    exact distinct
  next absent =>
    rw [List.map_append, List.map_singleton]
    refine List.nodup_append.mpr ⟨distinct, by simp, ?_⟩
    rintro other member _ single rfl
    obtain rfl := List.mem_singleton.mp single
    obtain ⟨entry, isEntry, own⟩ := List.mem_map.mp member
    exact absent (List.any_eq_true.mpr ⟨entry, isEntry, beq_iff_eq.mpr own⟩)

/-- What is left is there once, whatever the order. -/
theorem remove_perm (fields : List (String × Json)) (key : String) :
    (remove fields key).Perm (fields.eraseP (·.1 == key)) := by
  induction fields with
  | nil => exact .nil
  | cons entry rest ih =>
      unfold remove
      by_cases own : entry.1 == key
      · rw [if_pos own, List.eraseP_cons, own, cond_true]
        cases last : rest.getLast? with
        | none => rw [List.getLast?_eq_none_iff.mp last]
        | some item =>
            obtain ⟨nonempty, isLast⟩ := List.getLast?_eq_some_iff.mp last
            subst isLast
            rw [List.dropLast_concat]
            exact List.perm_append_singleton item nonempty |>.symm
      · rw [if_neg own, List.eraseP_cons, Bool.eq_false_iff.mpr own, cond_false]
        exact ih.cons entry

private theorem field_perm {first second : List (String × Json)} (perm : first.Perm second)
    (distinct : (second.map Prod.fst).Nodup) (key : String) :
    field first key = field second key := by
  induction perm with
  | nil => rfl
  | cons entry _ ih =>
      rw [field_cons, field_cons, ih (List.nodup_cons.mp distinct).2]
  | swap first second rest =>
      obtain ⟨apart, _⟩ := List.nodup_cons.mp distinct
      have differ : first.1 ≠ second.1 := fun same => apart (same ▸ List.mem_cons_self)
      rw [field_cons, field_cons, field_cons, field_cons]
      by_cases own : first.1 = key
      · have other : second.1 ≠ key := fun same => differ (own.trans same.symm)
        simp [own, other]
      · simp [own]
  | trans _ second ihFirst ihSecond =>
      exact (ihFirst ((second.map Prod.fst).nodup_iff.mpr distinct)).trans (ihSecond distinct)

theorem field_remove {fields : List (String × Json)} (distinct : (fields.map Prod.fst).Nodup)
    (key other : String) :
    field (remove fields key) other = if other = key then none else field fields other := by
  have erased : (fields.eraseP (·.1 == key)).Sublist fields := List.eraseP_sublist
  rw [field_perm (remove_perm fields key) (distinct.sublist (erased.map Prod.fst))]
  clear erased
  induction fields with
  | nil => simp [field]
  | cons entry fields ih =>
      obtain ⟨apart, distinct⟩ := List.nodup_cons.mp distinct
      by_cases own : entry.1 = key
      · subst own
        rw [List.eraseP_cons, beq_self_eq_true, cond_true, field_cons]
        by_cases same : other = entry.1
        · rw [if_pos same, same]
          exact field_eq_none.mpr apart
        · rw [if_neg same, if_neg (Ne.symm same)]
      · have skipped : (entry.1 == key) = false := beq_eq_false_iff_ne.mpr own
        rw [List.eraseP_cons, skipped, cond_false, field_cons, field_cons, ih distinct]
        by_cases found : entry.1 = other
        · have differ : other ≠ key := fun same => own (found.trans same)
          rw [if_pos found, if_pos found, if_neg differ]
        · rw [if_neg found, if_neg found]

/-! ### Equality -/

mutual

/-- Equality of values; objects are equal as maps. -/
def equal : Json → Json → Bool
  | .null, .null => true
  | .bool left, .bool right => left == right
  | .number left, .number right => left == right
  | .string left, .string right => left == right
  | .array left, .array right => equalItems left right
  | .object left, .object right => left.length == right.length && equalFields left right
  | _, _ => false

def equalItems : List Json → List Json → Bool
  | [], [] => true
  | left :: lefts, right :: rights => equal left right && equalItems lefts rights
  | _, _ => false

def equalFields : List (String × Json) → List (String × Json) → Bool
  | [], _ => true
  | left :: lefts, fields => equalField left fields && equalFields lefts fields

def equalField : String × Json → List (String × Json) → Bool
  | (key, value), fields => fields.any fun field => field.1 == key && equal value field.2

end
mutual

theorem equal_refl : ∀ value : Json, equal value value = true
  | .null => by rw [equal]
  | .bool value => by simp [equal]
  | .number text => by simp [equal]
  | .string text => by simp [equal]
  | .array items => by rw [equal]; exact equalItems_refl items
  | .object fields => by
      rw [equal, beq_self_eq_true, Bool.true_and]
      exact equalFields_refl fields fields fun _ member => member

theorem equalItems_refl : ∀ items : List Json, equalItems items items = true
  | [] => by rw [equalItems]
  | item :: items => by rw [equalItems, equal_refl item, equalItems_refl items, Bool.and_self]

theorem equalFields_refl : ∀ fields all : List (String × Json), (∀ field ∈ fields, field ∈ all) →
    equalFields fields all = true
  | [], _, _ => by rw [equalFields]
  | field :: fields, all, within => by
      rw [equalFields, equalField_refl field all (within field List.mem_cons_self),
        equalFields_refl fields all fun other member => within other (List.mem_cons_of_mem _ member),
        Bool.and_self]

private theorem equalField_refl : ∀ (field : String × Json) (fields : List (String × Json)), field ∈ fields →
    equalField field fields = true
  | (key, value), fields, member => by
      rw [equalField]
      exact List.any_eq_true.mpr ⟨(key, value), member, by simp [equal_refl value]⟩

end

end Json

end ZenithRelay
