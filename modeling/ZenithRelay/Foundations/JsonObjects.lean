import ZenithRelay.Foundations.Json

/-!
# Changes of JSON objects in place

What `get_mut` and `shift_remove` do to an object: every other field stays, in its place.
-/

set_option autoImplicit false

namespace ZenithRelay.Json

/-- The fields after `get_mut` of a key, if it is there. -/
def modifyField (fields : List (String × Json)) (key : String) (change : Json → Json) :
    List (String × Json) :=
  match fields with
  | [] => []
  | entry :: rest =>
    if entry.1 = key then (key, change entry.2) :: rest else entry :: modifyField rest key change

/-- `value[key] = replacement` where the key is there. -/
def set (value : Json) (key : String) (replacement : Json) : Json :=
  match value with
  | .object fields => .object (modifyField fields key fun _ => replacement)
  | _ => value

private theorem field_modifyField (fields : List (String × Json)) (key other : String)
    (change : Json → Json) :
    field (modifyField fields key change) other =
      if other = key then (field fields key).map change else field fields other := by
  induction fields with
  | nil => simp [modifyField, field]
  | cons entry fields ih =>
      unfold modifyField
      by_cases own : entry.1 = key
      · rw [if_pos own, field_cons, field_cons, field_cons]
        by_cases same : other = key
        · simp [own, same]
        · simp [own, same, Ne.symm same]
      · rw [if_neg own, field_cons, field_cons, field_cons, ih]
        by_cases same : other = key
        · simp [own, same]
        · simp [same]

/-- A change that changes nothing. -/
private theorem modifyField_same {fields : List (String × Json)} {key : String} {value : Json}
    (present : field fields key = some value) : modifyField fields key (fun _ => value) = fields := by
  induction fields with
  | nil => rfl
  | cons entry fields ih =>
      rw [field_cons] at present
      unfold modifyField
      by_cases own : entry.1 = key
      · rw [if_pos own] at present
        obtain rfl := Option.some.inj present
        rw [if_pos own, ← own]
      · rw [if_neg own] at present
        rw [if_neg own, ih present]

theorem get_set (value : Json) (key other : String) (replacement : Json) :
    (value.set key replacement).get other =
      if other = key then (value.get key).map fun _ => replacement else value.get other := by
  cases value with
  | object fields => exact field_modifyField fields key other _
  | _ => split <;> rfl

theorem set_same {value : Json} {key : String} {present : Json}
    (found : value.get key = some present) : value.set key present = value := by
  cases value with
  | object fields => exact congrArg Json.object (modifyField_same found)
  | _ => rfl

theorem field_nil (key : String) : field [] key = none := rfl

/-- Inserting what is there changes nothing. -/
theorem insert_same {fields : List (String × Json)} (distinct : (fields.map Prod.fst).Nodup)
    {key : String} {value : Json} (present : field fields key = some value) :
    insert fields key value = fields := by
  have found : fields.any (·.1 == key) = true := by
    by_contra absent
    have missing : field fields key = none := by
      refine field_eq_none.mpr fun member => absent ?_
      obtain ⟨entry, isEntry, own⟩ := List.mem_map.mp member
      exact List.any_eq_true.mpr ⟨entry, isEntry, beq_iff_eq.mpr own⟩
    rw [missing] at present
    cases present
  rw [insert, if_pos found]
  conv_rhs => rw [← List.map_id fields]
  refine List.map_congr_left fun entry member => ?_
  by_cases own : entry.1 = key
  · -- each key is there once, so this is the field that was found
    clear found
    induction fields with
    | nil => cases member
    | cons first rest ih =>
        obtain ⟨apart, rest_distinct⟩ := List.nodup_cons.mp distinct
        rw [field_cons] at present
        rcases List.mem_cons.mp member with rfl | member
        · rw [if_pos own] at present
          cases present
          exact (if_pos (beq_iff_eq.mpr own)).trans (Prod.ext own.symm rfl)
        · have other : first.1 ≠ key := by
            rintro rfl
            exact apart (own ▸ List.mem_map_of_mem member)
          rw [if_neg other] at present
          exact ih rest_distinct present member
  · simp [own]

/-- Every object of the value has each of its keys once, as a map does. -/
inductive Distinct : Json → Prop
  | null : Distinct .null
  | bool {value : Bool} : Distinct (.bool value)
  | number {text : String} : Distinct (.number text)
  | string {text : String} : Distinct (.string text)
  | array {items : List Json} : (∀ item ∈ items, Distinct item) → Distinct (.array items)
  | object {fields : List (String × Json)} : (fields.map Prod.fst).Nodup →
      (∀ entry ∈ fields, Distinct entry.2) → Distinct (.object fields)

theorem Distinct.keys {fields : List (String × Json)} (distinct : Distinct (.object fields)) :
    (fields.map Prod.fst).Nodup := by
  cases distinct with
  | object keys _ => exact keys

theorem mem_of_field {fields : List (String × Json)} {key : String} {value : Json}
    (found : field fields key = some value) : (key, value) ∈ fields := by
  induction fields with
  | nil => cases found
  | cons entry fields ih =>
      rw [field_cons] at found
      split at found
      next own =>
        cases found
        exact own ▸ List.mem_cons_self
      · exact List.mem_cons_of_mem _ (ih found)

theorem Distinct.field {fields : List (String × Json)} (distinct : Distinct (.object fields))
    {key : String} {value : Json} (found : Json.field fields key = some value) : Distinct value := by
  cases distinct with
  | object _ values => exact values _ (mem_of_field found)

theorem field_of_mem {fields : List (String × Json)} (distinct : (fields.map Prod.fst).Nodup)
    {entry : String × Json} (member : entry ∈ fields) :
    Json.field fields entry.1 = some entry.2 := by
  induction fields with
  | nil => cases member
  | cons first fields ih =>
      obtain ⟨apart, distinct⟩ := List.nodup_cons.mp distinct
      rw [field_cons]
      rcases List.mem_cons.mp member with rfl | member
      · exact if_pos rfl
      · have other : first.1 ≠ entry.1 := fun same => apart (same ▸ List.mem_map_of_mem member)
        rw [if_neg other]
        exact ih distinct member

theorem Distinct.of_field {fields : List (String × Json)} (keys : (fields.map Prod.fst).Nodup)
    (values : ∀ key value, Json.field fields key = some value → Distinct value) :
    Distinct (.object fields) :=
  .object keys fun entry member => values entry.1 entry.2 (field_of_mem keys member)

theorem Distinct.empty : Distinct (.object []) := .object List.nodup_nil (by simp)

/-! ### Paths of keys -/

/-- `Value::pointer` along keys that are no array indices. -/
def atPath (value : Json) : List String → Option Json
  | [] => some value
  | key :: path => (value.get key).bind (atPath · path)

theorem atPath_scalar {value : Json} (scalar : value.isObject = false) (key : String)
    (path : List String) : atPath value (key :: path) = none := by
  cases value with
  | object fields => cases scalar
  | _ => rfl

end ZenithRelay.Json
