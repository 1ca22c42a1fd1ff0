import Mathlib

/-!
# Ordered maps

Rust's `BTreeMap` as the standard extensional tree map, with the counting laws
that resource accounting needs: how the number of entries with a property
changes when one entry is added, removed or replaced.
-/

set_option autoImplicit false

namespace ZenithRelay

/-- Tuples are ordered lexicographically, as Rust derives it. -/
instance instOrdProd {α β : Type} [Ord α] [Ord β] : Ord (α × β) := lexOrd

abbrev BTreeMap (Key Value : Type) [Ord Key] := Std.ExtTreeMap Key Value compare

abbrev BTreeSet (Key : Type) [Ord Key] := Std.ExtTreeSet Key compare

namespace BTreeMap

variable {Key Value : Type} [Ord Key] [Std.TransOrd Key]

/-- Number of entries whose value passes `test`. -/
def countValues (map : BTreeMap Key Value) (test : Value → Bool) : Nat :=
  map.toList.countP fun entry => test entry.2

/-- The values in key order. -/
def values (map : BTreeMap Key Value) : List Value := map.toList.map Prod.snd

/-- Total weight of the entries. -/
def sumBy (map : BTreeMap Key Value) (weight : Key → Value → Nat) : Nat :=
  (map.toList.map fun entry => weight entry.1 entry.2).sum

@[simp] theorem sumBy_empty (weight : Key → Value → Nat) :
    sumBy (∅ : BTreeMap Key Value) weight = 0 := rfl

/-- Entries that a filter drops weigh nothing afterwards. -/
theorem sumBy_filter (weight : Key → Value → Nat) (map : BTreeMap Key Value)
    (keep : Key → Value → Bool) :
    sumBy (map.filter keep) weight =
      sumBy map fun key value => if keep key value then weight key value else 0 := by
  unfold sumBy
  rw [Std.ExtTreeMap.toList_filter]
  induction map.toList with
  | nil => rfl
  | cons entry rest ih =>
      by_cases kept : keep entry.1 entry.2 <;> simp [kept, ih]

theorem sumBy_mono {map : BTreeMap Key Value} {left right : Key → Value → Nat}
    (less : ∀ key value, left key value ≤ right key value) : sumBy map left ≤ sumBy map right := by
  unfold sumBy
  induction map.toList with
  | nil => exact Nat.le_refl 0
  | cons entry rest ih =>
    have first := less entry.1 entry.2
    rw [List.map_cons, List.map_cons, List.sum_cons, List.sum_cons]
    omega

@[simp] theorem countValues_empty (test : Value → Bool) :
    countValues (∅ : BTreeMap Key Value) test = 0 := rfl

theorem countValues_le_size (map : BTreeMap Key Value) (test : Value → Bool) :
    countValues map test ≤ map.size := by
  rw [← Std.ExtTreeMap.length_toList]
  exact List.countP_le_length

theorem countValues_le_of_imp (map : BTreeMap Key Value) {left right : Value → Bool}
    (weaker : ∀ value, left value = true → right value = true) :
    countValues map left ≤ countValues map right :=
  List.countP_mono_left fun entry _ => weaker entry.2

theorem size_erase_found {map : BTreeMap Key Value} {key : Key} {value : Value}
    (found : map[key]? = some value) : (map.erase key).size + 1 = map.size := by
  have present : key ∈ map := by
    simp [Std.ExtTreeMap.mem_iff_isSome_getElem?, found]
  have positive : 0 < map.size := by
    apply Nat.pos_of_ne_zero
    intro empty
    rw [← Std.ExtTreeMap.eq_empty_iff_size_eq_zero] at empty
    simp [empty] at present
  rw [Std.ExtTreeMap.size_erase]
  simp [present]
  omega

theorem size_replace {map : BTreeMap Key Value} {key : Key} {old : Value}
    (found : map[key]? = some old) (new : Value) : (map.insert key new).size = map.size := by
  have present : key ∈ map := by
    simp [Std.ExtTreeMap.mem_iff_isSome_getElem?, found]
  rw [Std.ExtTreeMap.size_insert]
  simp [present]

theorem size_insert_fresh {map : BTreeMap Key Value} {key : Key} (absent : map[key]? = none)
    (value : Value) : (map.insert key value).size = map.size + 1 := by
  have missing : key ∉ map := by
    rw [Std.ExtTreeMap.mem_iff_isSome_getElem?, absent]
    simp
  rw [Std.ExtTreeMap.size_insert]
  simp [missing]

variable [Std.LawfulEqOrd Key]

theorem ext_lookup {left right : BTreeMap Key Value}
    (same : ∀ key : Key, left[key]? = right[key]?) : left = right :=
  Std.ExtTreeMap.ext_getElem? same

theorem mem_toList_iff {map : BTreeMap Key Value} {key : Key} {value : Value} :
    (key, value) ∈ map.toList ↔ map[key]? = some value :=
  Std.ExtTreeMap.mem_toList_iff_getElem?_eq_some

@[simp] theorem lookup_insert [DecidableEq Key] (map : BTreeMap Key Value) (key other : Key)
    (value : Value) :
    (map.insert key value)[other]? = if other = key then some value else map[other]? := by
  rw [Std.ExtTreeMap.getElem?_insert]
  by_cases same : other = key
  · simp [same]
  · simp [same, Ne.symm same]

@[simp] theorem lookup_erase [DecidableEq Key] (map : BTreeMap Key Value) (key other : Key) :
    (map.erase key)[other]? = if other = key then none else map[other]? := by
  rw [Std.ExtTreeMap.getElem?_erase]
  by_cases same : other = key
  · simp [same]
  · simp [same, Ne.symm same]

@[simp] theorem lookup_modify [DecidableEq Key] (map : BTreeMap Key Value) (key other : Key)
    (update : Value → Value) :
    (map.modify key update)[other]? =
      if other = key then map[other]?.map update else map[other]? := by
  rw [Std.ExtTreeMap.getElem?_modify]
  by_cases same : other = key
  · simp [same]
  · simp [same, Ne.symm same]

@[simp] theorem lookup_insertIfNew [DecidableEq Key] (map : BTreeMap Key Value)
    (key other : Key) (value : Value) :
    (map.insertIfNew key value)[other]? =
      if other = key then some (map[other]?.getD value) else map[other]? := by
  rw [Std.ExtTreeMap.getElem?_insertIfNew]
  by_cases same : other = key
  · subst same
    cases found : map[other]? <;>
      simp [Std.ExtTreeMap.mem_iff_isSome_getElem?, found]
  · simp [same, Ne.symm same]

@[simp] theorem lookup_filterMap {Result : Type} (map : BTreeMap Key Value)
    (keep : Key → Value → Option Result) (key : Key) :
    (map.filterMap keep)[key]? = map[key]?.bind (keep key) :=
  Std.ExtTreeMap.getElem?_filterMap'

/-- Keeps the first item of every key: `entry(key).or_insert(item)` in a fold. -/
def firstByKey (view : Value → Key) (items : List Value) : BTreeMap Key Value :=
  items.foldl (fun map item => map.insertIfNew (view item) item) ∅

theorem lookup_firstByKey [DecidableEq Key] (view : Value → Key) (items : List Value) (key : Key) :
    (firstByKey view items)[key]? = items.find? fun item => view item = key := by
  have general : ∀ map : BTreeMap Key Value,
      (items.foldl (fun map item => map.insertIfNew (view item) item) map)[key]? =
        (map[key]?).or (items.find? fun item => view item = key) := by
    induction items with
    | nil => simp
    | cons item items ih =>
      intro map
      rw [List.foldl_cons, ih, lookup_insertIfNew]
      by_cases same : view item = key
      · subst same
        cases map[view item]? <;> simp
      · simp [same, Ne.symm same]
  unfold firstByKey
  simpa using general ∅

theorem mem_values_iff {map : BTreeMap Key Value} {value : Value} :
    value ∈ values map ↔ ∃ key : Key, map[key]? = some value := by
  constructor
  · intro member
    obtain ⟨⟨key, stored⟩, inside, rfl⟩ := List.mem_map.mp member
    exact ⟨key, mem_toList_iff.mp inside⟩
  · rintro ⟨key, found⟩
    exact List.mem_map.mpr ⟨(key, value), mem_toList_iff.mpr found, rfl⟩

/-- The first passing item of entries in key order is the one of least key. -/
private theorem find?_entries_iff {Item : Type} (seen : Value → Option Item) (test : Item → Bool)
    {entries : List (Key × Value)}
    (ordered : entries.Pairwise fun left right => compare left.1 right.1 = .lt) (item : Item) :
    ((entries.map Prod.snd).filterMap seen).find? test = some item ↔
      ∃ key value, (key, value) ∈ entries ∧ seen value = some item ∧ test item = true ∧
        ∀ other otherValue otherItem, (other, otherValue) ∈ entries →
          seen otherValue = some otherItem → test otherItem = true →
          (compare key other).isLE := by
  induction entries with
  | nil => simp
  | cons entry rest ih =>
    obtain ⟨first, value⟩ := entry
    obtain ⟨above, ordered⟩ := List.pairwise_cons.mp ordered
    have rest_iff := ih ordered
    by_cases passes : ∃ own, seen value = some own ∧ test own = true
    · obtain ⟨own, sees, passes⟩ := passes
      have found : (((first, value) :: rest).map Prod.snd |>.filterMap seen).find? test = some own := by
        simp [sees, passes]
      rw [found]
      constructor
      · rintro ⟨⟩
        refine ⟨first, value, by simp, sees, passes, ?_⟩
        intro other otherValue otherItem member _ _
        rcases List.mem_cons.mp member with same | member
        · cases same
          simp [Std.ReflCmp.compare_self]
        · rw [above _ member]
          rfl
      · rintro ⟨key, stored, member, seesItem, -, least⟩
        rcases List.mem_cons.mp member with same | member
        · cases same
          rw [sees] at seesItem
          exact seesItem
        · have below := least first value own (by simp) sees passes
          have later : compare key first = .gt := Std.OrientedCmp.gt_of_lt (above _ member)
          simp [later] at below
    · have skipped : (((first, value) :: rest).map Prod.snd |>.filterMap seen).find? test =
          ((rest.map Prod.snd).filterMap seen).find? test := by
        cases sees : seen value with
        | none => simp [sees]
        | some own =>
            have fails : ¬test own = true := fun pass => passes ⟨own, sees, pass⟩
            simp [sees, fails]
      have head : ∀ {other otherValue otherItem}, (other, otherValue) ∈ (first, value) :: rest →
          seen otherValue = some otherItem → test otherItem = true →
          (other, otherValue) ∈ rest := by
        intro other otherValue otherItem member sees pass
        rcases List.mem_cons.mp member with same | member
        · cases same
          exact absurd ⟨otherItem, sees, pass⟩ passes
        · exact member
      rw [skipped, rest_iff]
      constructor
      · rintro ⟨key, stored, member, sees, pass, least⟩
        exact ⟨key, stored, List.mem_cons_of_mem _ member, sees, pass,
          fun other otherValue otherItem inside otherSees otherPass =>
            least other otherValue otherItem (head inside otherSees otherPass) otherSees otherPass⟩
      · rintro ⟨key, stored, member, sees, pass, least⟩
        exact ⟨key, stored, head member sees pass, sees, pass,
          fun other otherValue otherItem inside =>
            least other otherValue otherItem (List.mem_cons_of_mem _ inside)⟩

/-- Of the items seen in a map, `firstByKey` keeps the one of least key. -/
theorem lookup_firstByKey_values {Group Item : Type} [Ord Group] [Std.TransOrd Group]
    [Std.LawfulEqOrd Group] [DecidableEq Group] (map : BTreeMap Key Value)
    (seen : Value → Option Item) (view : Item → Group) (group : Group) (item : Item) :
    (firstByKey view ((values map).filterMap seen))[group]? = some item ↔
      ∃ (key : Key) (value : Value), map[key]? = some value ∧ seen value = some item ∧
        view item = group ∧
        ∀ (other : Key) (otherValue : Value) (otherItem : Item), map[other]? = some otherValue →
          seen otherValue = some otherItem → view otherItem = group →
          (compare key other).isLE := by
  rw [lookup_firstByKey, values,
    find?_entries_iff seen (fun item => view item = group) Std.ExtTreeMap.ordered_keys_toList]
  simp only [mem_toList_iff, decide_eq_true_eq]

@[simp] theorem lookup_filter (map : BTreeMap Key Value) (keep : Key → Value → Bool) (key : Key) :
    (map.filter keep)[key]? = map[key]?.filter (keep key) :=
  Std.ExtTreeMap.getElem?_filter'

theorem keys_nodup (map : BTreeMap Key Value) : (map.toList.map Prod.fst).Nodup := by
  have distinct : map.toList.Pairwise fun left right => ¬compare left.1 right.1 = .eq :=
    Std.ExtTreeMap.distinct_keys_toList
  rw [List.Nodup, List.pairwise_map]
  exact distinct.imp fun different same => different (by rw [same]; exact Std.ReflOrd.compare_self)

theorem values_firstByKey_nodup [DecidableEq Key] (view : Value → Key) (items : List Value) :
    ((values (firstByKey view items)).map view).Nodup := by
  have own : ((firstByKey view items).toList.map Prod.snd).map view =
      (firstByKey view items).toList.map Prod.fst := by
    rw [List.map_map]
    apply List.map_congr_left
    rintro ⟨key, item⟩ member
    rw [mem_toList_iff, lookup_firstByKey] at member
    simpa using List.find?_some member
  rw [values, own]
  exact keys_nodup _

theorem toList_nodup (map : BTreeMap Key Value) : map.toList.Nodup :=
  List.Nodup.of_map Prod.fst (keys_nodup map)

/-- The entries after an insertion: the new one and the untouched others. -/
theorem toList_insert_perm [DecidableEq Key] (map : BTreeMap Key Value) (key : Key)
    (value : Value) :
    (map.insert key value).toList.Perm ((key, value) :: (map.erase key).toList) := by
  have absent : (key, value) ∉ (map.erase key).toList := by
    rw [mem_toList_iff]
    simp
  rw [List.perm_ext_iff_of_nodup (toList_nodup _) (List.nodup_cons.mpr ⟨absent, toList_nodup _⟩)]
  rintro ⟨other, stored⟩
  rw [List.mem_cons, mem_toList_iff, mem_toList_iff, lookup_insert, lookup_erase]
  by_cases same : other = key
  · simp [same, eq_comm]
  · simp [same]

theorem erase_eq_self_of_lookup_none [DecidableEq Key] {map : BTreeMap Key Value} {key : Key}
    (absent : map[key]? = none) : map.erase key = map := by
  apply ext_lookup
  intro other
  rw [lookup_erase]
  by_cases same : other = key
  · simp [same, absent]
  · simp [same]

theorem insert_eq_self_of_lookup [DecidableEq Key] {map : BTreeMap Key Value} {key : Key}
    {value : Value} (found : map[key]? = some value) : map.insert key value = map := by
  apply ext_lookup
  intro other
  rw [lookup_insert]
  by_cases same : other = key
  · simp [same, found]
  · simp [same]

theorem modify_eq_insert [DecidableEq Key] {map : BTreeMap Key Value} {key : Key} {value : Value}
    (found : map[key]? = some value) (update : Value → Value) :
    map.modify key update = map.insert key (update value) := by
  apply ext_lookup
  intro other
  rw [lookup_modify, lookup_insert]
  by_cases same : other = key
  · simp [same, found]
  · simp [same]

section Counting

variable (test : Value → Bool)

theorem countValues_pos_iff {map : BTreeMap Key Value} :
    0 < countValues map test ↔ ∃ (key : Key) (value : Value), map[key]? = some value ∧ test value = true := by
  rw [countValues, List.countP_pos_iff]
  constructor
  · rintro ⟨⟨key, value⟩, member, passes⟩
    exact ⟨key, value, mem_toList_iff.mp member, passes⟩
  · rintro ⟨key, value, found, passes⟩
    exact ⟨(key, value), mem_toList_iff.mpr found, passes⟩

theorem countValues_eq_zero {map : BTreeMap Key Value}
    (excluded : ∀ (key : Key) (value : Value), map[key]? = some value → test value = false) :
    countValues map test = 0 := by
  by_contra positive
  obtain ⟨key, value, found, passes⟩ := (countValues_pos_iff test).mp (Nat.pos_of_ne_zero positive)
  simp [excluded key value found] at passes

variable [DecidableEq Key]

theorem countValues_insert (map : BTreeMap Key Value) (key : Key) (value : Value) :
    countValues (map.insert key value) test =
      countValues (map.erase key) test + if test value then 1 else 0 := by
  rw [countValues, (toList_insert_perm map key value).countP_eq, List.countP_cons]
  rfl

/-- Adding an entry under a fresh key counts that entry once. -/
theorem countValues_insert_fresh {map : BTreeMap Key Value} {key : Key}
    (absent : map[key]? = none) (value : Value) :
    countValues (map.insert key value) test =
      countValues map test + if test value then 1 else 0 := by
  rw [countValues_insert, erase_eq_self_of_lookup_none absent]

/-- Removing an entry takes away exactly its own contribution. -/
theorem countValues_erase {map : BTreeMap Key Value} {key : Key} {value : Value}
    (found : map[key]? = some value) :
    countValues (map.erase key) test + (if test value then 1 else 0) = countValues map test := by
  rw [← countValues_insert, insert_eq_self_of_lookup found]

/-- Replacing a value by one the test does not tell apart changes no count. -/
theorem countValues_replace {map : BTreeMap Key Value} {key : Key} {old new : Value}
    (found : map[key]? = some old) (same : test new = test old) :
    countValues (map.insert key new) test = countValues map test := by
  rw [countValues_insert, same, countValues_erase test found]

end Counting

section Weighing

variable (weight : Key → Value → Nat)

theorem sumBy_congr {map : BTreeMap Key Value} {left right : Key → Value → Nat}
    (same : ∀ (key : Key) (value : Value), map[key]? = some value → left key value = right key value) :
    sumBy map left = sumBy map right := by
  unfold sumBy
  congr 1
  apply List.map_congr_left
  rintro ⟨key, value⟩ member
  exact same key value (mem_toList_iff.mp member)

variable [DecidableEq Key]

theorem sumBy_insert (map : BTreeMap Key Value) (key : Key) (value : Value) :
    sumBy (map.insert key value) weight = sumBy (map.erase key) weight + weight key value := by
  rw [sumBy, ((toList_insert_perm map key value).map _).sum_nat]
  simp [sumBy, Nat.add_comm]

theorem sumBy_erase {map : BTreeMap Key Value} {key : Key} {value : Value}
    (found : map[key]? = some value) :
    sumBy (map.erase key) weight + weight key value = sumBy map weight := by
  rw [← sumBy_insert, insert_eq_self_of_lookup found]

theorem sumBy_erase_absent {map : BTreeMap Key Value} {key : Key} (absent : map[key]? = none) :
    sumBy (map.erase key) weight = sumBy map weight := by
  rw [erase_eq_self_of_lookup_none absent]

end Weighing

end BTreeMap

end ZenithRelay
