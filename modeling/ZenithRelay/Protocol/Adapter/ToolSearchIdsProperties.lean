import ZenithRelay.Protocol.Adapter.ToolSearchIds

/-!
# Repaired ids stay apart

The search for a new id ends, and what it finds belongs to no other item. Calls are
equal after the repair when they were before, references follow, and a second repair
has nothing to do.
-/

set_option autoImplicit false

namespace ZenithRelay.Protocol.Adapter

/-! ## Candidates -/

theorem candidateId_toList (base : String) (suffix : Nat) :
    (candidateId base suffix).toList =
      base.toList ++ if suffix = 0 then [] else '_' :: Nat.toDigits 10 suffix := by
  unfold candidateId
  split
  · simp
  · simp

/-- No two suffixes make the same candidate. -/
private theorem candidateId_injective (base : String) : Function.Injective (candidateId base) := by
  intro first second same
  have tails := congrArg String.toList same
  rw [candidateId_toList, candidateId_toList] at tails
  have tails := List.append_cancel_left tails
  by_cases isFirst : first = 0 <;> by_cases isSecond : second = 0
  · rw [isFirst, isSecond]
  · simp [isFirst, isSecond] at tails
  · simp [isFirst, isSecond] at tails
  · rw [if_neg isFirst, if_neg isSecond] at tails
    have digits := (List.cons.inj tails).2
    rw [← @Nat.ofDigitChars_ten_toDigits first, digits, Nat.ofDigitChars_ten_toDigits]

theorem startsWith_iff (text start : String) :
    Text.startsWith text start = true ↔ start.toList <+: text.toList := by
  rw [Text.startsWith, List.isPrefixOf_iff_prefix]

private theorem candidateId_startsWith {base start : String} (starts : Text.startsWith base start = true)
    (suffix : Nat) : Text.startsWith (candidateId base suffix) start = true := by
  rw [startsWith_iff] at starts ⊢
  rw [candidateId_toList]
  exact starts.trans (List.prefix_append _ _)

private theorem replacementBase_startsWith (digest : String → String) (original : String) :
    Text.startsWith (replacementBase digest original) "tsc_" = true := by
  unfold replacementBase
  dsimp only
  split <;> rw [startsWith_iff, String.toList_append] <;> exact List.prefix_append _ _

private theorem probeId_eq_some {occupied : Finset String} {base : String} {fuel suffix : Nat}
    {found : String} (probed : probeId occupied base fuel suffix = some found) :
    found ∉ occupied ∧ ∃ last, found = candidateId base last := by
  induction fuel generalizing suffix with
  | zero => cases probed
  | succ fuel ih =>
      unfold probeId at probed
      split at probed
      · exact ih probed
      next free =>
        cases probed
        exact ⟨free, suffix, rfl⟩

private theorem probeId_eq_none {occupied : Finset String} {base : String} {fuel suffix : Nat}
    (probed : probeId occupied base fuel suffix = none) :
    ∀ step < fuel, candidateId base (suffix + step) ∈ occupied := by
  induction fuel generalizing suffix with
  | zero => exact fun step below => absurd below (Nat.not_lt_zero step)
  | succ fuel ih =>
      unfold probeId at probed
      split at probed
      next taken =>
        intro step below
        cases step with
        | zero => exact taken
        | succ step =>
            rw [Nat.add_succ, ← Nat.succ_add]
            exact ih probed step (Nat.lt_of_succ_lt_succ below)
      · cases probed

/-- Among one more candidate than there are occupied ids, one is free. -/
private theorem probeId_isSome (occupied : Finset String) (base : String) :
    ∃ found, probeId occupied base (occupied.card + 1) 0 = some found := by
  cases probed : probeId occupied base (occupied.card + 1) 0 with
  | some found => exact ⟨found, rfl⟩
  | none =>
      have within : (Finset.range (occupied.card + 1)).image (candidateId base) ⊆ occupied := by
        intro id member
        obtain ⟨step, below, rfl⟩ := Finset.mem_image.mp member
        rw [← Nat.zero_add step]
        exact probeId_eq_none probed step (Finset.mem_range.mp below)
      have count := Finset.card_le_card within
      rw [Finset.card_image_of_injective _ (candidateId_injective base), Finset.card_range] at count
      exact absurd count (Nat.not_succ_le_self _)

/-! ## Replacements -/

/-- What is replaced gets an id of its own in the namespace, taken by nobody. -/
structure Names (taken : Finset String) (mapping : BTreeMap String String) : Prop where
  named : ∀ {original id : String}, mapping[original]? = some id → Text.startsWith id "tsc_" = true
  fresh : ∀ {original id : String}, mapping[original]? = some id → id ∉ taken
  apart : ∀ {first second id : String}, mapping[first]? = some id → mapping[second]? = some id →
    first = second

/-- A call under its replacement. -/
def repairCall (mapping : BTreeMap String String) (item : Json) : Json :=
  match (repairedId item).bind fun id => mapping[id]? with
  | some replacement => item.set "id" (.string replacement)
  | none => item

theorem Names.insert {taken occupied : Finset String} {mapping : BTreeMap String String}
    (names : Names taken mapping) (within : taken ⊆ occupied)
    (used : ∀ {original id : String}, mapping[original]? = some id → id ∈ occupied) {original id : String}
    (free : id ∉ occupied) (named : Text.startsWith id "tsc_" = true) :
    Names taken (mapping.insert original id) := by
  constructor
  · intro other found holds
    rw [BTreeMap.lookup_insert] at holds
    split at holds
    · cases holds
      exact named
    · exact names.named holds
  · intro other found holds
    rw [BTreeMap.lookup_insert] at holds
    split at holds
    · cases holds
      exact fun member => free (within member)
    · exact names.fresh holds
  · intro first second found isFirst isSecond
    rw [BTreeMap.lookup_insert] at isFirst isSecond
    split at isFirst
    next sameFirst =>
      cases isFirst
      split at isSecond
      next sameSecond => exact sameFirst.trans sameSecond.symm
      · exact absurd (used isSecond) free
    · split at isSecond
      · cases isSecond
        exact absurd (used isFirst) free
      · exact names.apart isFirst isSecond

/-- The repair ends; its mapping extends the one it began with by the ids to be repaired. -/
private theorem repairCalls_spec (digest : String → String) (items : List Json) {taken : Finset String}
    (occupied : Finset String) (mapping : BTreeMap String String) (names : Names taken mapping)
    (within : taken ⊆ occupied)
    (used : ∀ {original id : String}, mapping[original]? = some id → id ∈ occupied) :
    ∃ final, repairCalls digest items occupied mapping =
        some (items.map (repairCall final), final) ∧
      Names taken final ∧
      (∀ {original id : String}, mapping[original]? = some id → final[original]? = some id) ∧
      ∀ original, (final[original]?).isSome = true ↔
        (mapping[original]?).isSome = true ∨ ∃ item ∈ items, repairedId item = some original := by
  induction items generalizing occupied mapping with
  | nil => exact ⟨mapping, rfl, names, fun holds => holds, by simp⟩
  | cons item items ih =>
      unfold repairCalls
      cases repaired : repairedId item with
      | none =>
          obtain ⟨final, ran, kept⟩ := ih occupied mapping names within used
          refine ⟨final, ?_, ?_⟩
          · simp [ran, repairCall, repaired]
          · simpa [repaired] using kept
      | some original =>
          cases known : mapping[original]? with
          | some existing =>
              obtain ⟨final, ran, kept, extends_, domain⟩ := ih occupied mapping names within used
              refine ⟨final, ?_, kept, extends_, fun other => ?_⟩
              · simp only [known, ran, Option.map_some, List.map_cons, repairCall, repaired,
                  Option.bind_some, extends_ known]
              · rw [domain other]
                constructor
                · rintro (holds | ⟨found, member, holds⟩)
                  · exact .inl holds
                  · exact .inr ⟨found, List.mem_cons_of_mem _ member, holds⟩
                · rintro (holds | ⟨found, member, holds⟩)
                  · exact .inl holds
                  · rcases List.mem_cons.mp member with rfl | member
                    · obtain rfl := Option.some.inj (repaired.symm.trans holds)
                      exact .inl (known ▸ rfl)
                    · exact .inr ⟨found, member, holds⟩
          | none =>
              obtain ⟨candidate, probed⟩ := probeId_isSome occupied (replacementBase digest original)
              obtain ⟨free, last, isCandidate⟩ := probeId_eq_some probed
              have named : Text.startsWith candidate "tsc_" = true := by
                rw [isCandidate]
                exact candidateId_startsWith (replacementBase_startsWith digest original) last
              have lookup := fun other => BTreeMap.lookup_insert mapping original other candidate
              obtain ⟨final, ran, kept, extends_, domain⟩ := ih (insert candidate occupied)
                (mapping.insert original candidate)
                (names.insert within (fun holds => used holds) free named)
                (within.trans (Finset.subset_insert _ _)) (by
                  intro other id holds
                  rw [lookup] at holds
                  split at holds
                  · cases holds
                    exact Finset.mem_insert_self _ _
                  · exact Finset.mem_insert_of_mem (used holds))
              have own : final[original]? = some candidate :=
                extends_ ((lookup original).trans (if_pos rfl))
              refine ⟨final, ?_, kept, fun {other id} holds => extends_ ?_, fun other => ?_⟩
              · simp only [known, probed, ran, Option.map_some, List.map_cons, repairCall, repaired,
                  Option.bind_some, own]
              · rw [lookup, if_neg]
                · exact holds
                · rintro rfl
                  rw [known] at holds
                  cases holds
              · rw [domain other, lookup]
                by_cases same : other = original
                · subst same
                  simp [repaired]
                · simp only [if_neg same, List.mem_cons, exists_eq_or_imp, repaired,
                    Option.some.injEq, Ne.symm same, false_or]

/-! ## Items -/

/-- An item after the repair. -/
def repairItem (mapping : BTreeMap String String) (item : Json) : Json :=
  followReference mapping (repairCall mapping item)

/-- The id that the repair looks up for an item. -/
def lookedUpId (item : Json) : Option String :=
  if itemKind item = some "item_reference" then itemId item else repairedId item

variable {mapping : BTreeMap String String} {item : Json}

theorem repairedId_eq_some {original : String} :
    repairedId item = some original ↔ itemKind item = some "tool_search_call" ∧
      itemId item = some original ∧ original ≠ "" ∧ Text.startsWith original "tsc_" = false := by
  unfold repairedId
  split
  next call => simp [call, Option.filter_eq_some_iff]
  next other => simp [other]

private theorem itemKind_set (item replacement : Json) :
    itemKind (item.set "id" replacement) = itemKind item := by
  rw [itemKind, Json.get_set, if_neg (by decide)]
  rfl

private theorem itemId_set {item : Json} {original : String} (present : itemId item = some original)
    (replacement : String) : itemId (item.set "id" (.string replacement)) = some replacement := by
  obtain ⟨value, found, -⟩ := Option.bind_eq_some_iff.mp present
  rw [itemId, Json.get_set, if_pos rfl, found]
  rfl

/-- Calls are repaired at once, references in the second pass; either way by the mapping. -/
private theorem repairItem_eq (mapping : BTreeMap String String) (item : Json) :
    repairItem mapping item =
      match (lookedUpId item).bind fun id => mapping[id]? with
      | some replacement => item.set "id" (.string replacement)
      | none => item := by
  unfold repairItem repairCall lookedUpId
  by_cases reference : itemKind item = some "item_reference"
  · have call : repairedId item = none := by
      rw [repairedId, if_neg]
      rw [reference]
      decide
    rw [call, if_pos reference]
    dsimp only [Option.bind_none]
    rw [followReference]
    exact if_pos reference
  · rw [if_neg reference]
    split
    · rw [followReference, itemKind_set, if_neg reference]
    · rw [followReference, if_neg reference]

/-- An item keeps its id, or has a new one of the mapping. -/
theorem repairItem_cases (mapping : BTreeMap String String) (item : Json) :
    (repairItem mapping item = item ∧
        ∀ original, lookedUpId item = some original → mapping[original]? = none) ∨
      ∃ original replacement, lookedUpId item = some original ∧ itemId item = some original ∧
        mapping[original]? = some replacement ∧
        repairItem mapping item = item.set "id" (.string replacement) ∧
        itemId (repairItem mapping item) = some replacement := by
  rw [repairItem_eq]
  cases looked : lookedUpId item with
  | none => exact .inl ⟨rfl, by simp⟩
  | some original =>
      have present : itemId item = some original := by
        unfold lookedUpId at looked
        split at looked
        · exact looked
        · exact (repairedId_eq_some.mp looked).2.1
      cases mapped : mapping[original]? with
      | none =>
          refine .inl ⟨by simp only [Option.bind_some, mapped], fun other same => ?_⟩
          cases same
          exact mapped
      | some replacement =>
          have result : (match (some original).bind fun id => mapping[id]? with
              | some replacement => item.set "id" (.string replacement)
              | none => item) = item.set "id" (.string replacement) := by
            simp only [Option.bind_some, mapped]
          exact .inr ⟨original, replacement, rfl, present, mapped, result,
            result ▸ itemId_set present replacement⟩

/-- A call whose id the repair has replaced: the item before and after. -/
def Rewritten (pair : Json × Json) : Prop :=
  itemKind pair.1 = some "tool_search_call" ∧ itemId pair.2 ≠ itemId pair.1

/-- What the repair does to the items of a request. -/
structure RepairsIds (items after : List Json) : Prop where
  count : after.length = items.length
  rewritten : ∀ pair ∈ items.zip after, itemKind pair.1 = some "tool_search_call" →
    (Rewritten pair ↔ ∃ id, itemId pair.1 = some id ∧ id ≠ "" ∧ Text.startsWith id "tsc_" = false)
  named : ∀ pair ∈ items.zip after, Rewritten pair →
    ∃ id, itemId pair.2 = some id ∧ Text.startsWith id "tsc_" = true
  calls : ∀ first ∈ items.zip after, ∀ second ∈ items.zip after,
    itemKind first.1 = some "tool_search_call" → itemKind second.1 = some "tool_search_call" →
      (itemId first.2 = itemId second.2 ↔ itemId first.1 = itemId second.1)
  apart : ∀ pair ∈ items.zip after, ∀ other ∈ items.zip after, Rewritten pair →
    itemId other.1 ≠ itemId pair.2 ∧
      (itemId other.1 ≠ itemId pair.1 → itemId other.2 ≠ itemId pair.2)
  references : ∀ pair ∈ items.zip after, ∀ reference ∈ items.zip after, Rewritten pair →
    itemKind reference.1 = some "item_reference" → itemId reference.1 = itemId pair.1 →
      itemId reference.2 = itemId pair.2
  unchanged : ∀ pair ∈ items.zip after, ¬Rewritten pair →
    (itemKind pair.1 = some "item_reference" →
      ∀ call ∈ items.zip after, Rewritten call → itemId pair.1 ≠ itemId call.1) →
    pair.2 = pair.1
  inPlace : ∀ pair ∈ items.zip after,
    pair.2 = pair.1 ∨ ∃ id, pair.2 = pair.1.set "id" (.string id)

theorem mem_zip_map {items : List Json} {change : Json → Json} {pair : Json × Json} :
    pair ∈ items.zip (items.map change) ↔ pair.1 ∈ items ∧ pair.2 = change pair.1 := by
  induction items with
  | nil => simp
  | cons item items ih =>
      rw [List.map_cons, List.zip_cons_cons, List.mem_cons, ih, List.mem_cons]
      obtain ⟨before, now⟩ := pair
      simp only [Prod.mk.injEq]
      constructor
      · rintro (⟨rfl, rfl⟩ | ⟨member, rfl⟩)
        · exact ⟨.inl rfl, rfl⟩
        · exact ⟨.inr member, rfl⟩
      · rintro ⟨rfl | member, rfl⟩
        · exact .inl ⟨rfl, rfl⟩
        · exact .inr ⟨member, rfl⟩

section

variable {items : List Json}

/-- The ids that the items have. -/
def takenIds (items : List Json) : Finset String := (items.filterMap itemId).toFinset

theorem mem_takenIds {id : String} : id ∈ takenIds items ↔ ∃ item ∈ items, itemId item = some id := by
  simp [takenIds]

/-- The mapping has a replacement for exactly the ids to be repaired. -/
def Covers (items : List Json) (mapping : BTreeMap String String) : Prop :=
  ∀ original, (mapping[original]?).isSome = true ↔ ∃ item ∈ items, repairedId item = some original

theorem call_cases (covers : Covers items mapping) (member : item ∈ items)
    (call : itemKind item = some "tool_search_call") :
    (repairItem mapping item = item ∧ repairedId item = none) ∨
      ∃ original replacement, repairedId item = some original ∧
        mapping[original]? = some replacement ∧
        itemId (repairItem mapping item) = some replacement := by
  have looked : lookedUpId item = repairedId item := by
    rw [lookedUpId, if_neg]
    rw [call]
    decide
  rcases repairItem_cases mapping item with ⟨same, unmapped⟩ | ⟨original, replacement, holds⟩
  · refine .inl ⟨same, ?_⟩
    cases repaired : repairedId item with
    | none => rfl
    | some original =>
        have mapped := (covers original).mpr ⟨item, member, repaired⟩
        rw [unmapped original (looked.trans repaired)] at mapped
        cases mapped
  · exact .inr ⟨original, replacement, looked ▸ holds.1, holds.2.2.1, holds.2.2.2.2⟩

/-- A replaced call: its id before, which is to be repaired, and its new one. -/
theorem rewritten_iff (names : Names (takenIds items) mapping) (covers : Covers items mapping)
    (member : item ∈ items) :
    Rewritten (item, repairItem mapping item) ↔
      ∃ original replacement, repairedId item = some original ∧
        mapping[original]? = some replacement ∧
        itemId (repairItem mapping item) = some replacement := by
  constructor
  · rintro ⟨call, changed⟩
    rcases call_cases covers member call with ⟨same, -⟩ | holds
    · exact absurd (congrArg itemId same) changed
    · exact holds
  · rintro ⟨original, replacement, repaired, mapped, now⟩
    obtain ⟨call, before, -⟩ := repairedId_eq_some.mp repaired
    refine ⟨call, ?_⟩
    rw [now, before]
    intro same
    cases same
    exact names.fresh mapped (mem_takenIds.mpr ⟨item, member, before⟩)

/-- A new id is found again only at items that had the id it replaces. -/
private theorem repairItem_replacement (names : Names (takenIds items) mapping) (member : item ∈ items)
    {original replacement : String} (mapped : mapping[original]? = some replacement)
    (now : itemId (repairItem mapping item) = some replacement) : itemId item = some original := by
  rcases repairItem_cases mapping item with ⟨same, -⟩ | ⟨other, found, -, before, isMapped, -, after⟩
  · rw [same] at now
    exact absurd (mem_takenIds.mpr ⟨item, member, now⟩) (names.fresh mapped)
  · rw [now] at after
    cases after
    rw [before, names.apart isMapped mapped]

private theorem repairItems (names : Names (takenIds items) mapping) (covers : Covers items mapping) :
    RepairsIds items (items.map (repairItem mapping)) := by
  have split : ∀ {pair}, pair ∈ items.zip (items.map (repairItem mapping)) →
      ∃ item ∈ items, pair = (item, repairItem mapping item) := by
    intro pair member
    obtain ⟨within, now⟩ := mem_zip_map.mp member
    exact ⟨pair.1, within, Prod.ext rfl now⟩
  constructor
  · exact List.length_map ..
  · intro pair member call
    obtain ⟨item, within, rfl⟩ := split member
    rw [rewritten_iff names covers within]
    constructor
    · rintro ⟨original, -, repaired, -⟩
      exact ⟨original, (repairedId_eq_some.mp repaired).2⟩
    · rintro ⟨original, holds⟩
      have repaired := repairedId_eq_some.mpr ⟨call, holds⟩
      rcases call_cases covers within call with ⟨-, unrepaired⟩ | holds
      · rw [repaired] at unrepaired
        cases unrepaired
      · exact holds
  · intro pair member changed
    obtain ⟨item, within, rfl⟩ := split member
    obtain ⟨original, replacement, -, mapped, now⟩ := (rewritten_iff names covers within).mp changed
    exact ⟨replacement, now, names.named mapped⟩
  · intro first isFirst second isSecond firstCall secondCall
    obtain ⟨item, within, rfl⟩ := split isFirst
    obtain ⟨other, otherWithin, rfl⟩ := split isSecond
    rcases call_cases covers within firstCall with ⟨same, unrepaired⟩ | ⟨original, new, repaired, mapped, now⟩ <;>
      rcases call_cases covers otherWithin secondCall with
        ⟨otherSame, otherUnrepaired⟩ | ⟨otherOriginal, otherNew, otherRepaired, otherMapped, otherNow⟩
    · rw [same, otherSame]
    · have otherBefore := (repairedId_eq_some.mp otherRepaired).2.1
      simp only [same, otherNow, otherBefore]
      constructor
      · intro taken
        exact absurd (mem_takenIds.mpr ⟨item, within, taken⟩) (names.fresh otherMapped)
      · intro equal
        rw [repairedId_eq_some.mpr ⟨firstCall, equal, (repairedId_eq_some.mp otherRepaired).2.2⟩]
          at unrepaired
        cases unrepaired
    · have before := (repairedId_eq_some.mp repaired).2.1
      simp only [otherSame, now, before]
      constructor
      · intro taken
        exact absurd (mem_takenIds.mpr ⟨other, otherWithin, taken.symm⟩) (names.fresh mapped)
      · intro equal
        rw [repairedId_eq_some.mpr ⟨secondCall, equal.symm, (repairedId_eq_some.mp repaired).2.2⟩]
          at otherUnrepaired
        cases otherUnrepaired
    · have before := (repairedId_eq_some.mp repaired).2.1
      have otherBefore := (repairedId_eq_some.mp otherRepaired).2.1
      simp only [now, otherNow, before, otherBefore, Option.some.injEq]
      constructor
      · rintro rfl
        exact names.apart mapped otherMapped
      · rintro rfl
        exact Option.some.inj (mapped.symm.trans otherMapped)
  · intro pair isPair other isOther changed
    obtain ⟨item, within, rfl⟩ := split isPair
    obtain ⟨found, foundWithin, rfl⟩ := split isOther
    obtain ⟨original, replacement, repaired, mapped, now⟩ :=
      (rewritten_iff names covers within).mp changed
    simp only [now, (repairedId_eq_some.mp repaired).2.1]
    refine ⟨fun taken => names.fresh mapped (mem_takenIds.mpr ⟨found, foundWithin, taken⟩), ?_⟩
    exact fun differ same => differ (repairItem_replacement names foundWithin mapped same)
  · intro pair isPair reference isReference changed kind same
    obtain ⟨item, within, rfl⟩ := split isPair
    obtain ⟨found, foundWithin, rfl⟩ := split isReference
    obtain ⟨original, replacement, repaired, mapped, now⟩ :=
      (rewritten_iff names covers within).mp changed
    have before : itemId found = some original := same.trans (repairedId_eq_some.mp repaired).2.1
    have looked : lookedUpId found = some original := (if_pos kind).trans before
    rcases repairItem_cases mapping found with ⟨-, unmapped⟩ | ⟨other, id, isOther, -, otherMapped, -, after⟩
    · rw [unmapped original looked] at mapped
      cases mapped
    · rw [looked] at isOther
      cases isOther
      rw [mapped] at otherMapped
      cases otherMapped
      exact after.trans now.symm
  · intro pair member unchanged unreferenced
    obtain ⟨item, within, rfl⟩ := split member
    rcases repairItem_cases mapping item with ⟨same, -⟩ | ⟨original, id, looked, before, mapped, -, after⟩
    · exact same
    · unfold lookedUpId at looked
      split at looked
      next reference =>
        -- the reference follows a call that is rewritten
        obtain ⟨call, callWithin, repaired⟩ := (covers original).mp (mapped ▸ rfl)
        have isCall := (repairedId_eq_some.mp repaired).1
        rcases call_cases covers callWithin isCall with ⟨-, unrepaired⟩ | holds
        · rw [repaired] at unrepaired
          cases unrepaired
        · have changed := (rewritten_iff names covers callWithin).mpr holds
          refine absurd ?_ (unreferenced reference _ (mem_zip_map.mpr ⟨callWithin, rfl⟩) changed)
          exact before.trans (repairedId_eq_some.mp repaired).2.1.symm
      · exact absurd ((rewritten_iff names covers within).mpr ⟨original, id, looked, mapped, after⟩)
          unchanged
  · intro pair member
    obtain ⟨item, within, rfl⟩ := split member
    rcases repairItem_cases mapping item with ⟨same, -⟩ | ⟨_, replacement, -, -, -, result, -⟩
    · exact .inl same
    · exact .inr ⟨replacement, result⟩

end

/-! ## Requests -/

private theorem get_set_input (requestBody replacement : Json) {present : Json}
    (found : requestBody.get "input" = some present) :
    (requestBody.set "input" replacement).get "input" = some replacement := by
  rw [Json.get_set, if_pos rfl, found]
  rfl

private theorem notEmpty_iff (mapping : BTreeMap String String) :
    (!mapping.isEmpty) = true ↔ ∃ original : String, (mapping[original]?).isSome = true := by
  rw [Bool.not_eq_true', Std.ExtTreeMap.isEmpty_eq_false_iff]
  constructor
  · intro nonempty
    by_contra absent
    refine nonempty (BTreeMap.ext_lookup fun original => ?_)
    cases mapped : mapping[original]? with
    | none => simp
    | some replacement => exact absurd ⟨original, mapped ▸ rfl⟩ absent
  · rintro ⟨original, mapped⟩ rfl
    simp at mapped

/-- Nothing to repair: every call has its id in the namespace. -/
private theorem repairCalls_nothing (digest : String → String) {items : List Json}
    (nothing : ∀ item ∈ items, repairedId item = none) (occupied : Finset String)
    (mapping : BTreeMap String String) :
    repairCalls digest items occupied mapping = some (items, mapping) := by
  induction items with
  | nil => rfl
  | cons item items ih =>
      unfold repairCalls
      rw [nothing item List.mem_cons_self]
      dsimp only
      rw [ih fun other member => nothing other (List.mem_cons_of_mem _ member)]
      rfl

private theorem followReference_empty (item : Json) : followReference ∅ item = item := by
  unfold followReference
  split
  · cases itemId item <;> simp
  · rfl

private theorem repairToolSearchItemIds_nothing (digest : String → String) {requestBody : Json}
    {items : List Json} (input : requestBody.get "input" = some (.array items))
    (nothing : ∀ item ∈ items, repairedId item = none) :
    repairToolSearchItemIds digest requestBody = some (requestBody, false) := by
  have followed : items.map (followReference ∅) = items := by
    conv_rhs => rw [← List.map_id items]
    exact List.map_congr_left fun item _ => followReference_empty item
  unfold repairToolSearchItemIds
  rw [input]
  dsimp only
  rw [repairCalls_nothing digest nothing, Option.map_some, followed, Json.set_same input]
  simp

/-- What is repaired needs no second repair. -/
private theorem repairItem_repaired {items : List Json} {mapping : BTreeMap String String}
    (names : Names (takenIds items) mapping) (covers : Covers items mapping) {item : Json}
    (member : item ∈ items) : repairedId (repairItem mapping item) = none := by
  cases repaired : repairedId (repairItem mapping item) with
  | none => rfl
  | some original =>
      obtain ⟨kind, now, -, outside⟩ := repairedId_eq_some.mp repaired
      rcases repairItem_cases mapping item with ⟨same, -⟩ | ⟨_, replacement, -, -, mapped, -, after⟩
      · rw [same] at repaired kind
        rcases call_cases covers member kind with ⟨-, unrepaired⟩ | ⟨_, id, -, mapped, after⟩
        · rw [repaired] at unrepaired
          cases unrepaired
        · rw [now] at after
          cases after
          rw [names.named mapped] at outside
          cases outside
      · rw [now] at after
        cases after
        rw [names.named mapped] at outside
        cases outside

/-- The repair ends; it changes only the ids of the items in `input`, and only those of
tool-search calls and the references to them; a second repair changes nothing. -/
theorem toolSearchItemIds_repaired (digest : String → String) (requestBody : Json) :
    ∃ after changed, repairToolSearchItemIds digest requestBody = some (after, changed) ∧
      (∀ items, requestBody.get "input" = some (.array items) →
        ∃ repaired, after = requestBody.set "input" (.array repaired) ∧ RepairsIds items repaired ∧
          (changed = true ↔ ∃ pair ∈ items.zip repaired, Rewritten pair)) ∧
      ((∀ items, requestBody.get "input" ≠ some (.array items)) →
        after = requestBody ∧ changed = false) ∧
      repairToolSearchItemIds digest after = some (after, false) := by
  cases input : requestBody.get "input" with
  | none =>
      have same : repairToolSearchItemIds digest requestBody = some (requestBody, false) := by
        rw [repairToolSearchItemIds, input]
      exact ⟨requestBody, false, same, nofun, fun _ => ⟨rfl, rfl⟩, same⟩
  | some value =>
      cases value with
      | array items =>
          have empty : Names (takenIds items) ∅ := by
            constructor <;> simp
          obtain ⟨final, ran, names, -, domain⟩ :=
            repairCalls_spec digest items (takenIds items) ∅ empty (Finset.Subset.refl _) (by simp)
          have covers : Covers items final := fun original => by simpa using domain original
          have result : repairToolSearchItemIds digest requestBody =
              some (requestBody.set "input" (.array (items.map (repairItem final))),
                !final.isEmpty) := by
            unfold repairToolSearchItemIds
            rw [input]
            dsimp only
            rw [← takenIds, ran, Option.map_some, List.map_map]
            rfl
          refine ⟨_, _, result, ?_, fun other => absurd rfl (other items), ?_⟩
          · rintro _ ⟨⟩
            refine ⟨_, rfl, repairItems names covers, ?_⟩
            have empties : (!final.isEmpty) = true ↔
                ∃ original : String, (final[original]?).isSome = true := by
              exact notEmpty_iff final
            rw [empties]
            constructor
            · rintro ⟨original, mapped⟩
              obtain ⟨item, member, repaired⟩ := (covers original).mp mapped
              refine ⟨(item, repairItem final item), mem_zip_map.mpr ⟨member, rfl⟩, ?_⟩
              rcases call_cases covers member (repairedId_eq_some.mp repaired).1 with
                ⟨-, unrepaired⟩ | holds
              · rw [repaired] at unrepaired
                cases unrepaired
              · exact (rewritten_iff names covers member).mpr holds
            · rintro ⟨⟨item, now⟩, isPair, changed⟩
              obtain ⟨member, same⟩ := mem_zip_map.mp isPair
              obtain rfl : now = repairItem final item := same
              obtain ⟨original, replacement, -, mapped, -⟩ :=
                (rewritten_iff names covers member).mp changed
              exact ⟨original, mapped ▸ rfl⟩
          · refine repairToolSearchItemIds_nothing digest
              (get_set_input requestBody _ input) fun item member => ?_
            obtain ⟨before, within, rfl⟩ := List.mem_map.mp member
            exact repairItem_repaired names covers within
      | _ =>
          have same : repairToolSearchItemIds digest requestBody = some (requestBody, false) := by
            rw [repairToolSearchItemIds, input]
          exact ⟨requestBody, false, same, nofun, fun _ => ⟨rfl, rfl⟩, same⟩

/-- Two calls that share an id share the new one, so a new id need not be the only one. -/
theorem sharedId_staysShared :
    ¬∀ (digest : String → String) (requestBody after : Json) (changed : Bool)
      (items repaired : List Json), requestBody.get "input" = some (.array items) →
      repairToolSearchItemIds digest requestBody = some (after, changed) →
      after.get "input" = some (.array repaired) →
      ∀ (index other : Nat), index ≠ other → ∀ before now otherNow, items[index]? = some before →
        repaired[index]? = some now → repaired[other]? = some otherNow →
        itemId now ≠ itemId before → itemId otherNow ≠ itemId now := by
  intro apart
  let call (id : String) : Json :=
    .object [("type", .string "tool_search_call"), ("id", .string id)]
  let body (id : String) : Json := .object [("input", .array [call id, call id])]
  have differs := apart (fun _ => "") (body "ts_a") (body "tsc_a") true
    [call "ts_a", call "ts_a"] [call "tsc_a", call "tsc_a"] rfl rfl rfl 0 1 (by decide)
    (call "ts_a") (call "tsc_a") (call "tsc_a") rfl rfl rfl (by decide)
  exact differs rfl

end ZenithRelay.Protocol.Adapter
