import ZenithRelay.Foundations.TextProperties
import ZenithRelay.Pricing.Catalog

/-!
# The index agrees with a scan

The price of an official family is the one on which all its entries of the model name
agree, and no price crosses from one provider to another.
-/

set_option autoImplicit false

namespace ZenithRelay.Pricing

/-! ### Names -/

theorem normalize_congr {text other : String}
    (same : Text.toAsciiLowercase text = Text.toAsciiLowercase other) :
    normalize text = normalize other := by
  have lower : text.toList.map Char.toLower = other.toList.map Char.toLower := by
    rw [← Text.toList_toAsciiLowercase, same, Text.toList_toAsciiLowercase]
  rw [normalize, normalize, ← String.toList_inj, Text.toList_toAsciiLowercase,
    Text.toList_toAsciiLowercase, Text.toList_trim, Text.toList_trim, Text.trimChars_toLower, lower,
    Text.trimChars_toLower]

/-- The characters after the last `/`. -/
def leafChars (text : List Char) : List Char := (text.reverse.takeWhile (· != '/')).reverse

theorem unqualified_eq (model : String) :
    unqualified model = normalize (String.ofList (leafChars model.toList)) := rfl

theorem leafChars_toLower (text : List Char) :
    (leafChars text).map Char.toLower = leafChars (text.map Char.toLower) := by
  have plain : ((· != '/') ∘ Char.toLower : Char → Bool) = (· != '/') := by
    funext character
    change (character.toLower != '/') = (character != '/')
    rw [bne, bne, Text.toLower_eq_slash]
  have reversed : (text.map Char.toLower).reverse = text.reverse.map Char.toLower :=
    List.map_reverse.symm
  rw [leafChars, leafChars, reversed, List.takeWhile_map, plain, List.map_reverse]

/-- ASCII letter case does not matter. -/
private theorem unqualified_case {model other : String}
    (same : Text.toAsciiLowercase model = Text.toAsciiLowercase other) :
    unqualified model = unqualified other := by
  have lower : model.toList.map Char.toLower = other.toList.map Char.toLower := by
    rw [← Text.toList_toAsciiLowercase, same, Text.toList_toAsciiLowercase]
  rw [unqualified_eq, unqualified_eq]
  refine normalize_congr (String.toList_inj.mp ?_)
  rw [Text.toList_toAsciiLowercase, Text.toList_toAsciiLowercase, String.toList_ofList,
    String.toList_ofList, leafChars_toLower, lower, leafChars_toLower]

/-- Nor does the qualifier. -/
theorem unqualified_qualifier (qualifier name : String) :
    unqualified (qualifier ++ "/" ++ name) = unqualified name := by
  have leaf : leafChars (qualifier ++ "/" ++ name).toList = leafChars name.toList := by
    have slash : "/".toList.reverse = ['/'] := rfl
    rw [leafChars, String.toList_append, String.toList_append, List.reverse_append,
      List.reverse_append, slash, List.takeWhile_append]
    split
    next all =>
      have whole : name.toList.reverse.takeWhile (· != '/') = name.toList.reverse :=
        (List.takeWhile_sublist _).eq_of_length all
      rw [leafChars, whole]
      simp
    · rfl
  rw [unqualified_eq, leaf, unqualified_eq]

def IsBlank (text : String) : Prop := ∀ character ∈ text.toList, Text.isWhitespace character = true

theorem normalize_blanks {before after : String} (first : IsBlank before) (last : IsBlank after)
    (text : String) : normalize (before ++ text ++ after) = normalize text := by
  have trimmed : Text.trim (before ++ text ++ after) = Text.trim text := by
    rw [← String.toList_inj, Text.toList_trim, Text.toList_trim, String.toList_append,
      String.toList_append, Text.trimChars_append last, Text.trimChars_prepend first]
  rw [normalize, trimmed, normalize]

theorem not_slash_of_blank {character : Char} (blank : Text.isWhitespace character = true) :
    (character != '/') = true := by
  refine bne_iff_ne.mpr ?_
  rintro rfl
  revert blank
  decide

/-- Nor do surrounding blanks. -/
private theorem unqualified_blanks {before after : String} (first : IsBlank before) (last : IsBlank after)
    (model : String) : unqualified (before ++ model ++ after) = unqualified model := by
  have firstPlain : ∀ character ∈ before.toList.reverse, (character != '/') = true :=
    fun character member => not_slash_of_blank (first character (List.mem_reverse.mp member))
  have lastPlain : ∀ character ∈ after.toList.reverse, (character != '/') = true :=
    fun character member => not_slash_of_blank (last character (List.mem_reverse.mp member))
  have leaf : leafChars (before ++ model ++ after).toList = leafChars model.toList ++ after.toList ∨
      leafChars (before ++ model ++ after).toList =
        before.toList ++ leafChars model.toList ++ after.toList := by
    rw [leafChars, String.toList_append, String.toList_append, List.reverse_append,
      List.takeWhile_append_of_pos lastPlain, List.reverse_append, List.reverse_append,
      List.takeWhile_append]
    split
    next all =>
      have whole : model.toList.reverse.takeWhile (· != '/') = model.toList.reverse :=
        (List.takeWhile_sublist _).eq_of_length all
      have blanks : before.toList.reverse.takeWhile (· != '/') = before.toList.reverse := by
        have taken := @List.takeWhile_append_of_pos _ (· != '/') before.toList.reverse [] firstPlain
        simpa using taken
      right
      rw [blanks, leafChars, whole]
      simp
    · left
      rw [leafChars]
      simp
  have asText : ∀ chars : List Char, String.ofList (chars ++ after.toList) =
      String.ofList chars ++ after := by
    intro chars
    rw [← String.toList_inj, String.toList_append, String.toList_ofList, String.toList_ofList]
  rw [unqualified_eq, unqualified_eq]
  have empty : IsBlank "" := nofun
  rcases leaf with leaf | leaf
  · rw [leaf, asText]
    have padded := normalize_blanks empty last (String.ofList (leafChars model.toList))
    rwa [String.empty_append] at padded
  · have asBlanks : String.ofList (before.toList ++ leafChars model.toList) =
        before ++ String.ofList (leafChars model.toList) := by
      rw [← String.toList_inj, String.toList_append, String.toList_ofList, String.toList_ofList]
    rw [leaf, asText, asBlanks, normalize_blanks first last]

/-- Two spellings of one model: another qualifier, other ASCII letter case, or blanks. -/
inductive Respelled : String → String → Prop
  | qualifier (first second name : String) :
      Respelled (first ++ "/" ++ name) (second ++ "/" ++ name)
  | letterCase {model other : String} :
      Text.toAsciiLowercase model = Text.toAsciiLowercase other → Respelled model other
  | blanks {before after : String} (model : String) : IsBlank before → IsBlank after →
      Respelled model (before ++ model ++ after)

/-- Two spellings of one family: other ASCII letter case, or blanks. -/
inductive FamilyRespelled : String → String → Prop
  | letterCase {family other : String} :
      Text.toAsciiLowercase family = Text.toAsciiLowercase other → FamilyRespelled family other
  | blanks {before after : String} (family : String) : IsBlank before → IsBlank after →
      FamilyRespelled family (before ++ family ++ after)

theorem FamilyRespelled.normalize {family other : String}
    (respelled : FamilyRespelled family other) : normalize other = normalize family := by
  cases respelled with
  | letterCase same => exact (normalize_congr same).symm
  | blanks family first last => exact normalize_blanks first last family

theorem Respelled.unqualified {model other : String} (respelled : Respelled model other) :
    unqualified other = unqualified model := by
  cases respelled with
  | qualifier first second name => rw [unqualified_qualifier, unqualified_qualifier]
  | letterCase same => exact (unqualified_case same).symm
  | blanks model first last => exact unqualified_blanks first last model

/-! ### The index -/

theorem equivalentPricing_iff {entry other : CatalogEntry} :
    entry.equivalentPricing other = true ↔ entry.provider = other.provider ∧
      entry.token = other.token ∧ entry.image = other.image ∧
      entry.requestMicroUsd = other.requestMicroUsd := by
  simp [CatalogEntry.equivalentPricing, and_assoc]

namespace CatalogLookup

/-- The entry is one of the provider under the model name, and not in conflict. -/
def Names (conflicts : BTreeSet String) (provider leaf : String) (entry : CatalogEntry) : Bool :=
  !conflicts.contains (normalize entry.modelId) && entry.provider == some provider &&
    unqualified entry.modelId == leaf

def slot (lookup : CatalogLookup) (provider leaf : String) : Option (Option String) :=
  (lookup[provider]?).bind (·[leaf]?)

section

variable {entries : BTreeMap String CatalogEntry} {conflicts : BTreeSet String}

private theorem slot_indexEntry (lookup : CatalogLookup) (record : String × CatalogEntry)
    (provider leaf : String) :
    slot (indexEntry entries conflicts lookup record) provider leaf =
      if Names conflicts provider leaf record.2 = true then
        some (updateSlot entries (slot lookup provider leaf) record.1 record.2)
      else slot lookup provider leaf := by
  obtain ⟨entryKey, entry⟩ := record
  unfold indexEntry Names
  dsimp only
  cases isConflict : conflicts.contains (normalize entry.modelId) with
  | true => simp
  | false =>
      rw [if_neg (by decide)]
      cases isProvider : entry.provider with
      | none => simp
      | some own =>
          dsimp only
          unfold slot
          rw [BTreeMap.lookup_insert]
          by_cases same : own = provider
          · subst same
            rw [if_pos rfl, Option.bind_some, BTreeMap.lookup_insert]
            by_cases named : unqualified entry.modelId = leaf
            · subst named
              rw [if_pos rfl, if_pos (by simp)]
              cases lookup[own]? with
              | none =>
                  rw [Option.getD_none, Option.bind_none]
                  rfl
              | some family => rfl
            · rw [if_neg (Ne.symm named), if_neg (by simp [named])]
              cases lookup[own]? with
              | none =>
                  rw [Option.getD_none, Option.bind_none]
                  rfl
              | some family => rfl
          · rw [if_neg (Ne.symm same), if_neg (by simp [same])]

/-- The slot that a scan of the records leads to. -/
def scanSlot (records : List (String × CatalogEntry)) : Option (Option String) :=
  match records with
  | [] => none
  | first :: rest =>
    some (if rest.all (fun record => first.2.equivalentPricing record.2) then some first.1 else none)

private theorem updateSlot_scan {records : List (String × CatalogEntry)} {record : String × CatalogEntry}
    (known : ∀ record ∈ records, entries[record.1]? = some record.2) :
    some (updateSlot entries (scanSlot records) record.1 record.2) = scanSlot (records ++ [record]) := by
  cases records with
  | nil => rfl
  | cons first rest =>
      have isFirst := known first List.mem_cons_self
      rw [scanSlot, List.cons_append, scanSlot, updateSlot]
      rw [List.all_append]
      cases agree : rest.all (fun record => first.2.equivalentPricing record.2) with
      | true =>
          rw [if_pos rfl, Option.bind_some, isFirst, Option.any_some]
          cases equivalent : first.2.equivalentPricing record.2 <;> simp [equivalent]
      | false => simp

private theorem slot_build (provider leaf : String) :
    slot (build entries conflicts) provider leaf =
      scanSlot (entries.toList.filter fun record => Names conflicts provider leaf record.2) := by
  have folded : ∀ records : List (String × CatalogEntry),
      (∀ record ∈ records, entries[record.1]? = some record.2) →
      slot (records.foldl (indexEntry entries conflicts) ∅) provider leaf =
        scanSlot (records.filter fun record => Names conflicts provider leaf record.2) := by
    intro records
    induction records using List.reverseRecOn with
    | nil =>
        intro _
        rfl
    | append_singleton records record ih =>
        intro known
        have before : ∀ record ∈ records, entries[record.1]? = some record.2 := fun record member =>
          known record (List.mem_append_left _ member)
        rw [List.foldl_append]
        change slot (indexEntry entries conflicts _ record) provider leaf = _
        rw [slot_indexEntry, ih before, List.filter_append]
        simp only [List.filter_cons, List.filter_nil]
        split
        · exact updateSlot_scan fun record member =>
            before record (List.mem_of_mem_filter member)
        · rw [List.append_nil]
  exact folded entries.toList fun record member => BTreeMap.mem_toList_iff.mp member

end

end CatalogLookup

namespace PricingCatalog

variable (catalog : PricingCatalog)

/-- The entry is one of the catalog that prices the model of the family. -/
def Offers (model family : String) (entry : CatalogEntry) : Prop :=
  (∃ key : String, catalog.entries[key]? = some entry) ∧
    catalog.conflicts.contains (normalize entry.modelId) = false ∧
    entry.provider = some (normalize family) ∧ unqualified entry.modelId = unqualified model

theorem offers_iff {model family : String} {entry : CatalogEntry} :
    catalog.Offers model family entry ↔ ∃ key, (key, entry) ∈ catalog.entries.toList.filter
      fun record => CatalogLookup.Names catalog.conflicts (normalize family) (unqualified model)
        record.2 := by
  simp only [Offers, CatalogLookup.Names, List.mem_filter, BTreeMap.mem_toList_iff,
    Bool.and_eq_true, Bool.not_eq_true', beq_iff_eq]
  constructor
  · rintro ⟨⟨key, present⟩, clear, provider, named⟩
    exact ⟨key, present, ⟨clear, provider⟩, named⟩
  · rintro ⟨key, present, ⟨clear, provider⟩, named⟩
    exact ⟨⟨key, present⟩, clear, provider, named⟩

/-- The indexed lookup is a scan: the first entry, if all agree with it. -/
theorem canonicalEntry_eq (model family : String) :
    catalog.canonicalEntry model family =
      match catalog.entries.toList.filter fun record =>
        CatalogLookup.Names catalog.conflicts (normalize family) (unqualified model) record.2 with
      | [] => none
      | first :: rest =>
        if rest.all (fun record => first.2.equivalentPricing record.2) then some first.2
        else none := by
  have key : catalog.lookup.canonicalEntryKey model family =
      (CatalogLookup.slot (CatalogLookup.build catalog.entries catalog.conflicts)
        (normalize family) (unqualified model)).join := by
    rw [CatalogLookup.canonicalEntryKey, catalog.lookup_eq, CatalogLookup.slot]
    cases (CatalogLookup.build catalog.entries catalog.conflicts)[normalize family]? <;> rfl
  rw [canonicalEntry, key, CatalogLookup.slot_build]
  cases scanned : catalog.entries.toList.filter fun record =>
      CatalogLookup.Names catalog.conflicts (normalize family) (unqualified model) record.2 with
  | nil => rfl
  | cons first rest =>
      have member : first ∈ catalog.entries.toList := by
        refine List.mem_of_mem_filter (p := fun record => CatalogLookup.Names catalog.conflicts
          (normalize family) (unqualified model) record.2) ?_
        rw [scanned]
        exact List.mem_cons_self
      have present : catalog.entries[first.1]? = some first.2 := BTreeMap.mem_toList_iff.mp member
      rw [CatalogLookup.scanSlot, Option.join_some]
      dsimp only
      split
      · exact present
      · rfl

theorem canonicalEntry_some {model family : String} {found : CatalogEntry}
    (isFound : catalog.canonicalEntry model family = some found) :
    catalog.Offers model family found ∧
      ∀ other, catalog.Offers model family other → found.equivalentPricing other = true := by
  rw [canonicalEntry_eq] at isFound
  simp only [offers_iff]
  cases scanned : catalog.entries.toList.filter fun record =>
      CatalogLookup.Names catalog.conflicts (normalize family) (unqualified model) record.2 with
  | nil =>
      rw [scanned] at isFound
      cases isFound
  | cons first rest =>
      rw [scanned] at isFound
      dsimp only at isFound
      split at isFound
      next agree =>
        cases isFound
        refine ⟨⟨first.1, List.mem_cons_self⟩, fun other ⟨key, member⟩ => ?_⟩
        rcases List.mem_cons.mp member with same | member
        · rw [← same]
          exact equivalentPricing_iff.mpr ⟨rfl, rfl, rfl, rfl⟩
        · exact List.all_eq_true.mp agree (key, other) member
      · cases isFound

/-- There is a price exactly when all entries of the name agree. -/
private theorem canonicalEntry_isSome {model family : String} :
    (catalog.canonicalEntry model family).isSome = true ↔
      ∃ entry, catalog.Offers model family entry ∧
        ∀ other, catalog.Offers model family other → entry.equivalentPricing other = true := by
  constructor
  · intro present
    obtain ⟨found, isFound⟩ := Option.isSome_iff_exists.mp present
    exact ⟨found, catalog.canonicalEntry_some isFound⟩
  · rintro ⟨entry, offered, agree⟩
    simp only [offers_iff] at offered agree
    rw [canonicalEntry_eq]
    obtain ⟨key, member⟩ := offered
    cases scanned : catalog.entries.toList.filter fun record =>
        CatalogLookup.Names catalog.conflicts (normalize family) (unqualified model) record.2 with
    | nil =>
        rw [scanned] at member
        cases member
    | cons first rest =>
        rw [scanned] at agree
        have same := equivalentPricing_iff.mp (agree first.2 ⟨first.1, List.mem_cons_self⟩)
        have all : rest.all (fun record => first.2.equivalentPricing record.2) = true := by
          refine List.all_eq_true.mpr fun record isRecord => equivalentPricing_iff.mpr ?_
          have other := equivalentPricing_iff.mp
            (agree record.2 ⟨record.1, List.mem_cons_of_mem _ isRecord⟩)
          exact ⟨same.1.symm.trans other.1, same.2.1.symm.trans other.2.1,
            same.2.2.1.symm.trans other.2.2.1, same.2.2.2.symm.trans other.2.2.2⟩
        dsimp only
        rw [if_pos all]
        rfl

private theorem uniqueEntry_mem {name : String} {entry : CatalogEntry}
    (isEntry : catalog.uniqueEntry name = some entry) :
    ∃ key : String, catalog.entries[key]? = some entry := by
  obtain ⟨key, _, present⟩ := Option.bind_eq_some_iff.mp isEntry
  exact ⟨key, present⟩

/-- A provider that is asked for is the provider of the exact entry. -/
private theorem exactEntry_provider {model provider : String} {entry : CatalogEntry}
    (isEntry : catalog.exactEntry model (some provider) = some entry) :
    (∃ key : String, catalog.entries[key]? = some entry) ∧
      entry.provider = some (normalize provider) := by
  have own : ∀ name, (catalog.uniqueEntry name).filter (fun entry =>
      entry.provider == some (normalize provider)) = some entry →
      (∃ key : String, catalog.entries[key]? = some entry) ∧
        entry.provider = some (normalize provider) := by
    intro name isOwn
    obtain ⟨isUnique, same⟩ := Option.filter_eq_some_iff.mp isOwn
    exact ⟨catalog.uniqueEntry_mem isUnique, beq_iff_eq.mp same⟩
  unfold exactEntry at isEntry
  dsimp only [Option.map_some] at isEntry
  rcases Option.or_eq_some_iff.mp isEntry with found | ⟨_, found⟩
  · rcases Option.or_eq_some_iff.mp found with found | ⟨_, found⟩
    · exact own _ found
    · exact own _ found
  · exact own _ found

theorem canonicalEntry_respelled {model other family otherFamily : String}
    (respelled : Respelled model other) (familyRespelled : FamilyRespelled family otherFamily) :
    catalog.canonicalEntry other otherFamily = catalog.canonicalEntry model family := by
  rw [canonicalEntry, CatalogLookup.canonicalEntryKey, respelled.unqualified,
    familyRespelled.normalize, canonicalEntry, CatalogLookup.canonicalEntryKey]

/-- The entry of the official family of a model, or else of the given one. -/
private theorem officialEntry_respelled {model other : String} {official otherOfficial : Option String}
    (respelled : Respelled model other)
    (familyRespelled : Option.Rel FamilyRespelled official otherOfficial) :
    ((officialModelFamily other).or otherOfficial).bind (catalog.canonicalEntry other) =
      ((officialModelFamily model).or official).bind (catalog.canonicalEntry model) := by
  have same : officialModelFamily other = officialModelFamily model := by
    rw [officialModelFamily, respelled.unqualified, officialModelFamily]
  rw [same]
  cases officialModelFamily model with
  | some own =>
      rw [Option.some_or, Option.some_or, Option.bind_some, Option.bind_some]
      exact catalog.canonicalEntry_respelled respelled (.letterCase rfl)
  | none =>
      rw [Option.none_or, Option.none_or]
      cases familyRespelled with
      | none => rw [Option.bind_none, Option.bind_none]
      | some family =>
          rw [Option.bind_some, Option.bind_some]
          exact catalog.canonicalEntry_respelled respelled family

theorem resolveSource_canonical {model : String} {provider official : Option String}
    {providerPrice manualPrice : Option TokenPrice}
    (canonical : (catalog.resolveSource model provider official providerPrice manualPrice).source =
      .liteLlmCanonical) :
    ∃ price, (((officialModelFamily model).or official).bind
        (catalog.canonicalEntry model)).bind (·.token) = some price ∧
      catalog.resolveSource model provider official providerPrice manualPrice =
        catalog.resolved price .liteLlmCanonical := by
  unfold resolveSource at canonical ⊢
  cases providerPrice with
  | some price => cases canonical
  | none =>
      cases isExact : (catalog.exactEntry model provider).bind (·.token) with
      | some price =>
          rw [isExact] at canonical
          cases canonical
      | none =>
          rw [isExact] at canonical
          dsimp only at canonical ⊢
          cases isCanonical : (((officialModelFamily model).or official).bind
              (catalog.canonicalEntry model)).bind (·.token) with
          | some price => exact ⟨price, rfl, rfl⟩
          | none =>
              rw [isCanonical] at canonical
              cases manualPrice <;> cases canonical

/-- The indexed resolution is the scan of the official family, and keeps to its provider. -/
theorem canonical_resolution (model family : String) :
    ((catalog.canonicalEntry model family).isSome = true ↔
      ∃ entry, catalog.Offers model family entry ∧
        ∀ other, catalog.Offers model family other → entry.equivalentPricing other = true) ∧
    (∀ found, catalog.canonicalEntry model family = some found →
      catalog.Offers model family found ∧
        ∀ other, catalog.Offers model family other → found.equivalentPricing other = true) ∧
    (∀ quote, (catalog.resolveAccount model (some family)).quote = some quote →
      ∃ entry, catalog.Offers model family entry ∧ entry.token = some quote) ∧
    (catalog.resolveAccount model none).quote = none ∧
    (∀ provider official providerPrice manualPrice,
      (catalog.resolveSource model (some provider) official providerPrice manualPrice).source =
        .liteLlmExact →
      ∃ entry, (∃ key : String, catalog.entries[key]? = some entry) ∧
        entry.provider = some (normalize provider) ∧
        (catalog.resolveSource model (some provider) official providerPrice manualPrice).quote =
          entry.token) ∧
    ∀ other otherFamily, Respelled model other → FamilyRespelled family otherFamily →
      catalog.canonicalEntry other otherFamily = catalog.canonicalEntry model family ∧
      catalog.resolveAccount other (some otherFamily) =
        catalog.resolveAccount model (some family) ∧
      ∀ provider official otherOfficial providerPrice manualPrice,
        Option.Rel FamilyRespelled official otherOfficial →
        (catalog.resolveSource model provider official providerPrice manualPrice).source =
          .liteLlmCanonical →
        (catalog.resolveSource other provider otherOfficial providerPrice manualPrice).source =
          .liteLlmCanonical →
        catalog.resolveSource other provider otherOfficial providerPrice manualPrice =
          catalog.resolveSource model provider official providerPrice manualPrice := by
  refine ⟨catalog.canonicalEntry_isSome, fun found => catalog.canonicalEntry_some, ?_, rfl, ?_, ?_⟩
  · intro quote isQuote
    unfold resolveAccount at isQuote
    cases priced : (((some family).bind (catalog.canonicalEntry model)).bind (·.token)) with
    | none =>
        rw [priced] at isQuote
        cases isQuote
    | some price =>
        rw [priced] at isQuote
        cases isQuote
        obtain ⟨entry, isEntry, isToken⟩ := Option.bind_eq_some_iff.mp priced
        exact ⟨entry, (catalog.canonicalEntry_some isEntry).1, isToken⟩
  · intro provider official providerPrice manualPrice exact
    unfold resolveSource at exact ⊢
    cases providerPrice with
    | some price => cases exact
    | none =>
        dsimp only at exact ⊢
        cases isExact : (catalog.exactEntry model (some provider)).bind (·.token) with
        | some price =>
            obtain ⟨entry, isEntry, isToken⟩ := Option.bind_eq_some_iff.mp isExact
            obtain ⟨present, own⟩ := catalog.exactEntry_provider isEntry
            exact ⟨entry, present, own, isToken.symm⟩
        | none =>
            rw [isExact] at exact
            dsimp only at exact
            split at exact
            · cases exact
            · cases manualPrice <;> cases exact
  · intro other otherFamily respelled familyRespelled
    have same := catalog.canonicalEntry_respelled respelled familyRespelled
    refine ⟨same, ?_, fun provider official otherOfficial providerPrice manualPrice officials
      first second => ?_⟩
    · rw [resolveAccount, resolveAccount, Option.bind_some, same, Option.bind_some]
    · obtain ⟨price, isPrice, resolved⟩ := catalog.resolveSource_canonical first
      obtain ⟨otherPrice, isOther, otherResolved⟩ := catalog.resolveSource_canonical second
      rw [catalog.officialEntry_respelled respelled officials, isPrice] at isOther
      cases isOther
      rw [resolved, otherResolved]

/-- One request-priced model with a letter beyond ASCII. -/
def accentedCatalog : PricingCatalog :=
  .ofRecords [("é", ⟨"é", some "openai", none, none, some 1⟩)] none none false

/-- Beyond ASCII, letter case is part of the name. -/
theorem accentedCatalog_letterCase :
    (accentedCatalog.canonicalEntry "é" "openai").isSome = true ∧
      accentedCatalog.canonicalEntry "É" "openai" = none := by decide +kernel

end PricingCatalog

end ZenithRelay.Pricing
