import ZenithRelay.Foundations.BTreeMap
import ZenithRelay.Foundations.Text
import ZenithRelay.Pricing.Quote

/-!
# The price catalog

Published entries by model id, with an index of the official families, and how a price
is resolved for a source or an account. Image quotes of the index are left out.
-/

set_option autoImplicit false

namespace ZenithRelay.Pricing

def normalize (text : String) : String := Text.toAsciiLowercase (Text.trim text)

/-- The model name after the last `/`, normalized. -/
def unqualified (modelId : String) : String :=
  normalize (String.ofList (modelId.toList.reverse.takeWhile (· != '/')).reverse)

structure ImageModelPrice where
  inputMicroUsdPerImage : Option Nat
  outputMicroUsdPerImage : Option Nat
  inputMicroUsdPerImageToken : Option Nat
  deriving DecidableEq, Repr

structure CatalogEntry where
  modelId : String
  provider : Option String
  token : Option TokenPrice
  image : Option ImageModelPrice
  requestMicroUsd : Option Nat
  deriving DecidableEq, Repr

/-- Model ids are aliases; only the prices and their provider are compared. -/
def CatalogEntry.equivalentPricing (entry other : CatalogEntry) : Bool :=
  entry.provider == other.provider && entry.token == other.token && entry.image == other.image &&
    entry.requestMicroUsd == other.requestMicroUsd

/-- By provider and model name: the key of the first entry, or none once they disagree. -/
abbrev CatalogLookup := BTreeMap String (BTreeMap String (Option String))

namespace CatalogLookup

/-- The slot of a name once an entry is added to it. -/
def updateSlot (entries : BTreeMap String CatalogEntry) (slot : Option (Option String))
    (entryKey : String) (entry : CatalogEntry) : Option String :=
  match slot with
  | none => some entryKey
  | some first =>
    if (first.bind (entries[·]?)).any fun first => !first.equivalentPricing entry then none else first

def indexEntry (entries : BTreeMap String CatalogEntry) (conflicts : BTreeSet String)
    (lookup : CatalogLookup) (record : String × CatalogEntry) : CatalogLookup :=
  let (entryKey, entry) := record
  if conflicts.contains (normalize entry.modelId) = true then lookup
  else
    match entry.provider with
    | none => lookup
    | some provider =>
      let family := (lookup[provider]?).getD ∅
      let leaf := unqualified entry.modelId
      lookup.insert provider (family.insert leaf (updateSlot entries family[leaf]? entryKey entry))

def build (entries : BTreeMap String CatalogEntry) (conflicts : BTreeSet String) : CatalogLookup :=
  entries.toList.foldl (indexEntry entries conflicts) ∅

def canonicalEntryKey (lookup : CatalogLookup) (model family : String) : Option String :=
  (lookup[normalize family]?).bind fun names => (names[unqualified model]?).join

end CatalogLookup

/-- The index of a catalog is always the one of its entries. -/
structure PricingCatalog where
  revision : Option String
  fetchedAtMs : Option Nat
  stale : Bool
  entries : BTreeMap String CatalogEntry
  conflicts : BTreeSet String
  unique : BTreeMap String String
  lookup : CatalogLookup
  lookup_eq : lookup = CatalogLookup.build entries conflicts

/-- The records that are read so far. -/
structure ReadRecords where
  catalogEntries : List (String × CatalogEntry)
  unique : BTreeMap String Nat
  conflicts : BTreeSet String

/-- One parsed record in `from_litellm_payload`. -/
def ReadRecords.add (read : ReadRecords) (record : String × CatalogEntry) : ReadRecords :=
  let key := normalize record.1
  let catalogEntries := read.catalogEntries ++ [record]
  match read.unique[key]? with
  | some index =>
    if (read.catalogEntries[index]?).any fun existing => !existing.2.equivalentPricing record.2 then
      ⟨catalogEntries, read.unique.erase key, read.conflicts.insert key⟩
    else { read with catalogEntries }
  | none =>
    if read.conflicts.contains key = true then { read with catalogEntries }
    else { read with catalogEntries, unique := read.unique.insert key read.catalogEntries.length }

/-- The catalog of the parsed records, in the order of the document. -/
def PricingCatalog.ofRecords (records : List (String × CatalogEntry)) (revision : Option String)
    (fetchedAtMs : Option Nat) (stale : Bool) : PricingCatalog :=
  let read := records.foldl ReadRecords.add ⟨[], ∅, ∅⟩
  let entries := read.catalogEntries.foldl (fun entries record => entries.insert record.1 record.2)
    (∅ : BTreeMap String CatalogEntry)
  { revision, fetchedAtMs, stale, entries
    conflicts := read.conflicts
    unique := read.unique.filterMap fun _ index => (read.catalogEntries[index]?).map (·.1)
    lookup := CatalogLookup.build entries read.conflicts
    lookup_eq := rfl }

inductive PriceSource
  | provider
  | liteLlmExact
  | liteLlmCanonical
  | manual
  | unpriced
  deriving DecidableEq, Repr

structure ResolvedPrice where
  quote : Option TokenPrice
  source : PriceSource
  catalogRevision : Option String
  catalogFetchedAtMs : Option Nat
  stale : Bool
  deriving DecidableEq, Repr

/-- The official family of a model id that is known by its prefix. -/
def officialModelFamily (model : String) : Option String :=
  let modelId := unqualified model
  if Text.startsWith modelId "gpt-" || Text.startsWith modelId "chatgpt-" ||
      Text.startsWith modelId "codex-" then some "openai"
  else if Text.startsWith modelId "claude-" then some "anthropic"
  else if Text.startsWith modelId "gemini-" then some "gemini"
  else if Text.startsWith modelId "grok-" then some "xai"
  else none

namespace PricingCatalog

variable (catalog : PricingCatalog)

def uniqueEntry (normalized : String) : Option CatalogEntry :=
  (catalog.unique[normalized]?).bind (catalog.entries[·]?)

/-- A record of exactly this model, of the provider if one is asked for. -/
def exactEntry (model : String) (provider : Option String) : Option CatalogEntry :=
  let normalizedModelId := normalize model
  match provider.map normalize with
  | some provider =>
    let ofProvider (name : String) : Option CatalogEntry :=
      (catalog.uniqueEntry name).filter fun entry => entry.provider == some provider
    ((ofProvider (provider ++ "/" ++ unqualified normalizedModelId)).or
      (ofProvider normalizedModelId)).or (ofProvider (unqualified normalizedModelId))
  | none => catalog.uniqueEntry normalizedModelId

def canonicalEntry (model family : String) : Option CatalogEntry :=
  (catalog.lookup.canonicalEntryKey model family).bind (catalog.entries[·]?)

def unpriced : ResolvedPrice :=
  ⟨none, .unpriced, catalog.revision, catalog.fetchedAtMs, catalog.stale⟩

def resolved (quote : TokenPrice) (source : PriceSource) : ResolvedPrice :=
  ⟨some quote, source, catalog.revision, catalog.fetchedAtMs, catalog.stale⟩

def resolveSource (model : String) (pricingProvider officialProviderFamily : Option String)
    (providerPrice manualPrice : Option TokenPrice) : ResolvedPrice :=
  match providerPrice with
  | some price => catalog.resolved price .provider
  | none =>
    match (catalog.exactEntry model pricingProvider).bind (·.token) with
    | some price => catalog.resolved price .liteLlmExact
    | none =>
      match (((officialModelFamily model).or officialProviderFamily).bind
        (catalog.canonicalEntry model)).bind (·.token) with
      | some price => catalog.resolved price .liteLlmCanonical
      | none => manualPrice.elim catalog.unpriced (catalog.resolved · .manual)

/-- Account prices are those of the official family only. -/
def resolveAccount (model : String) (providerFamily : Option String) : ResolvedPrice :=
  ((providerFamily.bind (catalog.canonicalEntry model)).bind (·.token)).elim catalog.unpriced
    (catalog.resolved · .liteLlmCanonical)

end PricingCatalog

end ZenithRelay.Pricing
