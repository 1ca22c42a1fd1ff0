import ZenithRelay.LocalPool.StateReload
import ZenithRelay.LocalPool.Store

/-!
# What an operation of the store can do

An operation that fails leaves the store. One that succeeds either leaves it too or
commits one transaction, and then each part is the one that the transaction wrote.
-/

set_option autoImplicit false

namespace ZenithRelay.LocalPool

open Fallible

variable {Details : Type}

namespace LocalPoolStore

/-- The store after a transaction, part by part. -/
structure Commits (codec : StateCodec Details) (store next : LocalPoolStore Details)
    (entries : List StateEntry) (items : List StateItem) : Prop where
  database : store.database.replaced entries items = .ok next.database
  gateway : Written codec codec.gateway stateGateway entries store.gateway next.gateway
  sources : WrittenList codec codec.source (·.id) stateSources entries items store.sources
    next.sources
  accounts : WrittenList codec codec.account (·.account.id) stateAccounts entries items
    store.accounts next.accounts
  accountTrash : Written codec codec.trashed.list stateAccountTrash entries store.accountTrash
    next.accountTrash
  keys : WrittenList codec codec.key (·.id) stateKeys entries items store.keys next.keys
  automations : Written codec codec.automations stateAutomations entries store.automations
    next.automations
  refreshRevisions : Written codec codec.refreshRevisions stateRefreshRevisions entries
    store.refreshRevisions next.refreshRevisions
  sourceRefreshRevisions : Written codec codec.sourceRevisions stateSourceRevisions entries
    store.sourceRefreshRevisions next.sourceRefreshRevisions

/-- The database holds every part of the store. -/
structure Durable (codec : StateCodec Details) (store : LocalPoolStore Details) : Prop where
  gateway : SavedAs codec codec.gateway store.database stateGateway store.gateway
  sources : ∃ base, SavedInventory codec codec.source (·.id) store.database stateSources base
    store.sources
  accounts : ∃ base, SavedInventory codec codec.account (·.account.id) store.database
    stateAccounts base store.accounts
  accountTrash : SavedAs codec codec.trashed.list store.database stateAccountTrash
    store.accountTrash
  keys : ∃ base, SavedInventory codec codec.key (·.id) store.database stateKeys base store.keys
  automations : SavedAs codec codec.automations store.database stateAutomations
    store.automations
  refreshRevisions : SavedAs codec codec.refreshRevisions store.database stateRefreshRevisions
    store.refreshRevisions
  sourceRefreshRevisions : SavedAs codec codec.sourceRevisions store.database
    stateSourceRevisions store.sourceRefreshRevisions
  inventory : ∀ key (position : Nat) (text : String),
    store.database.items[(key, position)]? = some text → inventoryKey key = true

variable {codec : StateCodec Details}
  {store next : LocalPoolStore Details} {entries : List StateEntry} {items : List StateItem}

/-- A transaction keeps the database and the memory together. -/
theorem Durable.commits (lawful : codec.Lawful) (durable : Durable codec store)
    (commits : Commits codec store next entries items)
    (gateway : ∀ json, codec.gateway.encode next.gateway = some json →
      codec.gateway.decode json = some next.gateway) :
    Durable codec next where
  gateway := durable.gateway.step lawful commits.database gateway commits.gateway
  sources := SavedInventory.step lawful commits.database lawful.source durable.sources
    commits.sources
  accounts := SavedInventory.step lawful commits.database lawful.account durable.accounts
    commits.accounts
  accountTrash := durable.accountTrash.step lawful commits.database
    (list_decode lawful.trashed _ ·) commits.accountTrash
  keys := SavedInventory.step lawful commits.database lawful.key durable.keys commits.keys
  automations := durable.automations.step lawful commits.database (lawful.automations _ ·)
    commits.automations
  refreshRevisions := durable.refreshRevisions.step lawful commits.database
    (lawful.refreshRevisions _ ·) commits.refreshRevisions
  sourceRefreshRevisions := durable.sourceRefreshRevisions.step lawful commits.database
    (lawful.sourceRevisions _ ·) commits.sourceRefreshRevisions
  inventory := replaced_inventoryKeys commits.database durable.inventory

/-- What a reload of the store's database has to give. -/
def persisted (store : LocalPoolStore Details) : PersistedState Details where
  gateway := store.gateway
  sources := store.sources
  accounts := store.accounts
  accountTrash := store.accountTrash
  keys := store.keys
  automations := store.automations
  refreshRevisions := some store.refreshRevisions
  sourceRefreshRevisions := some store.sourceRefreshRevisions

private theorem Durable.rowFits (durable : Durable codec store) (row : (String × Nat) × String)
    (member : row ∈ store.database.items.toList) : RowFits codec store.database.appState row := by
  obtain ⟨⟨key, position⟩, text⟩ := row
  have found := BTreeMap.mem_toList_iff.mp member
  have inventory := durable.inventory key position text found
  simp only [inventoryKey, Bool.or_eq_true, decide_eq_true_eq] at inventory
  rcases inventory with (rfl | rfl) | rfl
  · exact durable.sources.choose_spec.fits found
  · exact durable.accounts.choose_spec.fits found
  · exact durable.keys.choose_spec.fits found

/-- A reload of a durable store gives the store. -/
theorem Durable.reloads (lawful : codec.Lawful) (durable : Durable codec store) :
    loadState codec store.database = .ok store.persisted := by
  obtain ⟨final, ran, plain, lists⟩ := stateJsonEntries_ok lawful
    (by
      obtain ⟨base, saved⟩ := durable.sources
      obtain ⟨text, held, -⟩ := saved.text
      exact ⟨stateSources, text, rfl, held⟩)
    durable.rowFits
  have rowless {key : String} (other : inventoryKey key = false) (position : Nat) :
      store.database.items[(key, position)]? = none := by
    cases found : store.database.items[(key, position)]? with
    | none => rfl
    | some text =>
      have inventory := durable.inventory key position text found
      rw [other] at inventory
      cases inventory
  have whole {Value : Type} {encoding : Encoding Value} {key : String} {value : Value}
      (saved : SavedAs codec encoding store.database key value)
      (other : inventoryKey key = false) :
      loadOptionalStateFromEntries codec encoding final key = .ok (some value) := by
    obtain ⟨text, held, read⟩ := saved
    rw [loadOptionalStateFromEntries, plain key (rowless other), held]
    simp only [read]
  have inventory {Value : Type} {encoding : Encoding Value} {idOf : Value → String} {key : String}
      {values : List Value}
      (saved : ∃ base, SavedInventory codec encoding idOf store.database key base values) :
      loadOptionalStateFromEntries codec encoding.list final key = .ok (some values) := by
    obtain ⟨base, saved⟩ := saved
    obtain ⟨text, held, parsed⟩ := lists key base saved.text
    have read : codec.deserialize encoding.list text = some values := by
      rw [StateCodec.deserialize, parsed]
      exact saved.decodes
    rw [loadOptionalStateFromEntries, held]
    simp only [read]
  have required {Value : Type} {encoding : Encoding Value} {key : String} {value : Value}
      (loaded : loadOptionalStateFromEntries codec encoding final key = .ok (some value)) :
      loadStateFromEntries codec encoding final key = .ok value := by
    simp only [loadStateFromEntries, loaded, bind, Except.bind]
  simp only [loadState, ran, bind, Except.bind, required (whole durable.gateway rfl),
    required (inventory durable.sources), required (inventory durable.accounts),
    whole durable.accountTrash rfl, required (inventory durable.keys),
    required (whole durable.automations rfl), whole durable.sourceRefreshRevisions rfl,
    whole durable.refreshRevisions rfl]
  rfl

/-! ### Entries -/

theorem bind_ok {Value Result : Type} {first : Except LocalPoolError Value}
    {next : Value → Except LocalPoolError Result} {result : Result}
    (ok : (first >>= next) = .ok result) : ∃ value, first = .ok value ∧ next value = .ok result := by
  cases first with
  | error error => cases ok
  | ok value => exact ⟨value, rfl, ok⟩

variable {Value : Type} {encoding : Encoding Value} {changed : Bool}
  {key : String} {value : Value} {list : List StateEntry}

theorem entryIf_cases (ok : entryIf codec changed key encoding value = .ok list) :
    changed = false ∧ list = [] ∨
      changed = true ∧ ∃ text, list = [(key, text)] ∧
        codec.serializeState encoding value = .ok text := by
  cases changed with
  | false =>
    cases ok
    exact Or.inl ⟨rfl, rfl⟩
  | true =>
    simp only [entryIf, if_true, bind, Except.bind] at ok
    cases serialized : codec.serializeState encoding value with
    | error error =>
      rw [serialized] at ok
      cases ok
    | ok text =>
      rw [serialized] at ok
      cases ok
      exact Or.inr ⟨rfl, text, rfl, rfl⟩

theorem entryIf_other (ok : entryIf codec changed key encoding value = .ok list) {other : String}
    (different : other ≠ key) : entryText list other = none := by
  rcases entryIf_cases ok with ⟨-, rfl⟩ | ⟨-, text, rfl, -⟩
  · rfl
  · simp [entryText_cons, Ne.symm different]

/-- The part of an entry is written where it changes. -/
theorem entryIf_written (ok : entryIf codec changed key encoding value = .ok list) {old : Value}
    (same : changed = false → value = old)
    (text : entryText entries key = entryText list key) :
    Written codec encoding key entries old value := by
  rcases entryIf_cases ok with ⟨unchanged, rfl⟩ | ⟨-, written, rfl, serialized⟩
  · exact .kept text (same unchanged)
  · exact .whole written (by rw [text]; simp [entryText_cons]) serialized

/-- A transaction of the store. -/
theorem replaceState_atomically (entries : List StateEntry) (deleted : List String)
    (items : List StateItem) :
    Atomically (replaceStateJsonWithAccountPurge entries deleted items : Operation Details Unit)
      store fun _ next => ∃ database, store.database.replaced entries items = .ok database ∧
        next = { store with database } := by
  rw [replaceStateJsonWithAccountPurge]
  split
  next nothing =>
    simp only [Bool.and_eq_true, List.isEmpty_iff] at nothing
    obtain ⟨⟨rfl, rfl⟩, rfl⟩ := nothing
    exact atomically_pure ⟨store.database, rfl, rfl⟩
  next =>
    exact .ofExcept fun _ _ => .inspect (.ofExcept fun database written =>
      atomically_operate ⟨database, written, rfl⟩)

theorem withGateway_refl (revisions : RefreshRevisions) (gateway : GatewaySettings Details) :
    revisions.withGateway gateway gateway = .ok revisions := by
  simp [RefreshRevisions.withGateway, RefreshRevisions.sameFencedSettings]

/-- A transaction that changes nothing. -/
theorem Commits.refl (store : LocalPoolStore Details) : Commits codec store store [] [] where
  database := rfl
  gateway := .kept rfl rfl
  sources := .list (.kept rfl rfl) fun _ => rfl
  accounts := .list (.kept rfl rfl) fun _ => rfl
  accountTrash := .kept rfl rfl
  keys := .list (.kept rfl rfl) fun _ => rfl
  automations := .kept rfl rfl
  refreshRevisions := .kept rfl rfl
  sourceRefreshRevisions := .kept rfl rfl

theorem notifyIf_completes (changed : Bool)
    {done : Unit → LocalPoolStore Details → Prop}
    (holds : ∀ refreshChanged, done () { store with refreshChanged }) :
    Completes (notifyIf changed) store done := by
  rw [notifyIf]
  split
  next => exact completes_modify (holds _)
  next => exact completes_pure (holds store.refreshChanged)

private theorem retainAccountRoutes_fenced (revisions : RefreshRevisions)
    (gateway : GatewaySettings Details) (accounts : List (LocalAccountRecord Details)) :
    revisions.withGateway gateway (gateway.retainAccountRoutes accounts) = .ok revisions := by
  have same : RefreshRevisions.sameFencedSettings gateway (gateway.retainAccountRoutes accounts) =
      true := by
    rw [GatewaySettings.retainAccountRoutes]
    split
    next => simp [RefreshRevisions.sameFencedSettings]
    next => simp [RefreshRevisions.sameFencedSettings]
  rw [RefreshRevisions.withGateway, if_pos same]

/-- The text of an explicit first entry, behind an entry of another part. -/
theorem entryText_first {first second text : String} {rest : List StateEntry}
    (other : entryText rest first = none) :
    entryText ((first, text) :: rest) first = some text ∧
      (first ≠ second → entryText ((first, text) :: rest) second = entryText rest second) := by
  constructor
  · simp [entryText_cons, other]
  · intro different
    simp [entryText_cons, different]

/-! ### Items -/

theorem enumerated_some {Value : Type} {same : Value → Bool} {values : List Value} {index : Nat}
    {value : Value} (found : enumerated same values = some (index, value)) :
    values[index]? = some value ∧ same value = true := by
  obtain ⟨⟨_, _⟩, first, swapped⟩ := Option.map_eq_some_iff.mp found
  cases swapped
  have holds := List.find?_some first
  exact ⟨List.mk_mem_zipIdx_iff_getElem?.mp (List.mem_of_find?_eq_some first), holds⟩

/-- One record of an inventory is written as an item, or none. -/
theorem itemOf_written {Value : Type} {encoding : Encoding Value} {idOf : Value → String}
    {key : String} {touched : Option (Nat × Value)} {list : List StateItem}
    (ok : itemOf codec key encoding touched = .ok list) {old : List Value}
    (found : ∀ index value, touched = some (index, value) → ∃ previous,
      old[index]? = some previous ∧ idOf previous = idOf value)
    (absent : entryText entries key = none)
    (text : ∀ position, itemText items key position = itemText list key position) :
    WrittenList codec encoding idOf key entries items old (setTouched touched old) := by
  cases touched with
  | none =>
    cases ok
    exact .list (.kept absent rfl) text
  | some change =>
    obtain ⟨index, value⟩ := change
    obtain ⟨json, serialized, ok⟩ := bind_ok ok
    cases ok
    obtain ⟨previous, listed, same⟩ := found index value rfl
    refine .item index previous value json absent listed same serialized (fun position => ?_) rfl
    rw [text, itemText_cons]
    simp [eq_comm]

theorem itemOf_other {Value : Type} {encoding : Encoding Value} {key other : String}
    {touched : Option (Nat × Value)} {list : List StateItem}
    (ok : itemOf codec key encoding touched = .ok list) (different : key ≠ other)
    (position : Nat) : itemText list other position = none := by
  cases touched with
  | none =>
    cases ok
    rfl
  | some change =>
    obtain ⟨text, -, ok⟩ := bind_ok ok
    cases ok
    simp [itemText_cons, different]

theorem touchedKey_some (services : StoreServices Details) {keyId time : String} {index : Nat}
    {key : LocalGatewayKeyRecord Details}
    (touched : touchedKey services store keyId time = some (index, key)) :
    ∃ previous, store.keys[index]? = some previous ∧ previous.id = key.id := by
  obtain ⟨⟨_, previous⟩, found, same⟩ := Option.map_eq_some_iff.mp touched
  cases same
  exact ⟨previous, (enumerated_some (Option.eq_some_of_filter_eq_some found)).1, rfl⟩

theorem touchedSource_some (services : StoreServices Details) {sourceId time : String} {index : Nat}
    {source : ProviderSourceRecord Details}
    (touched : touchedSource services store sourceId time = some (index, source)) :
    ∃ previous, store.sources[index]? = some previous ∧ previous.id = source.id := by
  obtain ⟨⟨_, previous⟩, found, same⟩ := Option.map_eq_some_iff.mp touched
  cases same
  exact ⟨previous, (enumerated_some (Option.eq_some_of_filter_eq_some found)).1, rfl⟩

/-! ### Gateway settings -/

/-- The saved settings are these settings. -/
def ReadsBack (services : StoreServices Details) (gateway : GatewaySettings Details) : Prop :=
  ∀ json, services.codec.gateway.encode gateway = some json →
    services.codec.gateway.decode json = some gateway

/-- Normalized settings are read back, whatever their routes are. -/
structure LawfulServices (services : StoreServices Details) : Prop where
  codec : services.codec.Lawful
  normalized : ∀ gateway settled, services.normalizeGateway gateway = .ok settled →
    ReadsBack services settled
  routes : ∀ gateway accountRoutes poolRouting, ReadsBack services gateway →
    ReadsBack services { gateway with accountRoutes, poolRouting }

private theorem replacedGateway_readsBack {services : StoreServices Details}
    (lawful : LawfulServices services) {accounts : List (LocalAccountRecord Details)}
    {gateway : Option (GatewaySettings Details)} (own : ReadsBack services store.gateway)
    (settled : ∀ given, gateway = some given → ReadsBack services given) :
    ReadsBack services (store.replacedGateway accounts gateway) := by
  have chosen : ReadsBack services (gateway.getD store.gateway) := by
    cases gateway with
    | none => exact own
    | some given => exact settled given rfl
  rw [replacedGateway]
  split
  next =>
    rw [GatewaySettings.retainAccountRoutes]
    split
    next => exact chosen
    next => exact lawful.routes _ _ _ chosen
  next => exact chosen

/-! ### The effect of a successful operation -/

variable [DecidableEq Details]

/-- The revisions of the accounts follow the records, or no record changed its scope. -/
inductive AccountsRevised (revisions : RefreshRevisions)
    (previous accounts : List (LocalAccountRecord Details)) (revised : RefreshRevisions) : Prop where
  | observed : List.Forall₂ (fun left right => left.account.id = right.account.id ∧
      sameAccountScope left right = true) previous accounts → revised = revisions →
      AccountsRevised revisions previous accounts revised
  | replaced : revisions.withAccounts previous accounts = .ok revised →
      AccountsRevised revisions previous accounts revised

def RecordsRevised (store next : LocalPoolStore Details) : Prop :=
  ∃ revised, AccountsRevised store.refreshRevisions store.accounts next.accounts revised ∧
    revised.withGateway store.gateway next.gateway = .ok next.refreshRevisions

def Inventory (store : LocalPoolStore Details) : Prop :=
  validateInventory store.accounts store.accountTrash = .ok ()

structure Changed (services : StoreServices Details) (store next : LocalPoolStore Details) :
    Prop where
  commits : ∃ entries items, Commits services.codec store next entries items
  inventory : Inventory store → Inventory next
  gateway : LawfulServices services → ReadsBack services store.gateway →
    ReadsBack services next.gateway

structure ReplacedAll (services : StoreServices Details) (store next : LocalPoolStore Details)
    (accounts : List (LocalAccountRecord Details)) : Prop
    extends Changed services store next where
  revised : RecordsRevised store next
  accounts_eq : next.accounts = accounts
  accountTrash_eq : next.accountTrash = store.accountTrash

theorem sameAccountScope_refl (account : LocalAccountRecord Details) :
    sameAccountScope account account = true := by
  simp [sameAccountScope]

theorem AccountsRevised.refl (revisions : RefreshRevisions)
    (accounts : List (LocalAccountRecord Details)) :
    AccountsRevised revisions accounts accounts revisions :=
  .observed (List.forall₂_same.mpr fun account _ => ⟨rfl, sameAccountScope_refl account⟩) rfl

/-- An entry for each part that differs makes the transaction of the new store. -/
private theorem Commits.of_changed (ok : changedEntries codec store next = .ok entries)
    (trash : next.accountTrash = store.accountTrash) {database : StateDatabase}
    (written : store.database.replaced entries [] = .ok database) (refreshChanged : Nat) :
    Commits codec store { next with database, refreshChanged } entries [] := by
  rw [changedEntries] at ok
  obtain ⟨gateway, gatewayOk, ok⟩ := bind_ok ok
  obtain ⟨sourceRevisions, sourceRevisionsOk, ok⟩ := bind_ok ok
  obtain ⟨revisions, revisionsOk, ok⟩ := bind_ok ok
  obtain ⟨sources, sourcesOk, ok⟩ := bind_ok ok
  obtain ⟨accounts, accountsOk, ok⟩ := bind_ok ok
  obtain ⟨keys, keysOk, ok⟩ := bind_ok ok
  obtain ⟨automations, automationsOk, ok⟩ := bind_ok ok
  cases ok
  have equal {Part : Type} [DecidableEq Part] {old new : Part}
      (unchanged : decide (new ≠ old) = false) : new = old := by simpa using unchanged
  refine ⟨written, entryIf_written gatewayOk equal ?_,
    .list (entryIf_written sourcesOk equal ?_) fun _ => rfl,
    .list (entryIf_written accountsOk equal ?_) fun _ => rfl, .kept ?_ trash,
    .list (entryIf_written keysOk equal ?_) fun _ => rfl, entryIf_written automationsOk equal ?_,
    entryIf_written revisionsOk equal ?_, entryIf_written sourceRevisionsOk equal ?_⟩
  -- the entries of the other parts have other keys
  all_goals
    simp (disch := decide) only [entryText_append, entryIf_other gatewayOk,
      entryIf_other sourceRevisionsOk, entryIf_other revisionsOk, entryIf_other sourcesOk,
      entryIf_other accountsOk, entryIf_other keysOk, entryIf_other automationsOk,
      Option.none_or, Option.or_none]

private theorem checkReplacement_ok {services : StoreServices Details}
    {accounts : List (LocalAccountRecord Details)} {gateway : GatewaySettings Details}
    (ok : store.checkReplacement services accounts gateway = .ok ()) :
    validateInventory accounts store.accountTrash = .ok () := by
  rw [checkReplacement] at ok
  split at ok
  next =>
    obtain ⟨_, -, ok⟩ := bind_ok ok
    obtain ⟨_, -, ok⟩ := bind_ok ok
    exact (bind_ok ok).choose_spec.1
  next =>
    obtain ⟨_, -, ok⟩ := bind_ok ok
    exact (bind_ok ok).choose_spec.1

private theorem replacedRevisions_ok {accounts : List (LocalAccountRecord Details)}
    {gateway : GatewaySettings Details} {revisions : RefreshRevisions}
    (ok : store.replacedRevisions accounts gateway = .ok revisions) :
    ∃ revised, AccountsRevised store.refreshRevisions store.accounts accounts revised ∧
      revised.withGateway store.gateway gateway = .ok revisions := by
  have configured {revised : RefreshRevisions}
      (ok : (if gateway ≠ store.gateway then revised.withGateway store.gateway gateway
        else .ok revised) = .ok revisions) :
      revised.withGateway store.gateway gateway = .ok revisions := by
    split at ok
    next => exact ok
    next same =>
      cases ok
      rw [not_not.mp same]
      exact withGateway_refl _ _
  rw [replacedRevisions] at ok
  split at ok
  next =>
    obtain ⟨revised, accountsOk, gatewayOk⟩ := bind_ok ok
    exact ⟨revised, .replaced accountsOk, configured gatewayOk⟩
  next same =>
    rw [not_not.mp same]
    exact ⟨store.refreshRevisions, .refl _ _, configured ok⟩

theorem replaceAllRecordsInner_atomically (services : StoreServices Details)
    (sources : List (ProviderSourceRecord Details)) (accounts : List (LocalAccountRecord Details))
    (keys : List (LocalGatewayKeyRecord Details)) (automations : AutomationRecords Details)
    (deleted : List String) (gateway : Option (GatewaySettings Details))
    (settled : ∀ given, gateway = some given → LawfulServices services →
      ReadsBack services store.gateway → ReadsBack services given) :
    Atomically (replaceAllRecordsInner services sources accounts keys automations deleted gateway)
      store fun _ next => ReplacedAll services store next accounts := by
  rw [replaceAllRecordsInner]
  refine .inspect (.ofExcept fun _ checked => ?_)
  have inventory := checkReplacement_ok checked
  have normal (lawful : LawfulServices services) (own : ReadsBack services store.gateway) :=
    @replacedGateway_readsBack Details store services lawful accounts _ own fun given is =>
      settled given is lawful own
  simp only [id] at normal ⊢
  split
  next same =>
    obtain ⟨-, rfl, -⟩ := same
    exact atomically_pure ⟨⟨⟨[], [], .refl store⟩, id, fun _ => id⟩,
      ⟨_, .refl _ _, withGateway_refl _ _⟩, rfl, rfl⟩
  next =>
    refine .ofExcept fun revisions revised => .ofExcept fun sourceRevisions _ =>
      .ofExcept fun entries changed => (replaceState_atomically entries deleted []).bind ?_
    rintro ⟨⟩ _ ⟨database, written, rfl⟩
    refine .modify (notifyIf_completes _ fun refreshChanged => ?_)
    exact ⟨⟨⟨entries, [], .of_changed changed rfl written refreshChanged⟩, fun _ => inventory,
      normal⟩, replacedRevisions_ok revised, rfl, rfl⟩

/-! ### Operations on whole lists -/

/-- A successful operation on records; the trash stays. -/
structure Recorded (services : StoreServices Details) (store next : LocalPoolStore Details) : Prop
    extends Changed services store next where
  revised : RecordsRevised store next
  accountTrash_eq : next.accountTrash = store.accountTrash

theorem ReplacedAll.recorded {services : StoreServices Details}
    {accounts : List (LocalAccountRecord Details)}
    (replaced : ReplacedAll services store next accounts) : Recorded services store next :=
  ⟨replaced.toChanged, replaced.revised, replaced.accountTrash_eq⟩

theorem Recorded.refl (services : StoreServices Details) (store : LocalPoolStore Details) :
    Recorded services store store :=
  ⟨⟨⟨[], [], .refl store⟩, id, fun _ => id⟩, ⟨_, .refl _ _, withGateway_refl _ _⟩, rfl⟩

variable (services : StoreServices Details)

theorem replaceAllRecords_atomically (sources : List (ProviderSourceRecord Details))
    (accounts : List (LocalAccountRecord Details)) (keys : List (LocalGatewayKeyRecord Details))
    (automations : AutomationRecords Details) :
    Atomically (replaceAllRecords services sources accounts keys automations) store
      fun _ next => ReplacedAll services store next accounts :=
  replaceAllRecordsInner_atomically services sources accounts keys automations [] none nofun

theorem replaceRecords_atomically (sources : List (ProviderSourceRecord Details))
    (keys : List (LocalGatewayKeyRecord Details)) :
    Atomically (replaceRecords services sources keys) store
      fun _ next => Recorded services store next :=
  .inspect ((replaceAllRecords_atomically services _ _ _ _).mono fun _ _ => ReplacedAll.recorded)

theorem replaceAccountsAndKeys_atomically (accounts : List (LocalAccountRecord Details))
    (keys : List (LocalGatewayKeyRecord Details)) :
    Atomically (replaceAccountsAndKeys services accounts keys) store
      fun _ next => Recorded services store next :=
  .inspect ((replaceAllRecords_atomically services _ _ _ _).mono fun _ _ => ReplacedAll.recorded)

theorem upsertAccount_atomically (account : LocalAccountRecord Details) :
    Atomically (upsertAccount services account) store
      fun _ next => Recorded services store next :=
  .inspect (replaceAccountsAndKeys_atomically services _ _)

theorem restoreAccountIfCurrent_atomically (previous attempted : LocalAccountRecord Details) :
    Atomically (restoreAccountIfCurrent services previous attempted) store
      fun _ next => Recorded services store next := by
  rw [restoreAccountIfCurrent]
  refine .inspect ?_
  split
  next => exact atomically_pure (.refl services store)
  next stored _ =>
    split
    next => exact atomically_pure (.refl services store)
    next =>
      exact (upsertAccount_atomically services _).bind fun _ _ recorded =>
        completes_pure recorded

theorem blockAccountsForTeam_atomically (accountIds : List String) :
    Atomically (blockAccountsForTeam services accountIds) store
      fun _ next => Recorded services store next := by
  rw [blockAccountsForTeam]
  refine .inspect ?_
  simp only
  split
  next =>
    exact (replaceAllRecords_atomically services _ _ _ _).bind fun _ _ replaced =>
      completes_pure replaced.recorded
  next => exact atomically_pure (.refl services store)

theorem updateClientAuthObservation_atomically (accountId : String) (status : Option String)
    (loginRedirectAtMs : Option Nat) :
    Atomically (updateClientAuthObservation services accountId status loginRedirectAtMs) store
      fun _ next => Recorded services store next := by
  rw [updateClientAuthObservation]
  refine .inspect ?_
  split
  next => exact atomically_pure (.refl services store)
  next stored _ =>
    split
    next => exact atomically_pure (.refl services store)
    next =>
      exact (upsertAccount_atomically services _).bind fun _ _ recorded =>
        completes_pure recorded

theorem recoverAccountLocally_atomically (accountId : String) (confirmed : Bool) :
    Atomically (recoverAccountLocally services accountId confirmed) store
      fun _ next => Recorded services store next := by
  rw [recoverAccountLocally]
  refine .ofExcept fun _ _ => .inspect ?_
  split
  next => exact atomically_throw _
  next account _ =>
    exact .ofExcept fun _ _ => replaceAccountsAndKeys_atomically services _ _

theorem applyAccountRefresh_atomically {Result : Type} (expected : AccountRefreshFence)
    (apply : LocalAccountRecord Details →
      Except LocalPoolError (LocalAccountRecord Details × Result)) :
    Atomically (applyAccountRefresh services expected apply) store
      fun _ next => Recorded services store next := by
  rw [applyAccountRefresh]
  refine .inspect (.ofExcept fun _ _ => ?_)
  split
  next => exact atomically_throw _
  next previous _ =>
    exact .ofExcept fun _ _ => .ofExcept fun _ _ =>
      (upsertAccount_atomically services _).bind fun _ _ recorded => completes_pure recorded

/-! ### Other operations -/

/-- A successful operation on the inventory of accounts. -/
structure Inventoried (services : StoreServices Details) (store next : LocalPoolStore Details)
    (accounts : List (LocalAccountRecord Details)) (trash : List (TrashedLocalAccount Details)) :
    Prop extends Changed services store next where
  revised : RecordsRevised store next
  accounts_eq : next.accounts = accounts
  accountTrash_eq : next.accountTrash = trash

theorem replaceAccountInventory_atomically (accounts : List (LocalAccountRecord Details))
    (trash : List (TrashedLocalAccount Details)) (automations : AutomationRecords Details)
    (deleted : List String) :
    Atomically (replaceAccountInventory services accounts trash automations deleted) store
      fun _ next => Inventoried services store next accounts trash := by
  rw [replaceAccountInventory]
  refine .ofExcept fun _ inventory => .ofExcept fun _ _ => .inspect (.ofExcept fun revisions revised =>
    .ofExcept fun _ gatewayOk => .ofExcept fun _ accountsOk => .ofExcept fun _ trashOk =>
    .ofExcept fun _ automationsOk => .ofExcept fun _ revisionsOk =>
      (replaceState_atomically _ deleted []).bind ?_)
  rintro ⟨⟩ _ ⟨database, written, rfl⟩
  refine .modify (completes_modify ⟨⟨⟨_, [], written, .whole _ rfl gatewayOk,
    .list (.kept rfl rfl) fun _ => rfl, .list (.whole _ rfl accountsOk) fun _ => rfl,
    .whole _ rfl trashOk, .list (.kept rfl rfl) fun _ => rfl, .whole _ rfl automationsOk,
    .whole _ rfl revisionsOk, .kept rfl rfl⟩, fun _ => inventory, fun lawful own => ?_⟩,
    ⟨revisions, .replaced revised, retainAccountRoutes_fenced _ _ _⟩, rfl, rfl⟩)
  simp only [id, GatewaySettings.retainAccountRoutes]
  split
  next => exact own
  next => exact lawful.routes _ _ _ own

theorem trashAccounts_atomically (accountIds : List String) (automations : AutomationRecords Details)
    (trashedAtMs : Nat) :
    Atomically (trashAccounts services accountIds automations trashedAtMs) store fun _ next =>
      ∃ records, eachFound store.account accountIds = .ok records ∧
        Inventoried services store next
          (store.accounts.filter fun account => !accountIds.contains account.account.id)
          (store.accountTrash ++ records.map fun record => ⟨record, trashedAtMs⟩) := by
  rw [trashAccounts]
  exact .inspect (.ofExcept fun records found =>
    (replaceAccountInventory_atomically services _ _ _ _).mono fun _ _ inventoried =>
      ⟨records, found, inventoried⟩)

theorem restoreTrashedAccounts_atomically (accountIds : List String) :
    Atomically (restoreTrashedAccounts services accountIds) store fun _ next =>
      ∃ entries, eachFound store.trashedAccount accountIds = .ok entries ∧
        Inventoried services store next
          (store.accounts ++ entries.map fun entry => entry.record.restored)
          (store.accountTrash.filter fun entry =>
            !accountIds.contains entry.record.account.id) := by
  rw [restoreTrashedAccounts]
  exact .inspect (.ofExcept fun entries found =>
    (replaceAccountInventory_atomically services _ _ _ _).mono fun _ _ inventoried =>
      ⟨entries, found, inventoried⟩)

theorem purgeTrashedAccounts_atomically (accountIds : List String) :
    Atomically (purgeTrashedAccounts services accountIds) store fun _ next =>
      Inventoried services store next store.accounts
        (store.accountTrash.filter fun entry =>
          !accountIds.contains entry.record.account.id) := by
  rw [purgeTrashedAccounts]
  exact .inspect (.ofExcept fun _ _ => replaceAccountInventory_atomically services _ _ _ _)

theorem replaceGateway_atomically (gateway : GatewaySettings Details) :
    Atomically (replaceGateway services gateway) store
      fun _ next => Recorded services store next := by
  rw [replaceGateway]
  refine .ofExcept fun settled normalized => .inspect ?_
  simp only [id]
  split
  next => exact atomically_pure (.refl services store)
  next =>
    refine .ofExcept fun _ _ => .ofExcept fun revisions revised => .ofExcept fun text gatewayOk =>
      .ofExcept fun entry revisionsOk => (replaceState_atomically _ [] []).bind ?_
    rintro ⟨⟩ _ ⟨database, written, rfl⟩
    have others {other : String} (different : stateGateway ≠ other)
        (second : other ≠ stateRefreshRevisions) :
        entryText ((stateGateway, text) :: entry) other = none := by
      rw [(entryText_first (entryIf_other revisionsOk (by decide))).2 different]
      exact entryIf_other revisionsOk second
    have own : entryText ((stateGateway, text) :: entry) stateGateway = some text :=
      (@entryText_first stateGateway stateGateway text entry
        (entryIf_other revisionsOk (by decide))).1
    have revisionsText : entryText ((stateGateway, text) :: entry) stateRefreshRevisions =
        entryText entry stateRefreshRevisions :=
      (entryText_first (entryIf_other revisionsOk (by decide))).2 (by decide)
    refine .modify (notifyIf_completes _ fun _ => ⟨⟨⟨_, [], written, .whole text own gatewayOk,
      .list (.kept (others (by decide) (by decide)) rfl) fun _ => rfl,
      .list (.kept (others (by decide) (by decide)) rfl) fun _ => rfl,
      .kept (others (by decide) (by decide)) rfl,
      .list (.kept (others (by decide) (by decide)) rfl) fun _ => rfl,
      .kept (others (by decide) (by decide)) rfl,
      entryIf_written revisionsOk (fun same => by simpa using same) revisionsText,
      .kept (others (by decide) (by decide)) rfl⟩, id, fun lawful _ => ?_⟩,
      ⟨store.refreshRevisions, .refl _ _, revised⟩, rfl⟩)
    cases given : services.normalizeGateway gateway with
    | error error =>
      rw [given] at normalized
      cases normalized
    | ok other =>
      rw [given] at normalized
      cases normalized
      exact lawful.normalized gateway _ given

end LocalPoolStore

end ZenithRelay.LocalPool
