import ZenithRelay.Foundations.Execution
import ZenithRelay.LocalPool.StateJson
import ZenithRelay.LocalPool.StoreOperations

/-!
# Runs of the store

A store is opened over an empty database and then serves requests, any of whose writes
may fail. A process that stops leaves the saved state, which reloads as what it had in
memory.
-/

set_option autoImplicit false

namespace ZenithRelay.LocalPool

open Fallible Execution

variable {Details : Type} [DecidableEq Details]

namespace LocalPoolStore

/-! ### Calls -/

/-- What became of a call: a reply, or the process stopped during it. -/
inductive Attended where
  | replied (reply : Except LocalPoolError Unit)
  | stopped

/-- A request, with the writes that succeed. -/
abbrev Call (Details : Type) : Type := StoreRequest Details × List Bool

def attend (services : StoreServices Details) (store : LocalPoolStore Details)
    (call : Call Details) : Attended × LocalPoolStore Details :=
  match (serve services call.1).run store call.2 with
  | .returned reply next _ => (.replied reply, next)
  | .stopped next => (.stopped, next)

def step (services : StoreServices Details) (store : LocalPoolStore Details)
    (call : Call Details) : LocalPoolStore Details :=
  (attend services store call).2

def Succeeds (services : StoreServices Details) (store : LocalPoolStore Details)
    (call : Call Details) : Prop :=
  (attend services store call).1 = .replied (.ok ())

/-- A call that does not succeed leaves the store. -/
theorem step_cases (services : StoreServices Details) (store : LocalPoolStore Details)
    (call : Call Details) :
    Succeeds services store call ∧ Served services call.1 store (step services store call) ∨
      ¬Succeeds services store call ∧ step services store call = store := by
  have meets := @serve_atomically _ _ services store call.1 call.2
  simp only [Meets] at meets
  rw [Succeeds, step, attend]
  cases ended : (serve services call.1).run store call.2 with
  | returned reply next rest =>
    rw [ended] at meets
    cases reply with
    | error error =>
      refine Or.inr ⟨?_, meets⟩
      rintro ⟨⟩
    | ok done => exact Or.inl ⟨rfl, meets⟩
  | stopped next =>
    rw [ended] at meets
    refine Or.inr ⟨?_, meets⟩
    rintro ⟨⟩

private theorem serve_reaches {services : StoreServices Details} {store middle : LocalPoolStore Details}
    (reachable : Reachable (step services) store middle) (request : StoreRequest Details)
    (pattern : List Bool) : Meets (serve services request) middle pattern
      (fun _ next _ => Reachable (step services) store next)
      (Reachable (step services) store) := by
  have next := reachable.next (step services) (request, pattern)
  rw [step, attend] at next
  rw [Meets]
  cases ended : (serve services request).run middle pattern with
  | returned reply state rest =>
    rw [ended] at next
    exact next
  | stopped state =>
    rw [ended] at next
    exact next

/-- A reset is up to three calls in a row, and ends where calls lead. -/
theorem resetLocalRecords_reaches (services : StoreServices Details)
    (store : LocalPoolStore Details) (pattern : List Bool) :
    Meets (resetLocalRecords services) store pattern
      (fun _ next _ => Reachable (step services) store next)
      (Reachable (step services) store) := by
  have replaces {middle : LocalPoolStore Details}
      (reachable : Reachable (step services) store middle) (pattern : List Bool) :
      Meets (do
        replaceGateway services services.defaultGateway
        replaceAllRecords services [] [] [] services.defaultAutomations) middle pattern
        (fun _ next _ => Reachable (step services) store next)
        (Reachable (step services) store) := by
    refine Meets.bind ((serve_reaches reachable (.replaceGateway _) pattern).mono ?_ fun _ => id)
    intro result later rest reached
    cases result with
    | error error => exact reached
    | ok done => exact serve_reaches reached (.replaceAllRecords [] [] [] _) rest
  have start := Reachable.refl (step services) store
  rw [resetLocalRecords]
  refine Meets.bind ((meets_inspect id).mpr ?_)
  simp only [id]
  split
  next => exact replaces start pattern
  next =>
    refine Meets.bind ((serve_reaches start (.purgeTrashedAccounts _) pattern).mono ?_ fun _ => id)
    intro result later rest reached
    cases result with
    | error error => exact reached
    | ok done => exact replaces reached rest

/-! ### Opening -/

/-- The entries of `persist_state`. -/
def persistedEntries (codec : StateCodec Details) (state : PersistedState Details) :
    Except LocalPoolError (List StateEntry) := do
  let trashText ← codec.serializeState codec.trashed.list state.accountTrash
  let gatewayText ← codec.serializeState codec.gateway state.gateway
  let sourcesText ← codec.serializeState codec.source.list state.sources
  let accountsText ← codec.serializeState codec.account.list state.accounts
  let keysText ← codec.serializeState codec.key.list state.keys
  let automationsText ← codec.serializeState codec.automations state.automations
  .ok [(stateAccountTrash, trashText), (stateGateway, gatewayText), (stateSources, sourcesText),
    (stateAccounts, accountsText), (stateKeys, keysText), (stateAutomations, automationsText)]

/-- `open` over a database without state, where every write succeeds. `state` is the default
state or that of an older build, as `open` settles it. -/
def opened (services : StoreServices Details) (state : PersistedState Details) :
    Except LocalPoolError (LocalPoolStore Details) := do
  let codec := services.codec
  let entries ← persistedEntries codec state
  entries.forM StateDatabase.validateEntry
  (services.validateGateway state.gateway).mapError .ofInvalidState
  validateInventory state.accounts state.accountTrash
  ensure (state.accounts.length ≤ maxLocalAccounts)
    ⟨.recoveryRequired, "local account count exceeds the supported limit of 1024"⟩
  let refreshRevisions ← RefreshRevisions.initialized state.accounts
  let revisionsText ← codec.serializeState codec.refreshRevisions refreshRevisions
  let sourceRefreshRevisions ← SourceRefreshRevisions.withSources ⟨0, ∅⟩ [] state.sources
  let sourceRevisionsText ← codec.serializeState codec.sourceRevisions sourceRefreshRevisions
  let database := ((⟨∅, ∅⟩ : StateDatabase).withEntries entries).withEntries
    [(stateRefreshRevisions, revisionsText), (stateSourceRevisions, sourceRevisionsText)]
  .ok {
    database
    gateway := state.gateway
    sources := state.sources
    accounts := state.accounts
    accountTrash := state.accountTrash
    keys := state.keys
    automations := state.automations
    refreshRevisions
    sourceRefreshRevisions
    refreshChanged := 0 }

variable {services : StoreServices Details} {state : PersistedState Details}
  {store : LocalPoolStore Details}

private theorem opened_ok (ok : opened services state = .ok store) :
    (∃ entries revisionsText sourceRevisionsText,
      persistedEntries services.codec state = .ok entries ∧
      services.codec.serializeState services.codec.refreshRevisions store.refreshRevisions =
        .ok revisionsText ∧
      services.codec.serializeState services.codec.sourceRevisions store.sourceRefreshRevisions =
        .ok sourceRevisionsText ∧
      store.database = (⟨∅, ∅⟩ : StateDatabase).withEntries (entries ++
        [(stateRefreshRevisions, revisionsText), (stateSourceRevisions, sourceRevisionsText)])) ∧
      store.gateway = state.gateway ∧ store.sources = state.sources ∧
      store.accounts = state.accounts ∧ store.accountTrash = state.accountTrash ∧
      store.keys = state.keys ∧ store.automations = state.automations ∧
      Inventory store ∧ RefreshRevisions.initialized store.accounts = .ok store.refreshRevisions := by
  rw [opened] at ok
  obtain ⟨entries, persistedOk, ok⟩ := bind_ok ok
  obtain ⟨_, -, ok⟩ := bind_ok ok
  obtain ⟨_, -, ok⟩ := bind_ok ok
  obtain ⟨_, inventory, ok⟩ := bind_ok ok
  obtain ⟨_, -, ok⟩ := bind_ok ok
  obtain ⟨revisions, initialized, ok⟩ := bind_ok ok
  obtain ⟨revisionsText, revisionsOk, ok⟩ := bind_ok ok
  obtain ⟨sourceRevisions, -, ok⟩ := bind_ok ok
  obtain ⟨sourceRevisionsText, sourceRevisionsOk, ok⟩ := bind_ok ok
  cases ok
  refine ⟨⟨entries, revisionsText, sourceRevisionsText, persistedOk, revisionsOk,
    sourceRevisionsOk, ?_⟩, rfl, rfl, rfl, rfl, rfl, rfl, inventory, initialized⟩
  simp only [StateDatabase.withEntries, List.foldl_append]

/-- The invariant of a run. -/
structure Sound (services : StoreServices Details) (store : LocalPoolStore Details) : Prop where
  durable : Durable services.codec store
  inventory : Inventory store
  gateway : ReadsBack services store.gateway

theorem opened_initialized (ok : opened services state = .ok store) :
    RefreshRevisions.initialized store.accounts = .ok store.refreshRevisions := by
  obtain ⟨-, -, -, -, -, -, -, -, initialized⟩ := opened_ok ok
  exact initialized

theorem Served.sound {request : StoreRequest Details} {next : LocalPoolStore Details}
    (lawful : LawfulServices services) (sound : Sound services store)
    (served : Served services request store next) : Sound services next := by
  have gateway := served.gateway lawful sound.gateway
  obtain ⟨entries, items, commits⟩ := served.commits
  exact ⟨sound.durable.commits lawful.codec commits gateway, served.inventory sound.inventory,
    gateway⟩

theorem step_sound (lawful : LawfulServices services) (store : LocalPoolStore Details)
    (call : Call Details) (sound : Sound services store) :
    Sound services (step services store call) := by
  rcases step_cases services store call with ⟨-, served⟩ | ⟨-, same⟩
  · exact served.sound lawful sound
  · exact same.symm ▸ sound

/-! ### Rows over the saved lists -/

/-- A row at a position of a saved list holds a newer form of the record that the list has
there, and that form is the record in memory. -/
def Overlays {Value : Type} (codec : StateCodec Details) (encoding : Encoding Value)
    (idOf : Value → String) (database : StateDatabase) (key : String) (values : List Value)
    (position : Nat) (text : String) : Prop :=
  ∃ base listed newer, Listed codec database.appState key base ∧
    base[position]?.bind encoding.decode = some listed ∧
    codec.deserialize encoding text = some newer ∧ idOf listed = idOf newer ∧
    values[position]? = some newer

def RowBelongs (codec : StateCodec Details) (store : LocalPoolStore Details) (key : String)
    (position : Nat) (text : String) : Prop :=
  (key = stateSources ∧ Overlays codec codec.source (·.id) store.database key store.sources
    position text) ∨
  (key = stateAccounts ∧ Overlays codec codec.account (·.account.id) store.database key
    store.accounts position text) ∨
  key = stateKeys ∧ Overlays codec codec.key (·.id) store.database key store.keys position text

omit [DecidableEq Details] in
private theorem overlays_of_saved {Value : Type} {codec : StateCodec Details}
    {encoding : Encoding Value} {idOf : Value → String} {database : StateDatabase} {key : String}
    {values : List Value} (saved : ∃ base, SavedInventory codec encoding idOf database key base values)
    {position : Nat} {text : String} (row : database.items[(key, position)]? = some text) :
    Overlays codec encoding idOf database key values position text := by
  obtain ⟨base, list, records⟩ := saved
  have reads := records position
  rw [row] at reads
  generalize item : base[position]? = listed at reads
  generalize held : values[position]? = value at reads
  cases reads with
  | observed item_ old newer _ decoded read same =>
    exact ⟨base, old, newer, list, by rw [item]; exact decoded, read, same, held⟩

omit [DecidableEq Details] in
theorem Durable.rowBelongs {codec : StateCodec Details} (durable : Durable codec store)
    {key : String} {position : Nat} {text : String}
    (row : store.database.items[(key, position)]? = some text) :
    RowBelongs codec store key position text := by
  have inventory := durable.inventory key position text row
  simp only [inventoryKey, Bool.or_eq_true, decide_eq_true_eq] at inventory
  rcases inventory with (rfl | rfl) | rfl
  · exact Or.inl ⟨rfl, overlays_of_saved durable.sources row⟩
  · exact Or.inr (Or.inl ⟨rfl, overlays_of_saved durable.accounts row⟩)
  · exact Or.inr (Or.inr ⟨rfl, overlays_of_saved durable.keys row⟩)

/-- The rows of a list end with it. -/
theorem Served.dropsRows {request : StoreRequest Details} {next : LocalPoolStore Details}
    (durable : Durable services.codec next) (served : Served services request store next)
    (key : String) : next.database.appState[key]? = store.database.appState[key]? ∨
      ∀ position : Nat, next.database.items[(key, position)]? = none := by
  obtain ⟨entries, items, commits⟩ := served.commits
  obtain ⟨texts, rows⟩ := StateDatabase.replaced_ok commits.database
  cases present : entryText entries key with
  | none => exact Or.inl (by rw [texts, present, Option.none_or])
  | some text =>
    refine Or.inr fun position => ?_
    have row := rows key position
    rw [present] at row
    cases found : next.database.items[(key, position)]? with
    | none => rfl
    | some newer =>
      have inventory := durable.inventory key position newer found
      simp only [inventoryKey, Bool.or_eq_true, decide_eq_true_eq] at inventory
      have itemless : itemText items key position = none := by
        rcases inventory with (rfl | rfl) | rfl
        · exact commits.sources.itemless present position
        · exact commits.accounts.itemless present position
        · exact commits.keys.itemless present position
      rw [found, itemless] at row
      cases row

/-! ### The trash -/

private theorem eachFound_ok {Value : Type} {find : String → Option Value} {ids : List String}
    {values : List Value} (ok : eachFound find ids = .ok values) :
    ∀ value ∈ values, ∃ id ∈ ids, find id = some value := by
  induction ids generalizing values with
  | nil =>
    cases ok
    simp
  | cons id rest ih =>
    rw [eachFound, List.mapM_cons] at ok
    obtain ⟨first, found, ok⟩ := bind_ok ok
    obtain ⟨others, later, ok⟩ := bind_ok ok
    cases ok
    have held : find id = some first := by
      split at found
      next value held =>
        cases found
        exact held
      next => cases found
    refine List.forall_mem_cons.mpr ⟨⟨id, List.mem_cons_self, held⟩, fun value member => ?_⟩
    obtain ⟨other, listed, same⟩ := ih later value member
    exact ⟨other, List.mem_cons_of_mem id listed, same⟩

omit [DecidableEq Details] in
private theorem MovesTrash.cause {request : StoreRequest Details} {next : LocalPoolStore Details}
    (moves : MovesTrash store next request) {entry : TrashedLocalAccount Details}
    (member : entry ∈ next.accountTrash) :
    entry ∈ store.accountTrash ∨ ∃ accountIds automations,
      request = .trashAccounts accountIds automations entry.trashedAtMs ∧
      entry.record ∈ store.accounts ∧ entry.record.account.id ∈ accountIds := by
  have kept (same : next.accountTrash = store.accountTrash) : entry ∈ store.accountTrash :=
    same ▸ member
  cases request with
  | trashAccounts accountIds automations trashedAtMs =>
    obtain ⟨records, found, -, trash⟩ := moves
    rw [trash] at member
    rcases List.mem_append.mp member with earlier | added
    · exact Or.inl earlier
    · obtain ⟨record, listed, rfl⟩ := List.mem_map.mp added
      obtain ⟨id, asked, held⟩ := eachFound_ok found record listed
      have same : record.account.id = id := by simpa using List.find?_some held
      exact Or.inr ⟨accountIds, automations, rfl, List.mem_of_find?_eq_some held, same ▸ asked⟩
  | restoreTrashedAccounts =>
    obtain ⟨entries, -, -, trash⟩ := moves
    rw [trash] at member
    exact Or.inl (List.mem_filter.mp member).1
  | purgeTrashedAccounts =>
    obtain ⟨-, trash⟩ := moves
    rw [trash] at member
    exact Or.inl (List.mem_filter.mp member).1
  | _ => exact Or.inl (kept moves)

/-- The saved state is the state in memory. -/
structure Mirrors (services : StoreServices Details) (store : LocalPoolStore Details) : Prop where
  reloads : loadState services.codec store.database = .ok store.persisted
  rows : ∀ (key : String) (position : Nat) (text : String),
    store.database.items[(key, position)]? = some text →
    RowBelongs services.codec store key position text
  distinct : (accountIds store.accounts ++ trashedIds store.accountTrash).Nodup

omit [DecidableEq Details] in
theorem Sound.mirrors (lawful : LawfulServices services) (sound : Sound services store) :
    Mirrors services store where
  reloads := sound.durable.reloads lawful.codec
  rows := fun _ _ _ row => sound.durable.rowBelongs row
  distinct := by
    have valid := sound.inventory
    rw [Inventory, validateInventory] at valid
    split at valid
    next => cases valid
    next fine => exact not_not.mp (not_or.mp fine).1

/-- What a call does to the saved state and to the trash. -/
structure Answers (services : StoreServices Details) (store : LocalPoolStore Details)
    (call : Call Details) : Prop where
  unchanged : ¬Succeeds services store call → step services store call = store
  /-- A list that is saved anew has no rows. -/
  rows : ∀ key : String,
    (step services store call).database.appState[key]? = store.database.appState[key]? ∨
      ∀ position : Nat, (step services store call).database.items[(key, position)]? = none
  restored : ∀ accountIds, call.1 = .restoreTrashedAccounts accountIds →
    Succeeds services store call → ∃ entries,
      eachFound store.trashedAccount accountIds = .ok entries ∧
      (step services store call).accounts =
        store.accounts ++ entries.map fun entry => entry.record.restored

theorem Sound.answers (lawful : LawfulServices services) (sound : Sound services store)
    (call : Call Details) : Answers services store call := by
  rcases step_cases services store call with ⟨succeeds, served⟩ | ⟨fails, same⟩
  · refine ⟨fun fails => absurd succeeds fails,
      served.dropsRows (step_sound lawful store call sound).durable, fun accountIds request _ => ?_⟩
    have moves := served.movesTrash
    rw [request] at moves
    obtain ⟨entries, found, accounts, -⟩ := moves
    exact ⟨entries, found, accounts⟩
  · exact ⟨fun _ => same, fun key => Or.inl (by rw [same]), fun _ _ succeeds => absurd succeeds fails⟩

def plainGateway : GatewaySettings Unit := ⟨[], (), false, false, false, 20, ()⟩

/-- Settings without details, which have nothing to normalize. -/
def plainServices : StoreServices Unit where
  codec := plainCodec
  normalizeGateway := .ok
  validateGateway _ := .ok ()
  parseRfc3339 text := if text = "2026-01-02T00:00:00Z" then some 1767312000 else none
  defaultGateway := plainGateway
  defaultAutomations := ()

def plainState : PersistedState Unit := ⟨plainGateway, [], [], [], [], (), none, none⟩

def plainAccount (id : String) : LocalAccountRecord Unit :=
  ⟨⟨id, ⟨id, id, none⟩, .oAuth, .active, .healthy, "chatgpt", [], true, true, false, 7, none, ()⟩,
    false, none, none, none, ()⟩

theorem plainState_opens : ∃ store, opened plainServices plainState = .ok store := by
  have isOk : (opened plainServices plainState).isOk = true := by decide +kernel
  cases result : opened plainServices plainState with
  | error error =>
    rw [result] at isOk
    cases isOk
  | ok store => exact ⟨store, rfl⟩

/-- An observation between two moves, and a move whose write fails. -/
def plainCalls : List (Call Unit) :=
  [(.upsertAccount (plainAccount "a"), [true]),
    (.persistAccountUsage { plainAccount "a" with clientAuthStatus := some "ok" } "k"
      "2026-01-02T00:00:00Z" (), [true]),
    (.trashAccounts ["a"] () 9, [false]),
    (.trashAccounts ["a"] () 9, [true]),
    (.restoreTrashedAccounts ["a"], [true])]

end LocalPoolStore

end ZenithRelay.LocalPool
