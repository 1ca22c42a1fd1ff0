import ZenithRelay.LocalPool.StateDatabase

/-!
# The local pool store

Every operation works on a copy of what it changes, saves it in one transaction, and
changes the store in memory only after the transaction.
-/

set_option autoImplicit false

namespace ZenithRelay.LocalPool

open Fallible

/-- What the store takes from elsewhere: the JSON of its records, the checks of the other
gateway settings, and RFC 3339 times. -/
structure StoreServices (Details : Type) where
  codec : StateCodec Details
  normalizeGateway : GatewaySettings Details → Except String (GatewaySettings Details)
  validateGateway : GatewaySettings Details → Except String Unit
  parseRfc3339 : String → Option Int
  defaultGateway : GatewaySettings Details
  defaultAutomations : AutomationRecords Details

structure LocalPoolStore (Details : Type) where
  database : StateDatabase
  gateway : GatewaySettings Details
  sources : List (ProviderSourceRecord Details)
  accounts : List (LocalAccountRecord Details)
  accountTrash : List (TrashedLocalAccount Details)
  keys : List (LocalGatewayKeyRecord Details)
  automations : AutomationRecords Details
  refreshRevisions : RefreshRevisions
  sourceRefreshRevisions : SourceRefreshRevisions
  refreshChanged : Nat

structure AccountRefreshFence where
  accountId : String
  revision : Nat
  configurationRevision : Nat
  deriving DecidableEq, Repr

structure AppliedAccountRefresh (Details Result : Type) where
  previousAccount : LocalAccountRecord Details
  account : LocalAccountRecord Details
  refreshResult : Result

structure SourceRefreshFence where
  sourceId : String
  revision : Nat
  deriving DecidableEq, Repr

namespace LocalPoolStore

variable {Details : Type} [DecidableEq Details]

abbrev Operation (Details Result : Type) : Type :=
  Guarded (LocalPoolStore Details) LocalPoolError Result

def account (store : LocalPoolStore Details) (accountId : String) :
    Option (LocalAccountRecord Details) :=
  store.accounts.find? (·.account.id = accountId)

/-- The whole store, as the operation finds it. -/
def read : Operation Details (LocalPoolStore Details) := inspect id

def notifyRefreshChanged : Operation Details Unit :=
  modify fun store => { store with refreshChanged := (store.refreshChanged + 1) % (u64Max + 1) }

def notifyIf (changed : Bool) : Operation Details Unit :=
  if changed then notifyRefreshChanged else pure ()

def ensure (condition : Bool) (error : LocalPoolError) : Except LocalPoolError Unit :=
  if condition then .ok () else .error error

/-! ### Saving -/

/-- The transaction also deletes the usage rows of `deletedAccountIds`, which hold no state. -/
def replaceStateJsonWithAccountPurge (entries : List StateEntry) (deletedAccountIds : List String)
    (items : List StateItem) : Operation Details Unit := do
  if entries.isEmpty && deletedAccountIds.isEmpty && items.isEmpty then pure ()
  else
    ofExcept (entries.forM StateDatabase.validateEntry)
    let store ← read
    let database ← ofExcept (store.database.replaced entries items)
    operate (fun store => { store with database }) ⟨.io, "local database error"⟩

def replaceStateJson (entries : List StateEntry) : Operation Details Unit :=
  replaceStateJsonWithAccountPurge entries [] []

def replaceStateItems (items : List StateItem) (entries : List StateEntry) :
    Operation Details Unit :=
  replaceStateJsonWithAccountPurge entries [] items

/-- The entry of a part of the state that changes. -/
def entryIf {Value : Type} (codec : StateCodec Details) (changed : Bool) (key : String)
    (encoding : Encoding Value) (value : Value) : Except LocalPoolError (List StateEntry) := do
  if changed then
    let text ← codec.serializeState encoding value
    .ok [(key, text)]
  else .ok []

/-! ### Whole lists -/

/-- The gateway of a replacement: a changed list of accounts drops the routes of missing
accounts. Without a given gateway it is the store's own. -/
def replacedGateway (store : LocalPoolStore Details) (accounts : List (LocalAccountRecord Details))
    (gateway : Option (GatewaySettings Details)) : GatewaySettings Details :=
  let chosen := gateway.getD store.gateway
  if !chosen.accountRoutes.isEmpty &&
      (gateway.isSome || accountIds accounts ≠ accountIds store.accounts) then
    chosen.retainAccountRoutes accounts
  else chosen

def checkReplacement (services : StoreServices Details) (store : LocalPoolStore Details)
    (accounts : List (LocalAccountRecord Details)) (gateway : GatewaySettings Details) :
    Except LocalPoolError Unit := do
  if gateway ≠ store.gateway then
    (services.validateGateway gateway).mapError .ofInvalidState
  ensure (gateway.accountRoutes.isEmpty || !accounts.any fun account =>
      account.account.inPool && !gateway.accountRouteIsSelected account.account.id)
    ⟨.conflict, "Only the selected account route can participate in the pool"⟩
  validateInventory accounts store.accountTrash
  ensure (accounts.length ≤ maxLocalAccounts)
    ⟨.invalidState, "local account count exceeds the supported limit of 1024"⟩

def replacedRevisions (store : LocalPoolStore Details)
    (accounts : List (LocalAccountRecord Details)) (gateway : GatewaySettings Details) :
    Except LocalPoolError RefreshRevisions := do
  let revisions ←
    if accounts ≠ store.accounts then store.refreshRevisions.withAccounts store.accounts accounts
    else .ok store.refreshRevisions
  if gateway ≠ store.gateway then revisions.withGateway store.gateway gateway else .ok revisions

/-- The entries of the parts in which `next` differs. -/
def changedEntries (codec : StateCodec Details) (store next : LocalPoolStore Details) :
    Except LocalPoolError (List StateEntry) := do
  let gateway ← entryIf codec (next.gateway ≠ store.gateway) stateGateway codec.gateway next.gateway
  let sourceRevisions ← entryIf codec
    (next.sourceRefreshRevisions ≠ store.sourceRefreshRevisions) stateSourceRevisions
    codec.sourceRevisions next.sourceRefreshRevisions
  let revisions ← entryIf codec (next.refreshRevisions ≠ store.refreshRevisions)
    stateRefreshRevisions codec.refreshRevisions next.refreshRevisions
  let sources ←
    entryIf codec (next.sources ≠ store.sources) stateSources codec.source.list next.sources
  let accounts ←
    entryIf codec (next.accounts ≠ store.accounts) stateAccounts codec.account.list next.accounts
  let keys ← entryIf codec (next.keys ≠ store.keys) stateKeys codec.key.list next.keys
  let automations ← entryIf codec (next.automations ≠ store.automations) stateAutomations
    codec.automations next.automations
  .ok (gateway ++ sourceRevisions ++ revisions ++ sources ++ accounts ++ keys ++ automations)

/-- The accounts that are refreshed. -/
def registration (accounts : List (LocalAccountRecord Details)) : List (String × Bool) :=
  accounts.map fun account =>
    (account.account.id, account.account.isAutomaticQuotaMonitoringEligible)

/-- Usage, quota and model observations do not trigger inventory-wide scans. -/
def refreshRegistrationChanged (store next : LocalPoolStore Details) : Bool :=
  next.refreshRevisions ≠ store.refreshRevisions ||
    registration store.accounts ≠ registration next.accounts

def replaceAllRecordsInner (services : StoreServices Details)
    (sources : List (ProviderSourceRecord Details)) (accounts : List (LocalAccountRecord Details))
    (keys : List (LocalGatewayKeyRecord Details)) (automations : AutomationRecords Details)
    (deletedAccountIds : List String) (gateway : Option (GatewaySettings Details)) :
    Operation Details Unit := do
  let store ← read
  let gateway := store.replacedGateway accounts gateway
  ofExcept (store.checkReplacement services accounts gateway)
  if sources = store.sources ∧ accounts = store.accounts ∧ keys = store.keys ∧
      automations = store.automations ∧ gateway = store.gateway then
    pure ()
  else
    let refreshRevisions ← ofExcept (store.replacedRevisions accounts gateway)
    let sourceRefreshRevisions ←
      ofExcept (store.sourceRefreshRevisions.withSources store.sources sources)
    let next := { store with
      sourceRefreshRevisions, sources, accounts, gateway, keys, automations, refreshRevisions }
    let entries ← ofExcept (changedEntries services.codec store next)
    replaceStateJsonWithAccountPurge entries deletedAccountIds []
    modify fun store => { next with database := store.database }
    notifyIf (refreshRegistrationChanged store next ||
      next.sourceRefreshRevisions ≠ store.sourceRefreshRevisions)

def replaceAllRecords (services : StoreServices Details)
    (sources : List (ProviderSourceRecord Details)) (accounts : List (LocalAccountRecord Details))
    (keys : List (LocalGatewayKeyRecord Details)) (automations : AutomationRecords Details) :
    Operation Details Unit :=
  replaceAllRecordsInner services sources accounts keys automations [] none

def replaceRecords (services : StoreServices Details)
    (sources : List (ProviderSourceRecord Details)) (keys : List (LocalGatewayKeyRecord Details)) :
    Operation Details Unit := do
  let store ← read
  replaceAllRecords services sources store.accounts keys store.automations

def replaceAccountsAndKeys (services : StoreServices Details)
    (accounts : List (LocalAccountRecord Details)) (keys : List (LocalGatewayKeyRecord Details)) :
    Operation Details Unit := do
  let store ← read
  replaceAllRecords services store.sources accounts keys store.automations

def replacePoolRecords (services : StoreServices Details)
    (sources : List (ProviderSourceRecord Details)) (accounts : List (LocalAccountRecord Details))
    (keys : List (LocalGatewayKeyRecord Details)) : Operation Details Unit := do
  let store ← read
  replaceAllRecords services sources accounts keys store.automations

def replaceAutomations (services : StoreServices Details)
    (automations : AutomationRecords Details) : Operation Details Unit := do
  let store ← read
  replaceAllRecords services store.sources store.accounts store.keys automations

def replaceAccountRoutes (services : StoreServices Details)
    (accounts : List (LocalAccountRecord Details)) (gateway : GatewaySettings Details)
    (automations : AutomationRecords Details) : Operation Details Unit := do
  let store ← read
  replaceAllRecordsInner services store.sources accounts store.keys automations [] (some gateway)

def deleteAccountsState (services : StoreServices Details) (deletedAccountIds : List String)
    (accounts : List (LocalAccountRecord Details)) (keys : List (LocalGatewayKeyRecord Details))
    (automations : AutomationRecords Details) : Operation Details Unit := do
  let store ← read
  replaceAllRecordsInner services store.sources accounts keys automations deletedAccountIds none

/-- Replaces the first value that `same` finds, or adds it behind the others. -/
def upsert {Value : Type} (same : Value → Bool) (value : Value) (values : List Value) :
    List Value :=
  match values.findIdx? same with
  | some index => values.set index value
  | none => values ++ [value]

def upsertSource (services : StoreServices Details) (source : ProviderSourceRecord Details) :
    Operation Details Unit := do
  let store ← read
  replaceRecords services (upsert (·.id = source.id) source store.sources) store.keys

def upsertKey (services : StoreServices Details) (key : LocalGatewayKeyRecord Details) :
    Operation Details Unit := do
  let store ← read
  replaceRecords services store.sources (upsert (·.id = key.id) key store.keys)

def upsertAccount (services : StoreServices Details) (account : LocalAccountRecord Details) :
    Operation Details Unit := do
  let store ← read
  replaceAccountsAndKeys services
    (upsert (·.account.id = account.account.id) account store.accounts) store.keys

/-- A newer observation of the client's login survives the rollback. -/
def restoreAccountIfCurrent (services : StoreServices Details)
    (previousAccount attemptedAccount : LocalAccountRecord Details) : Operation Details Bool := do
  let store ← read
  match store.account attemptedAccount.account.id with
  | none => pure false
  | some stored =>
    if !stored.matchesRollbackSnapshot attemptedAccount then pure false
    else
      upsertAccount services { previousAccount with
        clientAuthStatus := stored.clientAuthStatus
        lastClientLoginRedirectAtMs := stored.lastClientLoginRedirectAtMs }
      pure true

def blockedForTeam (accountIds : List String) (account : LocalAccountRecord Details) : Bool :=
  accountIds.contains account.account.id &&
    (account.account.health ≠ .blocked ||
      account.account.lastErrorCode ≠ some "deactivated_workspace")

def blockAccountsForTeam (services : StoreServices Details) (accountIds : List String) :
    Operation Details Bool := do
  let store ← read
  let accounts := store.accounts.map fun account =>
    if blockedForTeam accountIds account then
      { account with account := { account.account with
          health := .blocked
          lastErrorCode := some "deactivated_workspace" } }
    else account
  if store.accounts.any (blockedForTeam accountIds) then
    replaceAllRecords services store.sources accounts store.keys store.automations
    pure true
  else pure false

def updateClientAuthObservation (services : StoreServices Details) (accountId : String)
    (status : Option String) (loginRedirectAtMs : Option Nat) : Operation Details Bool := do
  let store ← read
  match store.account accountId with
  | none => pure false
  | some stored =>
    if stored.clientAuthStatus = status ∧
        stored.lastClientLoginRedirectAtMs = loginRedirectAtMs then
      pure false
    else
      upsertAccount services { stored with
        clientAuthStatus := status
        lastClientLoginRedirectAtMs := loginRedirectAtMs }
      pure true

/-- Recovery never enables or dispatches the account. -/
def locallyRecovered (account : LocalAccountRecord Details) : LocalAccountRecord Details :=
  { account with
    recovery := none
    imagePoolEnabled := false
    account := { account.account with
      enabled := false
      inPool := false
      lastErrorCode :=
        if account.account.lastErrorCode = some "remote_missing" then none
        else account.account.lastErrorCode } }

def recoverAccountLocally (services : StoreServices Details) (accountId : String)
    (confirmed : Bool) : Operation Details Unit := do
  ofExcept (ensure confirmed
    ⟨.conflict, "confirm the external account owner is stopped before recovery"⟩)
  let store ← read
  match store.account accountId with
  | none => throw accountNotFound
  | some account =>
    ofExcept (ensure account.recovery.isSome
      ⟨.conflict, "account does not require local recovery"⟩)
    replaceAccountsAndKeys services
      (upsert (·.account.id = accountId) (locallyRecovered account) store.accounts) store.keys

/-! ### The gateway -/

def replaceGateway (services : StoreServices Details) (gateway : GatewaySettings Details) :
    Operation Details Unit := do
  let gateway ← ofExcept ((services.normalizeGateway gateway).mapError .ofInvalidState)
  let store ← read
  if gateway = store.gateway then pure ()
  else
    ofExcept ((services.validateGateway gateway).mapError .ofInvalidState)
    let revisions ← ofExcept (store.refreshRevisions.withGateway store.gateway gateway)
    let codec := services.codec
    let gatewayText ← ofExcept (codec.serializeState codec.gateway gateway)
    let revisionsEntry ← ofExcept (entryIf codec (revisions ≠ store.refreshRevisions)
      stateRefreshRevisions codec.refreshRevisions revisions)
    replaceStateJson ((stateGateway, gatewayText) :: revisionsEntry)
    modify fun store => { store with gateway, refreshRevisions := revisions }
    notifyIf (revisions ≠ store.refreshRevisions)

def setGatewayEnabled (services : StoreServices Details) (enabled : Bool) :
    Operation Details Unit := do
  let store ← read
  replaceGateway services { store.gateway with enabled }

/-! ### The trash -/

def replaceAccountInventory (services : StoreServices Details)
    (accounts : List (LocalAccountRecord Details)) (trash : List (TrashedLocalAccount Details))
    (automations : AutomationRecords Details) (permanentlyDeletedIds : List String) :
    Operation Details Unit := do
  ofExcept (validateInventory accounts trash)
  ofExcept (ensure (accounts.length ≤ maxLocalAccounts)
    ⟨.invalidState, "local account limit exceeded"⟩)
  let store ← read
  let revisions ← ofExcept (store.refreshRevisions.withAccounts store.accounts accounts)
  let gateway := store.gateway.retainAccountRoutes accounts
  let codec := services.codec
  let gatewayText ← ofExcept (codec.serializeState codec.gateway gateway)
  let accountsText ← ofExcept (codec.serializeState codec.account.list accounts)
  let trashText ← ofExcept (codec.serializeState codec.trashed.list trash)
  let automationsText ← ofExcept (codec.serializeState codec.automations automations)
  let revisionsText ← ofExcept (codec.serializeState codec.refreshRevisions revisions)
  replaceStateJsonWithAccountPurge [(stateGateway, gatewayText), (stateAccounts, accountsText),
    (stateAccountTrash, trashText), (stateAutomations, automationsText),
    (stateRefreshRevisions, revisionsText)] permanentlyDeletedIds []
  modify fun store => { store with
    accounts, gateway, automations, accountTrash := trash, refreshRevisions := revisions }
  notifyRefreshChanged

/-- The records of the ids, or the error of the first that is missing. -/
def eachFound {Value : Type} (find : String → Option Value) (ids : List String) :
    Except LocalPoolError (List Value) :=
  ids.mapM fun id =>
    match find id with
    | some value => .ok value
    | none => .error accountNotFound

def trashedAccount (store : LocalPoolStore Details) (accountId : String) :
    Option (TrashedLocalAccount Details) :=
  store.accountTrash.find? (·.record.account.id = accountId)

def trashAccounts (services : StoreServices Details) (accountIds : List String)
    (automations : AutomationRecords Details) (trashedAtMs : Nat) : Operation Details Unit := do
  let store ← read
  let records ← ofExcept (eachFound store.account accountIds)
  let trash := store.accountTrash ++ records.map fun record => ⟨record, trashedAtMs⟩
  let accounts := store.accounts.filter fun account => !accountIds.contains account.account.id
  replaceAccountInventory services accounts trash automations []

def restoreTrashedAccounts (services : StoreServices Details) (accountIds : List String) :
    Operation Details Unit := do
  let store ← read
  let entries ← ofExcept (eachFound store.trashedAccount accountIds)
  let accounts := store.accounts ++ entries.map fun entry => entry.record.restored
  let trash := store.accountTrash.filter fun entry => !accountIds.contains entry.record.account.id
  replaceAccountInventory services accounts trash store.automations []

def purgeTrashedAccounts (services : StoreServices Details) (accountIds : List String) :
    Operation Details Unit := do
  let store ← read
  let _ ← ofExcept (eachFound store.trashedAccount accountIds)
  let trash := store.accountTrash.filter fun entry => !accountIds.contains entry.record.account.id
  replaceAccountInventory services store.accounts trash store.automations accountIds

/-- Three transactions in a row. -/
def resetLocalRecords (services : StoreServices Details) : Operation Details Unit := do
  let store ← read
  let ids := trashedIds store.accountTrash
  if ids.isEmpty then pure () else purgeTrashedAccounts services ids
  replaceGateway services services.defaultGateway
  replaceAllRecords services [] [] [] services.defaultAutomations

/-! ### Usage -/

def isLaterUsage (services : StoreServices Details) (previous : Option String)
    (incoming : String) : Bool :=
  match services.parseRfc3339 incoming with
  | none => false
  | some incoming => (previous.bind services.parseRfc3339).all fun previous => incoming > previous

/-- The first value that `same` finds, with its position. -/
def enumerated {Value : Type} (same : Value → Bool) (values : List Value) :
    Option (Nat × Value) :=
  values.zipIdx.find? (fun entry => same entry.1) |>.map Prod.swap

def touchedKey (services : StoreServices Details) (store : LocalPoolStore Details)
    (keyId time : String) : Option (Nat × LocalGatewayKeyRecord Details) :=
  ((enumerated (·.id = keyId) store.keys).filter fun entry =>
    isLaterUsage services entry.2.lastUsedAt time).map fun (index, key) =>
      (index, { key with lastUsedAt := some time })

def touchedSource (services : StoreServices Details) (store : LocalPoolStore Details)
    (sourceId time : String) : Option (Nat × ProviderSourceRecord Details) :=
  ((enumerated (·.id = sourceId) store.sources).filter fun entry =>
    isLaterUsage services entry.2.lastUsedAt time).map fun (index, source) =>
      (index, { source with lastUsedAt := some time })

/-- The item of a changed record. -/
def itemOf {Value : Type} (codec : StateCodec Details) (key : String)
    (encoding : Encoding Value) (touched : Option (Nat × Value)) :
    Except LocalPoolError (List StateItem) :=
  match touched with
  | none => .ok []
  | some (index, value) => do
    let text ← codec.serializeState encoding value
    .ok [(key, index, text)]

def setTouched {Value : Type} (touched : Option (Nat × Value)) (values : List Value) :
    List Value :=
  match touched with
  | none => values
  | some (index, value) => values.set index value

def touchUsage (services : StoreServices Details) (keyId sourceId time : String) :
    Operation Details Unit := do
  let store ← read
  let source := touchedSource services store sourceId time
  let key := touchedKey services store keyId time
  let codec := services.codec
  let sourceItem ← ofExcept (itemOf codec stateSources codec.source source)
  let keyItem ← ofExcept (itemOf codec stateKeys codec.key key)
  replaceStateItems (sourceItem ++ keyItem) []
  -- published only after the commit; no whole list is written
  modify fun store => { store with
    sources := setTouched source store.sources
    keys := setTouched key store.keys }

/-- The fast path of observations: registration changes take the fenced inventory path. -/
def persistAccountUsage (services : StoreServices Details) (account : LocalAccountRecord Details)
    (keyId time : String) (automations : AutomationRecords Details) : Operation Details Unit := do
  let store ← read
  match enumerated (·.account.id = account.account.id) store.accounts with
  | none => throw accountNotFound
  | some (index, previous) =>
    ofExcept (ensure (sameAccountScope previous account)
      ⟨.conflict, "usage cannot change account registration"⟩)
    let eligibilityChanged := previous.account.isAutomaticQuotaMonitoringEligible ≠
      account.account.isAutomaticQuotaMonitoringEligible
    let key := touchedKey services store keyId time
    let codec := services.codec
    let accountItem ← ofExcept (itemOf codec stateAccounts codec.account
      (if previous ≠ account then some (index, account) else none))
    let keyItem ← ofExcept (itemOf codec stateKeys codec.key key)
    let entries ← ofExcept (entryIf codec (automations ≠ store.automations) stateAutomations
      codec.automations automations)
    replaceStateItems (accountItem ++ keyItem) entries
    modify fun store => { store with
      accounts := store.accounts.set index account
      keys := setTouched key store.keys
      automations }
    notifyIf eligibilityChanged

/-! ### Refresh fences -/

def accountRefreshScope (store : LocalPoolStore Details) (accountId : String) :
    Except LocalPoolError (LocalAccountRecord Details × AccountRefreshFence) :=
  match store.account accountId with
  | none => .error accountNotFound
  | some account =>
    match store.refreshRevisions.accounts[accountId]? with
    | none => .error invalidRevisions
    | some revision => .ok (account, ⟨accountId, revision, store.refreshRevisions.configuration⟩)

def ensureAccountRefreshCurrent (store : LocalPoolStore Details) (expected : AccountRefreshFence) :
    Except LocalPoolError Unit :=
  if store.refreshRevisions.accounts[expected.accountId]? ≠ some expected.revision ∨
      store.refreshRevisions.configuration ≠ expected.configurationRevision then
    .error ⟨.conflict, "account changed during refresh"⟩
  else .ok ()

/-- `apply` reduces only its observation against the latest record. -/
def applyAccountRefresh {Result : Type} (services : StoreServices Details)
    (expected : AccountRefreshFence)
    (apply : LocalAccountRecord Details →
      Except LocalPoolError (LocalAccountRecord Details × Result)) :
    Operation Details (AppliedAccountRefresh Details Result) := do
  let store ← read
  ofExcept (store.ensureAccountRefreshCurrent expected)
  match store.account expected.accountId with
  | none => throw invalidRevisions
  | some previousAccount =>
    let (account, refreshResult) ← ofExcept (apply previousAccount)
    ofExcept (ensure (account.account.id = previousAccount.account.id &&
        sameAccountScope previousAccount account)
      ⟨.invalidState, "refresh cannot change account configuration"⟩)
    upsertAccount services account
    pure ⟨previousAccount, account, refreshResult⟩

def persistRefreshRevisions (services : StoreServices Details) (revisions : RefreshRevisions) :
    Operation Details Unit := do
  let store ← read
  if revisions = store.refreshRevisions then pure ()
  else
    let text ← ofExcept (services.codec.serializeState services.codec.refreshRevisions revisions)
    replaceStateJson [(stateRefreshRevisions, text)]
    modify fun store => { store with refreshRevisions := revisions }
    notifyRefreshChanged

/-- Even failed or rolled-back mutations retire pre-existing reads. -/
def invalidateAccountRefresh (services : StoreServices Details) (accountIds : List String) :
    Operation Details Unit := do
  let store ← read
  let revisions ← ofExcept (store.refreshRevisions.invalidated accountIds)
  persistRefreshRevisions services revisions

def invalidateRefreshConfiguration (services : StoreServices Details) :
    Operation Details Unit := do
  let store ← read
  let revisions ← ofExcept store.refreshRevisions.reconfigured
  persistRefreshRevisions services revisions

def source (store : LocalPoolStore Details) (sourceId : String) :
    Option (ProviderSourceRecord Details) :=
  store.sources.find? (·.id = sourceId)

def ensureSourceRefreshCurrent (store : LocalPoolStore Details) (fence : SourceRefreshFence) :
    Except LocalPoolError Unit :=
  if store.sourceRefreshRevisions.sources[fence.sourceId]? ≠ some fence.revision then
    .error ⟨.conflict, "source changed during refresh"⟩
  else .ok ()

def invalidateSourceRefresh (services : StoreServices Details) (sourceId : String) :
    Operation Details Unit := do
  let store ← read
  let revisions ← ofExcept (store.sourceRefreshRevisions.invalidated sourceId)
  let text ← ofExcept (services.codec.serializeState services.codec.sourceRevisions revisions)
  replaceStateJson [(stateSourceRevisions, text)]
  modify fun store => { store with sourceRefreshRevisions := revisions }
  notifyRefreshChanged

/-- Only this observation bypasses the configuration revisions. -/
def applySourceRefresh (services : StoreServices Details) (fence : SourceRefreshFence)
    (apply : ProviderSourceRecord Details → Except LocalPoolError (ProviderSourceRecord Details)) :
    Operation Details (ProviderSourceRecord Details) := do
  let store ← read
  ofExcept (store.ensureSourceRefreshCurrent fence)
  match enumerated (·.id = fence.sourceId) store.sources with
  | none => throw invalidSourceRevisions
  | some (index, previous) =>
    let source ← ofExcept (apply previous)
    ofExcept (ensure (source.id = fence.sourceId) invalidSourceRevisions)
    let sources := store.sources.set index source
    let text ← ofExcept (services.codec.serializeState services.codec.source.list sources)
    replaceStateJson [(stateSources, text)]
    modify fun store => { store with sources }
    notifyRefreshChanged
    pure source

end LocalPoolStore

/-! ### Requests -/

/-- A call of the store. The routes of a replacement come with a copy of the store's own
gateway settings. A reset is three calls in a row. -/
inductive StoreRequest (Details : Type) where
  | replaceAllRecords (sources : List (ProviderSourceRecord Details))
      (accounts : List (LocalAccountRecord Details)) (keys : List (LocalGatewayKeyRecord Details))
      (automations : AutomationRecords Details)
  | replaceRecords (sources : List (ProviderSourceRecord Details))
      (keys : List (LocalGatewayKeyRecord Details))
  | replaceAccountsAndKeys (accounts : List (LocalAccountRecord Details))
      (keys : List (LocalGatewayKeyRecord Details))
  | replacePoolRecords (sources : List (ProviderSourceRecord Details))
      (accounts : List (LocalAccountRecord Details)) (keys : List (LocalGatewayKeyRecord Details))
  | replaceAutomations (automations : AutomationRecords Details)
  | replaceAccountRoutes (accounts : List (LocalAccountRecord Details))
      (accountRoutes : List AccountRouteGroup) (poolRouting : Details)
      (automations : AutomationRecords Details)
  | deleteAccountsState (accountIds : List String) (accounts : List (LocalAccountRecord Details))
      (keys : List (LocalGatewayKeyRecord Details)) (automations : AutomationRecords Details)
  | upsertSource (source : ProviderSourceRecord Details)
  | upsertKey (key : LocalGatewayKeyRecord Details)
  | upsertAccount (account : LocalAccountRecord Details)
  | restoreAccountIfCurrent (previous attempted : LocalAccountRecord Details)
  | blockAccountsForTeam (accountIds : List String)
  | updateClientAuthObservation (accountId : String) (status : Option String)
      (loginRedirectAtMs : Option Nat)
  | recoverAccountLocally (accountId : String) (confirmed : Bool)
  | replaceGateway (gateway : GatewaySettings Details)
  | setGatewayEnabled (enabled : Bool)
  | trashAccounts (accountIds : List String) (automations : AutomationRecords Details)
      (trashedAtMs : Nat)
  | restoreTrashedAccounts (accountIds : List String)
  | purgeTrashedAccounts (accountIds : List String)
  | touchUsage (keyId sourceId time : String)
  | persistAccountUsage (account : LocalAccountRecord Details) (keyId time : String)
      (automations : AutomationRecords Details)
  | applyAccountRefresh (expected : AccountRefreshFence)
      (apply : LocalAccountRecord Details → Except LocalPoolError (LocalAccountRecord Details))
  | invalidateAccountRefresh (accountIds : List String)
  | invalidateRefreshConfiguration
  | applySourceRefresh (fence : SourceRefreshFence)
      (apply : ProviderSourceRecord Details → Except LocalPoolError (ProviderSourceRecord Details))
  | invalidateSourceRefresh (sourceId : String)

namespace LocalPoolStore

variable {Details : Type} [DecidableEq Details]

def serve (services : StoreServices Details) : StoreRequest Details → Operation Details Unit
  | .replaceAllRecords sources accounts keys automations =>
    replaceAllRecords services sources accounts keys automations
  | .replaceRecords sources keys => replaceRecords services sources keys
  | .replaceAccountsAndKeys accounts keys => replaceAccountsAndKeys services accounts keys
  | .replacePoolRecords sources accounts keys => replacePoolRecords services sources accounts keys
  | .replaceAutomations automations => replaceAutomations services automations
  | .replaceAccountRoutes accounts accountRoutes poolRouting automations => do
    let store ← read
    replaceAccountRoutes services accounts { store.gateway with accountRoutes, poolRouting }
      automations
  | .deleteAccountsState accountIds accounts keys automations =>
    deleteAccountsState services accountIds accounts keys automations
  | .upsertSource source => upsertSource services source
  | .upsertKey key => upsertKey services key
  | .upsertAccount account => upsertAccount services account
  | .restoreAccountIfCurrent previous attempted => do
    let _ ← restoreAccountIfCurrent services previous attempted
  | .blockAccountsForTeam accountIds => do
    let _ ← blockAccountsForTeam services accountIds
  | .updateClientAuthObservation accountId status loginRedirectAtMs => do
    let _ ← updateClientAuthObservation services accountId status loginRedirectAtMs
  | .recoverAccountLocally accountId confirmed =>
    recoverAccountLocally services accountId confirmed
  | .replaceGateway gateway => replaceGateway services gateway
  | .setGatewayEnabled enabled => setGatewayEnabled services enabled
  | .trashAccounts accountIds automations trashedAtMs =>
    trashAccounts services accountIds automations trashedAtMs
  | .restoreTrashedAccounts accountIds => restoreTrashedAccounts services accountIds
  | .purgeTrashedAccounts accountIds => purgeTrashedAccounts services accountIds
  | .touchUsage keyId sourceId time => touchUsage services keyId sourceId time
  | .persistAccountUsage account keyId time automations =>
    persistAccountUsage services account keyId time automations
  | .applyAccountRefresh expected apply => do
    let _ ← applyAccountRefresh services expected fun account =>
      (apply account).map fun account => (account, ())
  | .invalidateAccountRefresh accountIds => invalidateAccountRefresh services accountIds
  | .invalidateRefreshConfiguration => invalidateRefreshConfiguration services
  | .applySourceRefresh fence apply => do
    let _ ← applySourceRefresh services fence apply
  | .invalidateSourceRefresh sourceId => invalidateSourceRefresh services sourceId

end LocalPoolStore

end ZenithRelay.LocalPool
