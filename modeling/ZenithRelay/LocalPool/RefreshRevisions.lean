import ZenithRelay.LocalPool.Records

/-!
# Revisions of refreshed accounts and sources

A revision is permission for one reading of a record. Every revision comes from one
clock, so a record that returns to an earlier value has another revision.
-/

set_option autoImplicit false

namespace ZenithRelay.LocalPool

variable {Details : Type} [DecidableEq Details]

def invalidRevisions : LocalPoolError :=
  ⟨.recoveryRequired, "account refresh revisions are invalid"⟩

def invalidSourceRevisions : LocalPoolError :=
  ⟨.recoveryRequired, "source refresh revisions are invalid"⟩

/-- The fields whose change ends every earlier reading. -/
def sameAccountScope (previous account : LocalAccountRecord Details) : Bool :=
  previous.account.identity = account.account.identity &&
    previous.account.authMode = account.account.authMode &&
    previous.account.sourceId = account.account.sourceId &&
    previous.account.secretRefs = account.account.secretRefs &&
    previous.account.createdAtMs = account.account.createdAtMs &&
    previous.account.enabled = account.account.enabled &&
    previous.recovery = account.recovery

structure RefreshRevisions where
  clock : Nat
  configuration : Nat
  accounts : BTreeMap String Nat
  deriving DecidableEq

namespace RefreshRevisions

/-- `RefreshRevisions::default()` -/
def empty : RefreshRevisions := ⟨0, 0, ∅⟩

/-- `Err` where `validate` refuses the revisions for these accounts. -/
def validate (revisions : RefreshRevisions) (accounts : List (LocalAccountRecord Details)) :
    Except LocalPoolError Unit :=
  if revisions.configuration > revisions.clock ∨ revisions.accounts.size ≠ accounts.length ∨
      ¬(accountIds accounts).Nodup ∨
      accounts.any fun account =>
        (revisions.accounts[account.account.id]?).all fun revision =>
          revision = 0 || revision > revisions.clock then
    .error invalidRevisions
  else .ok ()

/-- The next revision is the new clock. -/
def allocateRevision (revisions : RefreshRevisions) : Except LocalPoolError RefreshRevisions :=
  if revisions.clock < u64Max then .ok { revisions with clock := revisions.clock + 1 }
  else .error invalidRevisions

/-- One account of the loop of `withAccounts`. -/
def withAccount (revisions : RefreshRevisions) (previous : List (LocalAccountRecord Details))
    (updated : RefreshRevisions) (account : LocalAccountRecord Details) :
    Except LocalPoolError RefreshRevisions := do
  let id := account.account.id
  let (revision, updated) ←
    -- of several previous accounts with the id the map keeps the last
    if (previous.reverse.find? (·.account.id = id)).any (sameAccountScope · account) then
      match revisions.accounts[id]? with
      | some revision => .ok (revision, updated)
      | none => .error invalidRevisions
    else do
      let updated ← updated.allocateRevision
      .ok (updated.clock, updated)
  if updated.accounts.contains id then .error invalidRevisions
  else .ok { updated with accounts := updated.accounts.insert id revision }

def withAccounts (revisions : RefreshRevisions) (previous accounts : List (LocalAccountRecord Details)) :
    Except LocalPoolError RefreshRevisions :=
  accounts.foldlM (revisions.withAccount previous) { revisions with accounts := ∅ }

/-- `RefreshRevisions::initialize` -/
def initialized (accounts : List (LocalAccountRecord Details)) :
    Except LocalPoolError RefreshRevisions :=
  empty.withAccounts [] accounts

/-- The settings that every account reading depends on. -/
def sameFencedSettings (previous gateway : GatewaySettings Details) : Bool :=
  previous.commonProxyConfigured = gateway.commonProxyConfigured &&
    previous.accountProxyRequired = gateway.accountProxyRequired &&
    previous.quotaRequestTimeoutSeconds = gateway.quotaRequestTimeoutSeconds

/-- A new revision for the configuration. -/
def reconfigured (revisions : RefreshRevisions) : Except LocalPoolError RefreshRevisions := do
  let updated ← revisions.allocateRevision
  .ok { updated with configuration := updated.clock }

def withGateway (revisions : RefreshRevisions) (previous gateway : GatewaySettings Details) :
    Except LocalPoolError RefreshRevisions :=
  if sameFencedSettings previous gateway then .ok revisions else revisions.reconfigured

/-- A new revision for each known account of the list, in turn. -/
def invalidated (revisions : RefreshRevisions) :
    List String → Except LocalPoolError RefreshRevisions
  | [] => .ok revisions
  | id :: rest =>
    if revisions.accounts.contains id then do
      let updated ← revisions.allocateRevision
      { updated with accounts := updated.accounts.insert id updated.clock }.invalidated rest
    else revisions.invalidated rest

end RefreshRevisions

def sameSourceScope (previous source : ProviderSourceRecord Details) : Bool :=
  previous.enabled = source.enabled && previous.baseUrl = source.baseUrl &&
    previous.secretRef = source.secretRef && previous.wireApi = source.wireApi &&
    previous.protocolBindings = source.protocolBindings &&
    previous.protocolConfig = source.protocolConfig && previous.models = source.models &&
    (previous.lastTestStatus = some "manual") = (source.lastTestStatus = some "manual")

structure SourceRefreshRevisions where
  clock : Nat
  sources : BTreeMap String Nat
  deriving DecidableEq

namespace SourceRefreshRevisions

def allocateRevision (revisions : SourceRefreshRevisions) :
    Except LocalPoolError SourceRefreshRevisions :=
  if revisions.clock < u64Max then .ok { revisions with clock := revisions.clock + 1 }
  else .error invalidSourceRevisions

def withSource (revisions : SourceRefreshRevisions)
    (previous : List (ProviderSourceRecord Details)) (updated : SourceRefreshRevisions)
    (source : ProviderSourceRecord Details) : Except LocalPoolError SourceRefreshRevisions := do
  let (revision, updated) ←
    if (previous.reverse.find? (·.id = source.id)).any (sameSourceScope · source) then
      match revisions.sources[source.id]? with
      | some revision => .ok (revision, updated)
      | none => .error invalidSourceRevisions
    else do
      let updated ← updated.allocateRevision
      .ok (updated.clock, updated)
  if updated.sources.contains source.id then .error invalidSourceRevisions
  else .ok { updated with sources := updated.sources.insert source.id revision }

def withSources (revisions : SourceRefreshRevisions)
    (previous sources : List (ProviderSourceRecord Details)) :
    Except LocalPoolError SourceRefreshRevisions :=
  sources.foldlM (revisions.withSource previous) { revisions with sources := ∅ }

/-- A new revision for the source if it is known. -/
def invalidated (revisions : SourceRefreshRevisions) (id : String) :
    Except LocalPoolError SourceRefreshRevisions := do
  if revisions.sources.contains id then
    let updated ← revisions.allocateRevision
    .ok { updated with sources := updated.sources.insert id updated.clock }
  else .ok revisions

end SourceRefreshRevisions

end ZenithRelay.LocalPool
