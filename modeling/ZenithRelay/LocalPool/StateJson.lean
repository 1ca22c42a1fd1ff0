import ZenithRelay.Foundations.JsonPrinter
import ZenithRelay.LocalPool.StoreProperties

/-!
# The saved state as JSON

Encodings of values and of records by their fields, each read back. They make up the JSON
of records that have no further details.
-/

set_option autoImplicit false

namespace ZenithRelay.LocalPool

variable {Value First Rest : Type}

namespace Encoding

/-- What is encoded is decoded. -/
def Reads (encoding : Encoding Value) : Prop :=
  ∀ value json, encoding.encode value = some json → encoding.decode json = some value

/-! ### Values -/

def text : Encoding String where
  encode value := some (.string value)
  decode := Json.asStr

def flag : Encoding Bool where
  encode value := some (.bool value)
  decode
    | .bool value => some value
    | _ => none

def count : Encoding Nat where
  encode value :=
    if value ≤ u64Max then some (.number (String.ofList (Nat.toDigits 10 value))) else none
  decode := Json.asU64

/-- `Option<Value>` of a value that is no null. -/
def optional (encoding : Encoding Value) : Encoding (Option Value) where
  encode
    | none => some .null
    | some value => (encoding.encode value).filter (!·.isNull)
  decode
    | .null => some none
    | json => (encoding.decode json).map some

/-- An enumeration, each value as its word. -/
def words (values : List Value) (word : Value → String) : Encoding Value where
  encode value := some (.string (word value))
  decode json := json.asStr.bind fun found => values.find? fun value => word value = found

end Encoding

/-! ### Records -/

/-- Fields in their order. -/
structure FieldsEncoding (Value : Type) where
  encode : Value → Option (List (String × Json))
  decode : List (String × Json) → Option Value

namespace FieldsEncoding

def Reads (fields : FieldsEncoding Value) : Prop :=
  ∀ value entries, fields.encode value = some entries → fields.decode entries = some value

def empty : FieldsEncoding Unit where
  encode _ := some []
  decode
    | [] => some ()
    | _ => none

def cons (name : String) (encoding : Encoding First) (rest : FieldsEncoding Rest) :
    FieldsEncoding (First × Rest) where
  encode value := do
    let json ← encoding.encode value.1
    let entries ← rest.encode value.2
    some ((name, json) :: entries)
  decode
    | (key, json) :: entries =>
      if key = name then do
        let first ← encoding.decode json
        let others ← rest.decode entries
        some (first, others)
      else none
    | [] => none

/-- A record of the fields. -/
def object (fields : FieldsEncoding First) (build : First → Value) (parts : Value → First) :
    Encoding Value where
  encode value := (fields.encode (parts value)).map Json.object
  decode json := (json.asObject.bind fields.decode).map build

end FieldsEncoding

/-- A map, as an object of its entries. -/
def Encoding.map (encoding : Encoding Value) : Encoding (BTreeMap String Value) where
  encode map := (map.toList.mapM fun entry =>
    (encoding.encode entry.2).map (entry.1, ·)).map Json.object
  decode json := (json.asObject.bind fun fields => fields.mapM fun field =>
    (encoding.decode field.2).map (field.1, ·)).map (Std.ExtTreeMap.ofList · compare)

private theorem ofList_toList (map : BTreeMap String Value) :
    Std.ExtTreeMap.ofList map.toList compare = map := by
  refine BTreeMap.ext_lookup fun key => ?_
  cases found : map[key]? with
  | some value =>
    exact Std.ExtTreeMap.getElem?_ofList_of_mem (Std.compare_self) Std.ExtTreeMap.distinct_keys_toList
      (BTreeMap.mem_toList_iff.mpr found)
  | none =>
    refine Std.ExtTreeMap.getElem?_ofList_of_contains_eq_false ?_
    rw [← Bool.not_eq_true, List.contains_iff_mem]
    intro listed
    obtain ⟨⟨_, value⟩, member, rfl⟩ := List.mem_map.mp listed
    have held := BTreeMap.mem_toList_iff.mp member
    simp only at found
    rw [found] at held
    cases held

/-- A text of a value that can be printed. -/
def parsePrintable (text : String) : Option Json :=
  (Json.parse text.toList).filter fun value => value.compact.isSome

def printCompact (value : Json) : Option String := value.compact.map String.ofList

open Encoding FieldsEncoding

def plain : Encoding Unit := empty.object id id

def authModes : Encoding AccountAuthMode :=
  words [.oAuth, .apiKey, .importedToken] fun
    | .oAuth => "o_auth"
    | .apiKey => "api_key"
    | .importedToken => "imported_token"

def reauthReasons : Encoding Accounts.ReauthReason :=
  words [.invalidGrant, .reusedRefreshToken, .expiredRefreshToken, .invalidatedRefreshToken,
      .accessTokenExpired, .tokenRotationRecoveryRequired] fun
    | .invalidGrant => "invalid_grant"
    | .reusedRefreshToken => "reused_refresh_token"
    | .expiredRefreshToken => "expired_refresh_token"
    | .invalidatedRefreshToken => "invalidated_refresh_token"
    | .accessTokenExpired => "access_token_expired"
    | .tokenRotationRecoveryRequired => "token_rotation_recovery_required"

def authStateWord : Accounts.AccountAuthState → String
  | .unknown => "unknown"
  | .active => "active"
  | .degradedAccessOnly => "degraded_access_only"
  | .refreshing => "refreshing"
  | .error => "error"
  | .requiresReauth _ => "requires_reauth"

/-- Only the last state has a reason. -/
def authStates : Encoding Accounts.AccountAuthState where
  encode state :=
    let tag := ("state", Json.string (authStateWord state))
    match state with
    | .requiresReauth reason =>
      (reauthReasons.encode reason).map fun reason => .object [tag, ("reason", reason)]
    | _ => some (.object [tag])
  decode
    | .object [_, (_, reason)] => (reauthReasons.decode reason).map .requiresReauth
    | .object [(_, .string found)] =>
      [.unknown, .active, .degradedAccessOnly, .refreshing, .error].find? fun state =>
        authStateWord state = found
    | _ => none

def healthStates : Encoding AccountHealthState :=
  words [.unknown, .healthy, .degraded, .unhealthy, .blocked] fun
    | .unknown => "unknown"
    | .healthy => "healthy"
    | .degraded => "degraded"
    | .unhealthy => "unhealthy"
    | .blocked => "blocked"

def identities : Encoding AccountIdentity :=
  (cons "stableIndex" text (cons "identityHash" text
    (cons "organizationHash" text.optional empty))).object
    (fun parts => ⟨parts.1, parts.2.1, parts.2.2.1⟩)
    fun identity => (identity.stableIndex, identity.identityHash, identity.organizationHash, ())

def accountRecords : Encoding (AccountRecord Unit) :=
  (cons "id" text (cons "identity" identities (cons "authMode" authModes
    (cons "authState" authStates (cons "health" healthStates (cons "sourceId" text
    (cons "secretRefs" text.list (cons "enabled" flag (cons "inPool" flag
    (cons "draining" flag (cons "createdAtMs" count
    (cons "lastErrorCode" text.optional empty)))))))))))).object
    (fun ⟨id, identity, authMode, authState, health, sourceId, secretRefs, enabled, inPool,
      draining, createdAtMs, lastErrorCode, _⟩ => ⟨id, identity, authMode, authState, health,
      sourceId, secretRefs, enabled, inPool, draining, createdAtMs, lastErrorCode, ()⟩)
    fun record => (record.id, record.identity, record.authMode, record.authState, record.health,
      record.sourceId, record.secretRefs, record.enabled, record.inPool, record.draining,
      record.createdAtMs, record.lastErrorCode, ())

def localAccounts : Encoding (LocalAccountRecord Unit) :=
  (cons "account" accountRecords (cons "imagePoolEnabled" flag (cons "recovery" plain.optional
    (cons "clientAuthStatus" text.optional (cons "lastClientLoginRedirectAtMs" count.optional
    empty))))).object
    (fun ⟨account, imagePoolEnabled, recovery, clientAuthStatus, lastClientLoginRedirectAtMs, _⟩ =>
      ⟨account, imagePoolEnabled, recovery, clientAuthStatus, lastClientLoginRedirectAtMs, ()⟩)
    fun record => (record.account, record.imagePoolEnabled, record.recovery,
      record.clientAuthStatus, record.lastClientLoginRedirectAtMs, ())

def trashedAccounts : Encoding (TrashedLocalAccount Unit) :=
  (cons "record" localAccounts (cons "trashedAtMs" count empty)).object
    (fun ⟨record, trashedAtMs, _⟩ => ⟨record, trashedAtMs⟩)
    fun entry => (entry.record, entry.trashedAtMs, ())

def sourceRecords : Encoding (ProviderSourceRecord Unit) :=
  (cons "id" text (cons "enabled" flag (cons "baseUrl" text (cons "secretRef" text
    (cons "wireApi" plain (cons "protocolBindings" plain (cons "protocolConfig" plain
    (cons "models" text.list (cons "lastUsedAt" text.optional
    (cons "lastTestStatus" text.optional empty)))))))))).object
    (fun ⟨id, enabled, baseUrl, secretRef, wireApi, protocolBindings, protocolConfig, models,
      lastUsedAt, lastTestStatus, _⟩ => ⟨id, enabled, baseUrl, secretRef, wireApi,
      protocolBindings, protocolConfig, models, lastUsedAt, lastTestStatus, ()⟩)
    fun record => (record.id, record.enabled, record.baseUrl, record.secretRef, record.wireApi,
      record.protocolBindings, record.protocolConfig, record.models, record.lastUsedAt,
      record.lastTestStatus, ())

def gatewayKeys : Encoding (LocalGatewayKeyRecord Unit) :=
  (cons "id" text (cons "lastUsedAt" text.optional empty)).object
    (fun ⟨id, lastUsedAt, _⟩ => ⟨id, lastUsedAt, ()⟩) fun key => (key.id, key.lastUsedAt, ())

def routeGroups : Encoding AccountRouteGroup :=
  (cons "accountIds" text.list (cons "selectedAccountId" text
    (cons "notesAccountId" text.optional empty))).object
    (fun ⟨accountIds, selectedAccountId, notesAccountId, _⟩ =>
      ⟨accountIds, selectedAccountId, notesAccountId⟩)
    fun group => (group.accountIds, group.selectedAccountId, group.notesAccountId, ())

def gatewaySettings : Encoding (GatewaySettings Unit) :=
  (cons "accountRoutes" routeGroups.list (cons "poolRouting" plain (cons "enabled" flag
    (cons "commonProxyConfigured" flag (cons "accountProxyRequired" flag
    (cons "quotaRequestTimeoutSeconds" count empty)))))).object
    (fun ⟨accountRoutes, poolRouting, enabled, commonProxyConfigured, accountProxyRequired,
      quotaRequestTimeoutSeconds, _⟩ => ⟨accountRoutes, poolRouting, enabled,
      commonProxyConfigured, accountProxyRequired, quotaRequestTimeoutSeconds, ()⟩)
    fun gateway => (gateway.accountRoutes, gateway.poolRouting, gateway.enabled,
      gateway.commonProxyConfigured, gateway.accountProxyRequired,
      gateway.quotaRequestTimeoutSeconds, ())

def accountRevisions : Encoding RefreshRevisions :=
  (cons "clock" count (cons "configuration" count (cons "accounts" count.map empty))).object
    (fun ⟨clock, configuration, accounts, _⟩ => ⟨clock, configuration, accounts⟩)
    fun revisions => (revisions.clock, revisions.configuration, revisions.accounts, ())

def sourceRevisions : Encoding SourceRefreshRevisions :=
  (cons "clock" count (cons "sources" count.map empty)).object
    (fun ⟨clock, sources, _⟩ => ⟨clock, sources⟩)
    fun revisions => (revisions.clock, revisions.sources, ())

/-- The state of records without details. -/
def plainCodec : StateCodec Unit where
  print := printCompact
  parse := parsePrintable
  gateway := gatewaySettings
  source := sourceRecords
  account := localAccounts
  trashed := trashedAccounts
  key := gatewayKeys
  automations := plain
  refreshRevisions := accountRevisions
  sourceRevisions := sourceRevisions

end ZenithRelay.LocalPool
