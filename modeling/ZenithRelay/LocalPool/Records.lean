import ZenithRelay.Accounts.Tokens
import ZenithRelay.Foundations.BTreeMap
import ZenithRelay.Foundations.Json

/-!
# Records of the local pool

The fields that the store reads are written out. `Details` stands for the rest of a
record, which the store only compares, copies and saves.
-/

set_option autoImplicit false

namespace ZenithRelay.LocalPool

open Accounts

inductive ErrorCode where
  | io
  | conflict
  | gatewayUnavailable
  | poolModelsUnavailable
  | sourceTestFailed
  | invalidState
  | notFound
  | profileRestoreBlocked
  | recoveryRequired
  | secretStoreUnavailable
  | unsupportedSchema
  deriving DecidableEq, Repr

structure LocalPoolError where
  code : ErrorCode
  message : String
  deriving DecidableEq, Repr

def accountNotFound : LocalPoolError := ⟨.notFound, "account not found"⟩

/-- Where the caller's own failure is reported as an invalid state. -/
def LocalPoolError.ofInvalidState (message : String) : LocalPoolError := ⟨.invalidState, message⟩

def maxLocalAccounts : Nat := 1024

structure AccountIdentity where
  stableIndex : String
  identityHash : String
  organizationHash : Option String
  deriving DecidableEq, Repr

inductive AccountAuthMode where
  | oAuth
  | apiKey
  | importedToken
  deriving DecidableEq, Repr

inductive AccountHealthState where
  | unknown
  | healthy
  | degraded
  | unhealthy
  | blocked
  deriving DecidableEq, Repr

structure AccountRecord (Details : Type) where
  id : String
  identity : AccountIdentity
  authMode : AccountAuthMode
  authState : AccountAuthState
  health : AccountHealthState
  sourceId : String
  secretRefs : List String
  enabled : Bool
  inPool : Bool
  draining : Bool
  createdAtMs : Nat
  lastErrorCode : Option String
  details : Details
  deriving DecidableEq, Repr

structure LocalAccountRecord (Details : Type) where
  account : AccountRecord Details
  imagePoolEnabled : Bool
  recovery : Option Details
  clientAuthStatus : Option String
  lastClientLoginRedirectAtMs : Option Nat
  details : Details
  deriving DecidableEq, Repr

structure TrashedLocalAccount (Details : Type) where
  record : LocalAccountRecord Details
  trashedAtMs : Nat
  deriving DecidableEq, Repr

structure ProviderSourceRecord (Details : Type) where
  id : String
  enabled : Bool
  baseUrl : String
  secretRef : String
  wireApi : Details
  protocolBindings : Details
  protocolConfig : Details
  models : List String
  lastUsedAt : Option String
  lastTestStatus : Option String
  details : Details
  deriving DecidableEq, Repr

structure LocalGatewayKeyRecord (Details : Type) where
  id : String
  lastUsedAt : Option String
  details : Details
  deriving DecidableEq, Repr

structure AccountRouteGroup where
  accountIds : List String
  selectedAccountId : String
  notesAccountId : Option String
  deriving DecidableEq, Repr

structure GatewaySettings (Details : Type) where
  accountRoutes : List AccountRouteGroup
  poolRouting : Details
  enabled : Bool
  commonProxyConfigured : Bool
  accountProxyRequired : Bool
  quotaRequestTimeoutSeconds : Nat
  details : Details
  deriving DecidableEq, Repr

abbrev AutomationRecords (Details : Type) : Type := Details

variable {Details : Type}

def requiresFreshLogin : AccountAuthState → Bool
  | .requiresReauth .reusedRefreshToken => false
  | .requiresReauth _ => true
  | _ => false

def automaticQuotaMonitoringEligible (enabled : Bool) (authState : AccountAuthState) : Bool :=
  enabled && !requiresFreshLogin authState

def AccountRecord.isAutomaticQuotaMonitoringEligible (account : AccountRecord Details) : Bool :=
  automaticQuotaMonitoringEligible account.enabled account.authState

namespace LocalAccountRecord

/-- Equality up to what the client's login watchdog observed. -/
def matchesRollbackSnapshot [DecidableEq Details]
    (stored attempted : LocalAccountRecord Details) : Bool :=
  { stored with
    clientAuthStatus := attempted.clientAuthStatus
    lastClientLoginRedirectAtMs := attempted.lastClientLoginRedirectAtMs } = attempted

/-- Restoring inventory must not start requests, monitoring or wake tasks. -/
def restored (record : LocalAccountRecord Details) : LocalAccountRecord Details :=
  { record with
    account := { record.account with enabled := false, inPool := false, draining := false }
    imagePoolEnabled := false }

end LocalAccountRecord

namespace GatewaySettings

def accountRouteGroup (gateway : GatewaySettings Details) (accountId : String) :
    Option AccountRouteGroup :=
  gateway.accountRoutes.find? fun group => group.accountIds.contains accountId

def accountRouteIsSelected (gateway : GatewaySettings Details) (accountId : String) : Bool :=
  (gateway.accountRouteGroup accountId).all fun group => group.selectedAccountId = accountId

/-- Keeps the groups whose accounts all exist. -/
def retainAccountRoutes (gateway : GatewaySettings Details)
    (accounts : List (LocalAccountRecord Details)) : GatewaySettings Details :=
  if gateway.accountRoutes.isEmpty then gateway
  else
    { gateway with
      accountRoutes := gateway.accountRoutes.filter fun group =>
        group.accountIds.all fun id => accounts.any fun account => account.account.id = id }

end GatewaySettings

def accountIds (accounts : List (LocalAccountRecord Details)) : List String :=
  accounts.map (·.account.id)

def trashedIds (trash : List (TrashedLocalAccount Details)) : List String :=
  trash.map (·.record.account.id)

/-- Ids are distinct over both lists, and no active account has the identity of a trashed one. -/
def validateInventory (accounts : List (LocalAccountRecord Details))
    (trash : List (TrashedLocalAccount Details)) : Except LocalPoolError Unit :=
  if ¬(accountIds accounts ++ trashedIds trash).Nodup ∨
      accounts.any fun account => trash.any fun entry =>
        entry.record.account.identity.identityHash = account.account.identity.identityHash then
    .error ⟨.conflict,
      "account already exists in the inventory or trash; restore it before importing"⟩
  else .ok ()

end ZenithRelay.LocalPool
