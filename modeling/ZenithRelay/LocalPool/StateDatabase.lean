import ZenithRelay.Foundations.Fallible
import ZenithRelay.LocalPool.RefreshRevisions

/-!
# The saved state

`app_state` holds one JSON text for each part of the store, and `app_state_items` the
newer JSON of single items of the three inventories, by their position. A reload puts
the items over the lists.
-/

set_option autoImplicit false

namespace ZenithRelay.LocalPool

def stateGateway : String := "gateway"
def stateSources : String := "sources"
def stateAccounts : String := "accounts"
def stateAccountTrash : String := "account_trash"
def stateKeys : String := "keys"
def stateAutomations : String := "automations"
def stateRefreshRevisions : String := "account_refresh_revisions"
def stateSourceRevisions : String := "source_refresh_revisions"
def maxStateJsonBytes : Nat := 16 * 1024 * 1024

/-- How values of one type become JSON and are read back. -/
structure Encoding (Value : Type) where
  encode : Value → Option Json
  decode : Json → Option Value

/-- `Vec<Value>` -/
def Encoding.list {Value : Type} (encoding : Encoding Value) : Encoding (List Value) where
  encode values := (values.mapM encoding.encode).map Json.array
  decode
    | .array items => items.mapM encoding.decode
    | _ => none

/-- The JSON texts, and what the records are as JSON. -/
structure StateCodec (Details : Type) where
  print : Json → Option String
  parse : String → Option Json
  gateway : Encoding (GatewaySettings Details)
  source : Encoding (ProviderSourceRecord Details)
  account : Encoding (LocalAccountRecord Details)
  trashed : Encoding (TrashedLocalAccount Details)
  key : Encoding (LocalGatewayKeyRecord Details)
  automations : Encoding (AutomationRecords Details)
  refreshRevisions : Encoding RefreshRevisions
  sourceRevisions : Encoding SourceRefreshRevisions

namespace StateCodec

variable {Details Value : Type} (codec : StateCodec Details)

def serializeState (encoding : Encoding Value) (value : Value) : Except LocalPoolError String :=
  match (encoding.encode value).bind codec.print with
  | some text => .ok text
  | none => .error ⟨.invalidState, "local state serialization failed"⟩

/-- `serde_json::from_str` -/
def deserialize (encoding : Encoding Value) (text : String) : Option Value :=
  (codec.parse text).bind encoding.decode

end StateCodec

/-- The two tables of the saved state, each ordered by its primary key. -/
structure StateDatabase where
  appState : BTreeMap String String
  items : BTreeMap (String × Nat) String

abbrev StateEntry : Type := String × String

/-- State key, position and JSON of an item. -/
abbrev StateItem : Type := String × Nat × String

def invalidItems : LocalPoolError := ⟨.recoveryRequired, "local inventory observation is invalid"⟩

def inventoryKey (key : String) : Bool := key = "sources" || key = "accounts" || key = "keys"

def isStateKeyByte (character : Char) : Bool := character.isAlphanum || character = '_'

/-- The bytes of a longer character are no alphanumeric ASCII bytes. -/
def validateStateKey (key : String) : Except LocalPoolError Unit :=
  if key.isEmpty || key.utf8ByteSize > 64 || !key.toList.all isStateKeyByte then
    .error ⟨.invalidState, "local state key is invalid"⟩
  else .ok ()

namespace StateDatabase

variable {Details Value : Type}

/-! ### Reading -/

/-- The list of an inventory with the items so far, read on its first item. -/
def updatedItems (codec : StateCodec Details) (base : String) (updated : Option (List Json)) :
    Except LocalPoolError (List Json) :=
  match updated with
  | some items => .ok items
  | none =>
    match codec.parse base with
    | some (.array items) => .ok items
    | _ => .error invalidItems

/-- One row of `app_state_items` over the lists changed so far. -/
def overlayRow (codec : StateCodec Details) (entries : BTreeMap String String)
    (updated : BTreeMap String (List Json)) (row : (String × Nat) × String) :
    Except LocalPoolError (BTreeMap String (List Json)) :=
  let ((key, position), json) := row
  match entries[key]? with
  | none => .ok updated
  | some base => do
    let items ← updatedItems codec base updated[key]?
    if position < items.length then
      match codec.parse json with
      | some value => .ok (updated.insert key (items.set position value))
      | none => .error invalidItems
    else .error invalidItems

def writeBack (codec : StateCodec Details) (entries : BTreeMap String String)
    (changed : String × List Json) : Except LocalPoolError (BTreeMap String String) :=
  match codec.print (.array changed.2) with
  | some text => .ok (entries.insert changed.1 text)
  | none => .error invalidItems

def overlay (codec : StateCodec Details) (database : StateDatabase)
    (entries : BTreeMap String String) : Except LocalPoolError (BTreeMap String String) :=
  if !entries.keys.any inventoryKey then .ok entries
  else do
    let updated ← database.items.toList.foldlM (overlayRow codec entries) ∅
    updated.toList.foldlM (writeBack codec) entries

def stateJsonEntries (codec : StateCodec Details) (database : StateDatabase) :
    Except LocalPoolError (BTreeMap String String) :=
  database.overlay codec database.appState

/-! ### Writing -/

/-- Saves the entries, and drops the items of each. -/
def withEntries (database : StateDatabase) (entries : List StateEntry) : StateDatabase :=
  entries.foldl (fun database (key, text) =>
    { appState := database.appState.insert key text
      items := database.items.filter fun (stateKey, _) _ => stateKey ≠ key }) database

/-- `items::write`: an item needs its inventory. -/
def withItem (database : StateDatabase) (item : StateItem) : Except LocalPoolError StateDatabase :=
  let (key, position, json) := item
  if !inventoryKey key || json.utf8ByteSize > maxStateJsonBytes then .error invalidItems
  else if (position : Int) > i64Max then .error invalidItems
  else if !database.appState.contains key then .error invalidItems
  else .ok { database with items := database.items.insert (key, position) json }

/-- The tables after the transaction, if none of its statements is refused. -/
def replaced (database : StateDatabase) (entries : List StateEntry) (items : List StateItem) :
    Except LocalPoolError StateDatabase :=
  items.foldlM withItem (database.withEntries entries)

def validateEntry (entry : StateEntry) : Except LocalPoolError Unit := do
  validateStateKey entry.1
  if entry.2.utf8ByteSize > maxStateJsonBytes then
    throw ⟨.invalidState, "local state value is too large"⟩

end StateDatabase

/-! ### Loading -/

structure PersistedState (Details : Type) where
  gateway : GatewaySettings Details
  sources : List (ProviderSourceRecord Details)
  accounts : List (LocalAccountRecord Details)
  accountTrash : List (TrashedLocalAccount Details)
  keys : List (LocalGatewayKeyRecord Details)
  automations : AutomationRecords Details
  refreshRevisions : Option RefreshRevisions
  sourceRefreshRevisions : Option SourceRefreshRevisions

section
variable {Details Value : Type} (codec : StateCodec Details)

def loadOptionalStateFromEntries (encoding : Encoding Value) (entries : BTreeMap String String)
    (key : String) : Except LocalPoolError (Option Value) :=
  match entries[key]? with
  | none => .ok none
  | some content =>
    match codec.deserialize encoding content with
    | some value => .ok (some value)
    | none => .error ⟨.recoveryRequired, "local database state '" ++ key ++ "' is invalid"⟩

def loadStateFromEntries (encoding : Encoding Value) (entries : BTreeMap String String)
    (key : String) : Except LocalPoolError Value := do
  match ← loadOptionalStateFromEntries codec encoding entries key with
  | some value => .ok value
  | none => .error ⟨.recoveryRequired, "local database state '" ++ key ++ "' is missing"⟩

/-- The state of a database that holds one. -/
def loadState (database : StateDatabase) : Except LocalPoolError (PersistedState Details) := do
  let entries ← database.stateJsonEntries codec
  let gateway ← loadStateFromEntries codec codec.gateway entries stateGateway
  let sources ← loadStateFromEntries codec codec.source.list entries stateSources
  let accounts ← loadStateFromEntries codec codec.account.list entries stateAccounts
  let accountTrash ← loadOptionalStateFromEntries codec codec.trashed.list entries stateAccountTrash
  let keys ← loadStateFromEntries codec codec.key.list entries stateKeys
  let automations ← loadStateFromEntries codec codec.automations entries stateAutomations
  let sourceRefreshRevisions ←
    loadOptionalStateFromEntries codec codec.sourceRevisions entries stateSourceRevisions
  let refreshRevisions ←
    loadOptionalStateFromEntries codec codec.refreshRevisions entries stateRefreshRevisions
  .ok ⟨gateway, sources, accounts, accountTrash.getD [], keys, automations, refreshRevisions,
    sourceRefreshRevisions⟩

end

end ZenithRelay.LocalPool
