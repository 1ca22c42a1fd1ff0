import ZenithRelay.Foundations.BTreeMap
import ZenithRelay.Foundations.Fallible
import ZenithRelay.Foundations.Text

/-!
# The secret store

A secret lives in the encrypted vault or, from before the vault was configured, in a
keyring entry under the hash of its reference or under the readable legacy name. Each
of the three locations is read, written and deleted as a whole.
-/

set_option autoImplicit false

namespace ZenithRelay.Secrets

open Fallible

/-- `is_ascii_ref`: every admitted character is a single byte. -/
def isAsciiRef (reference : String) (maxLen : Nat) : Bool :=
  reference ≠ "" && reference.utf8ByteSize ≤ maxLen &&
    reference.toList.all fun character =>
      character.isAlphanum || character == '-' || character == '_' || character == ':'

inductive SecretStoreError where
  | unsupportedReference
  | emptyValue
  | unavailable
  | recoveryRequired
  | io
  deriving DecidableEq, Repr

structure SecretStore where
  /-- Whether the vault has been configured in this process. -/
  configured : Bool
  vault : BTreeMap String String
  hashed : BTreeMap String String
  legacy : BTreeMap String String
  /-- The marker file of a completed keyring cleanup. -/
  migrated : Bool
  generation : UInt64

namespace SecretStore

abbrev Operation (Result : Type) : Type := Guarded SecretStore SecretStoreError Result

def validateSecretRef (secretRef : String) : Operation Unit :=
  if isAsciiRef secretRef 128 then pure () else throw .unsupportedReference

def bumpGeneration : Operation Unit :=
  modify fun store => { store with generation := store.generation + 1 }

/-! ### The locations -/

def saveVault (secretRef secretValue : String) : Operation Unit :=
  operate (fun store => { store with vault := store.vault.insert secretRef secretValue })
    .unavailable

def deleteVault (secretRef : String) : Operation Unit :=
  operate (fun store => { store with vault := store.vault.erase secretRef }) .unavailable

def loadVault (secretRef : String) : Operation (Option String) :=
  fetch (fun store => store.vault[secretRef]?) .unavailable

def saveKeyringSecret (secretRef secretValue : String) : Operation Unit := do
  validateSecretRef secretRef
  operate (fun store => { store with hashed := store.hashed.insert secretRef secretValue })
    .unavailable

def loadHashed (secretRef : String) : Operation (Option String) :=
  fetch (fun store => store.hashed[secretRef]?) .unavailable

def deleteHashed (secretRef : String) : Operation Unit :=
  operate (fun store => { store with hashed := store.hashed.erase secretRef }) .unavailable

def loadLegacy (secretRef : String) : Operation (Option String) :=
  fetch (fun store => store.legacy[secretRef]?) .unavailable

def deleteLegacy (secretRef : String) : Operation Unit :=
  operate (fun store => { store with legacy := store.legacy.erase secretRef }) .unavailable

/-- A legacy entry is moved under the hashed name before it is returned. -/
def loadKeyringSecret (secretRef : String) : Operation (Option String) := do
  validateSecretRef secretRef
  match ← loadHashed secretRef with
  | some current => pure (some current)
  | none =>
    match ← loadLegacy secretRef with
    | none => pure none
    | some legacy =>
      saveKeyringSecret secretRef legacy
      deleteLegacy secretRef
      pure (some legacy)

/-- Both entries are deleted, whatever became of the first. -/
def deleteKeyringSecret (secretRef : String) : Operation Unit := do
  validateSecretRef secretRef
  let primary ← outcome (deleteHashed secretRef)
  let legacy ← outcome (deleteLegacy secretRef)
  match primary with
  | .error error => throw error
  | .ok () =>
    match legacy with
    | .error error => throw error
    | .ok () => pure ()

/-! ### The store -/

def save (secretRef secretValue : String) : Operation Unit := do
  validateSecretRef secretRef
  if Text.trim secretValue = "" then throw .emptyValue
  if ← inspect (·.configured) then
    saveVault secretRef secretValue
    -- the vault's entry hides what may be left in the keyring
    let _ ← outcome (deleteKeyringSecret secretRef)
    bumpGeneration
  else
    saveKeyringSecret secretRef secretValue
    bumpGeneration

def load (secretRef : String) : Operation (Option String) := do
  validateSecretRef secretRef
  if ← inspect (·.configured) then
    match ← loadVault secretRef with
    | some vaultSecret => pure (some vaultSecret)
    | none =>
      match ← loadKeyringSecret secretRef with
      | none => pure none
      | some keyringSecret =>
        saveVault secretRef keyringSecret
        let _ ← outcome (deleteKeyringSecret secretRef)
        pure (some keyringSecret)
  else loadKeyringSecret secretRef

def contains (secretRef : String) : Operation Bool := do
  validateSecretRef secretRef
  if ← inspect (·.configured) then
    if (← loadVault secretRef).isSome then pure true
    else pure (← loadKeyringSecret secretRef).isSome
  else pure (← loadKeyringSecret secretRef).isSome

def delete (secretRef : String) : Operation Unit := do
  validateSecretRef secretRef
  if ← inspect (·.configured) then
    deleteVault secretRef
    bumpGeneration
    deleteKeyringSecret secretRef
  else
    deleteKeyringSecret secretRef
    bumpGeneration

/-! ### Configuring the vault -/

/-- Deletes the keyring entries of the references and tells whether all were deleted. -/
def deleteKeyringSecrets : List String → Operation Bool
  | [] => pure true
  | secretRef :: rest => do
    let first ← outcome (deleteKeyringSecret secretRef)
    let others ← deleteKeyringSecrets rest
    pure (first.toBool && others)

def migrateLegacyKeyringOnce : Operation Unit := do
  if ← fetch (·.migrated) .io then pure ()
  else
    match ← outcome (fetch (fun store : SecretStore => store.vault.keys) SecretStoreError.unavailable) with
    | .error _ => pure ()
    | .ok secretRefs =>
      if ← deleteKeyringSecrets secretRefs then
        operate (fun store => { store with migrated := true }) .io

/-- Opens the vault as it was persisted. -/
def initializeVault : Operation Unit := do
  if ← inspect (·.configured) then pure ()
  else
    fetch (fun _ => ()) .recoveryRequired
    migrateLegacyKeyringOnce
    modify fun store => { store with configured := true }

end SecretStore

end ZenithRelay.Secrets
