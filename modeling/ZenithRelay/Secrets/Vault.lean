import ZenithRelay.Foundations.BTreeMap
import ZenithRelay.Foundations.Fallible
import ZenithRelay.Foundations.Text
import ZenithRelay.Secrets.SecretStore

/-!
# The encrypted vault

The vault keeps its secrets in memory and writes all of them to one encrypted file,
which it replaces through a temporary file and a backup of the file before.
-/

set_option autoImplicit false

namespace ZenithRelay.Secrets

open Fallible

abbrev Bytes : Type := List UInt8

/-- `b"ZDV1"` -/
def vaultMagic : Bytes := [0x5A, 0x44, 0x56, 0x31]

def nonceBytes : Nat := 12
def tagBytes : Nat := 16
def maxSecretBytes : Nat := 4 * 1024 * 1024
def maxVaultBytes : Nat := 64 * 1024 * 1024
def maxSecretRefs : Nat := 8192

abbrev Nonce : Type := Vector UInt8 nonceBytes
abbrev AgentMessageKey : Type := Vector UInt8 32

structure AgentMessageKeyRecord where
  version : UInt8
  key : String
  deriving DecidableEq, Repr

structure VaultData where
  secretsByRef : BTreeMap String String
  agentMessageKey : Option AgentMessageKeyRecord

def VaultData.empty : VaultData := ⟨∅, none⟩

/-- The JSON, base64 and ChaCha20-Poly1305 codecs, the last one under the vault's key. -/
structure VaultCodec where
  toJson : VaultData → Option Bytes
  fromJson : Bytes → Option VaultData
  encrypt : Nonce → Bytes → Option Bytes
  decrypt : Nonce → Bytes → Option Bytes
  encodeKey : AgentMessageKey → String
  decodeKey : String → Option Bytes

/-- Each decoder undoes its encoder, and a ciphertext is its plaintext with a tag. -/
structure VaultCodec.Lawful (codec : VaultCodec) : Prop where
  fromJson_toJson : ∀ data json, codec.toJson data = some json → codec.fromJson json = some data
  decrypt_encrypt : ∀ nonce plaintext ciphertext, codec.encrypt nonce plaintext = some ciphertext →
    codec.decrypt nonce ciphertext = some plaintext ∧
      ciphertext.length = plaintext.length + tagBytes
  decodeKey_encodeKey : ∀ key, codec.decodeKey (codec.encodeKey key) = some key.toList

def AgentMessageKeyRecord.decode (codec : VaultCodec) (record : AgentMessageKeyRecord) :
    Except String AgentMessageKey :=
  if record.version ≠ 1 then .error "agent-message key record version is unsupported"
  else
    match codec.decodeKey record.key with
    | none => .error "agent-message key record is invalid"
    | some bytes =>
      if sized : bytes.length = 32 then .ok ⟨bytes.toArray, by simpa using sized⟩
      else .error "agent-message key record has an invalid length"

def validateRef (secretRef : String) : Except String Unit :=
  if isAsciiRef secretRef 128 then .ok () else .error "secret reference is invalid"

/-- Whether a value is neither empty nor too large. -/
def validValue (secretValue : String) : Bool :=
  secretValue ≠ "" && secretValue.utf8ByteSize ≤ maxSecretBytes

def validateData (codec : VaultCodec) (data : VaultData) : Except String Unit := do
  if let some record := data.agentMessageKey then
    let _ ← record.decode codec
  if data.secretsByRef.size > maxSecretRefs then
    throw "secret vault entry limit is exceeded"
  data.secretsByRef.toList.forM fun (secretRef, secretValue) => do
    validateRef secretRef
    if !validValue secretValue then throw "secret vault contains an invalid value"

/-- The file contents for `data`. -/
def encryptData (codec : VaultCodec) (nonce : Nonce) (data : VaultData) : Except String Bytes :=
  match codec.toJson data with
  | none => .error "vault serialization failed"
  | some plaintext =>
    if plaintext.length > maxVaultBytes - (vaultMagic.length + nonceBytes + tagBytes) then
      .error "secret vault size limit is reached"
    else
      match codec.encrypt nonce plaintext with
      | none => .error "vault encryption failed"
      | some ciphertext => .ok (vaultMagic ++ nonce.toList ++ ciphertext)

/-- The data in a file that was read. -/
def decryptBytes (codec : VaultCodec) (bytes : Bytes) : Except String VaultData :=
  if bytes.length > maxVaultBytes then .error "secret vault file is unsafe"
  else if bytes.length ≤ vaultMagic.length + nonceBytes ∨
      bytes.take vaultMagic.length ≠ vaultMagic then
    .error "secret vault file header is invalid"
  else
    let nonce := (bytes.drop vaultMagic.length).take nonceBytes
    if sized : nonce.length = nonceBytes then
      match codec.decrypt ⟨nonce.toArray, by simpa using sized⟩
          (bytes.drop (vaultMagic.length + nonceBytes)) with
      | none => .error "secret vault decryption failed"
      | some plaintext =>
        match codec.fromJson plaintext with
        | none => .error "secret vault payload is invalid"
        | some data => .ok data
    else .error "secret vault nonce is invalid"

/-- The vault directory and the memory of the process: `data` of a vault that is open.
Every replacement has a temporary file of its own. -/
structure Vault where
  path : Option Bytes
  backup : Option Bytes
  temporary : Option Bytes
  data : Option VaultData

namespace Vault

abbrev Operation (Result : Type) : Type := Guarded Vault String Result

def ioError : String := "secret vault I/O failed"

def fileOperation (change : Vault → Vault) : Operation Unit := operate change ioError

/-- Renames the temporary file into place; when that fails, the backup back. -/
def publish : Operation Unit := do
  match ← outcome (fileOperation fun vault =>
      { vault with temporary := none, path := vault.temporary }) with
  | .error error =>
    if ← inspect (·.backup.isSome) then
      let _ ← outcome (fileOperation fun vault =>
        { vault with backup := none, path := vault.backup })
    throw error
  | .ok () =>
    let _ ← outcome (fileOperation fun vault => { vault with backup := none })
    pure ()

def removeBackup : Operation Unit := do
  if ← inspect (·.backup.isSome) then
    fileOperation fun vault => { vault with backup := none }

def moveToBackup : Operation Unit := do
  if ← inspect (·.path.isSome) then
    fileOperation fun vault => { vault with path := none, backup := vault.path }

/-- The fallible steps of a replacement: the file before becomes the backup. -/
def replaceFile (bytes : Bytes) : Operation Unit := do
  fileOperation fun vault => { vault with temporary := some [] }
  fileOperation fun vault => { vault with temporary := some bytes }
  fileOperation id
  removeBackup
  moveToBackup
  publish

def atomicReplace (bytes : Bytes) : Operation Unit := do
  match ← outcome (replaceFile bytes) with
  | .error error =>
    let _ ← outcome (fileOperation fun vault => { vault with temporary := none })
    throw error
  | .ok () => pure ()

def liftResult {Result : Type} (result : Except String Result) : Operation Result :=
  match result with
  | .ok value => pure value
  | .error error => throw error

def persist (codec : VaultCodec) (nonce : Nonce) (data : VaultData) : Operation Unit := do
  atomicReplace (← liftResult (encryptData codec nonce data))

/-- The data of the open vault. -/
def lock : Operation VaultData := do
  match ← inspect (·.data) with
  | some data => pure data
  | none => throw "secret vault lock is unavailable"

def setData (data : VaultData) : Operation Unit := modify fun vault => { vault with data := some data }

/-! ### The operations of the vault -/

/-- A backup without its file is renamed back. -/
def recoverBackup : Operation Unit := do
  if ← inspect (fun vault => vault.path.isNone && vault.backup.isSome) then
    fileOperation fun vault => { vault with backup := none, path := vault.backup }

def readVault (codec : VaultCodec) : Operation Unit := do
  if ← inspect (·.path.isSome) then
    let bytes ← fetch (·.path.getD []) ioError
    let data ← liftResult (decryptBytes codec bytes)
    liftResult (validateData codec data)
    setData data
  else
    liftResult (validateData codec .empty)
    setData .empty

def openVault (codec : VaultCodec) : Operation Unit := do
  fileOperation id
  recoverBackup
  readVault codec

/-- Puts a secret back as it was before it was saved. -/
def restoreSecret (saved : VaultData) (secretRef : String) : Option String → Operation Unit
  | some previous =>
    setData { saved with secretsByRef := saved.secretsByRef.insert secretRef previous }
  | none => setData { saved with secretsByRef := saved.secretsByRef.erase secretRef }

def save (codec : VaultCodec) (nonce : Nonce) (secretRef secretValue : String) :
    Operation Unit := do
  liftResult (validateRef secretRef)
  if !validValue secretValue then throw "secret value is empty or too large"
  let data ← lock
  if (data.secretsByRef[secretRef]?).isNone && data.secretsByRef.size ≥ maxSecretRefs then
    throw "secret vault entry limit is reached"
  let previous := data.secretsByRef[secretRef]?
  let saved := { data with secretsByRef := data.secretsByRef.insert secretRef secretValue }
  setData saved
  match ← outcome (persist codec nonce saved) with
  | .error error =>
    restoreSecret saved secretRef previous
    throw error
  | .ok () => pure ()

def load (secretRef : String) : Operation (Option String) := do
  liftResult (validateRef secretRef)
  pure (← lock).secretsByRef[secretRef]?

/-- Tells whether there was a secret to delete. -/
def delete (codec : VaultCodec) (nonce : Nonce) (secretRef : String) : Operation Bool := do
  liftResult (validateRef secretRef)
  let data ← lock
  match data.secretsByRef[secretRef]? with
  | none => pure false
  | some previous =>
    let deleted := { data with secretsByRef := data.secretsByRef.erase secretRef }
    setData deleted
    match ← outcome (persist codec nonce deleted) with
    | .error error =>
      setData { deleted with secretsByRef := deleted.secretsByRef.insert secretRef previous }
      throw error
    | .ok () => pure true

/-- The recorded key, or `fresh` once it has been written. -/
def agentMessageKey (codec : VaultCodec) (nonce : Nonce) (fresh : AgentMessageKey) :
    Operation AgentMessageKey := do
  let data ← lock
  match data.agentMessageKey with
  | some record => liftResult (record.decode codec)
  | none =>
    let keyed := { data with agentMessageKey := some ⟨1, codec.encodeKey fresh⟩ }
    setData keyed
    match ← outcome (persist codec nonce keyed) with
    | .error error =>
      setData { keyed with agentMessageKey := none }
      throw error
    | .ok () => pure fresh

end Vault

end ZenithRelay.Secrets
