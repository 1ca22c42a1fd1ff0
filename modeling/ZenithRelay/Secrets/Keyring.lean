import ZenithRelay.Foundations.Fallible
import ZenithRelay.Foundations.Text

/-!
# Secrets in the OS keyring

A secret that fits one entry is stored as it is. A longer one is split into entries of
its own generation, and the main entry becomes a manifest of them.
-/

set_option autoImplicit false

namespace ZenithRelay.Secrets

open Fallible

def chunkUtf16Units : Nat := 1024
def maxChunks : Nat := 4096
def manifestPrefix : String := "__zenith_relay_secret_manifest__:"
def manifestVersion : Nat := 1
def readbackAttempts : Nat := 3

structure SecretManifest where
  version : Nat
  generation : String
  count : Nat
  sha256 : String
  deriving DecidableEq, Repr

/-- The JSON of manifests and the hexadecimal SHA-256 of a text. -/
structure ManifestCodec where
  toJson : SecretManifest → Option String
  fromJson : String → Option SecretManifest
  sha256Hex : String → String

def lenUtf16 (character : Char) : Nat := if 0x10000 ≤ character.toNat then 2 else 1

/-- `secret.encode_utf16().count()` -/
def utf16Count (characters : List Char) : Nat := (characters.map lenUtf16).sum

/-- The loop of `splitSecret` over the characters left, with the chunk so far. -/
def splitCharacters (chunk : List Char) (units : Nat) : List Char → List String
  | [] => if chunk.isEmpty then [] else [String.ofList chunk]
  | character :: rest =>
    if units + lenUtf16 character > chunkUtf16Units ∧ !chunk.isEmpty then
      String.ofList chunk :: splitCharacters [character] (lenUtf16 character) rest
    else splitCharacters (chunk ++ [character]) (units + lenUtf16 character) rest

def splitSecret (secretText : String) : List String := splitCharacters [] 0 secretText.toList

/-- A text of `length` hexadecimal digits; each of them is a single byte. -/
def isHex (text : String) (length : Nat) : Bool :=
  text.toList.length = length &&
    text.toList.all fun character =>
      character.isDigit || ('a' ≤ character && character ≤ 'f') ||
        ('A' ≤ character && character ≤ 'F')

def encodeManifest (codec : ManifestCodec) (manifest : SecretManifest) : Except String String :=
  match codec.toJson manifest with
  | some json => .ok (manifestPrefix ++ json)
  | none => .error "Could not prepare the protected-secret manifest"

def decodeManifest (codec : ManifestCodec) (encodedManifest : String) :
    Except String SecretManifest :=
  if !Text.startsWith encodedManifest manifestPrefix then
    .error "Invalid protected-secret manifest"
  else
    match codec.fromJson (String.ofList (encodedManifest.toList.drop manifestPrefix.length)) with
    | none => .error "Invalid protected-secret manifest"
    | some manifest =>
      if manifest.version ≠ manifestVersion ∨ manifest.count = 0 ∨ manifest.count > maxChunks ∨
          !isHex manifest.generation 32 ∨ !isHex manifest.sha256 64 then
        .error "Invalid protected-secret manifest"
      else .ok manifest

def chunkUser (user generation : String) (index : Nat) : String :=
  user ++ ":chunk:" ++ generation ++ ":" ++ toString index

/-- The users of the first `count` chunks of a generation. -/
def chunkUsers (user generation : String) (count : Nat) : List String :=
  (List.range count).map (chunkUser user generation)

/-- The entries by service and user. -/
abbrev Keyring : Type := String × String → Option String

namespace Keyring

abbrev Operation (Result : Type) : Type := Guarded Keyring String Result

def setPassword (service user secretValue : String) : Operation Unit :=
  operate (fun keyring => Function.update keyring (service, user) (some secretValue))
    "Could not save the secret in OS storage"

def loadRawFromService (service user : String) : Operation (Option String) :=
  fetch (fun keyring => keyring (service, user)) "Could not read the secret from OS storage"

/-- A missing entry counts as deleted. -/
def deleteFromService (service user : String) : Operation Unit :=
  operate (fun keyring => Function.update keyring (service, user) none)
    "Could not delete the secret from OS storage"

/-- Deletes the entries, whatever fails. -/
def deleteEach (service : String) : List String → Operation Unit
  | [] => pure ()
  | user :: rest => do
    let _ ← outcome (deleteFromService service user)
    deleteEach service rest

def deleteManifestChunks (service user : String) (manifest : SecretManifest) : Operation Unit :=
  deleteEach service (chunkUsers user manifest.generation manifest.count)

/-- Appends the entries of `users` to what was read before. -/
def readChunks (service : String) (reassembled : String) : List String → Operation String
  | [] => pure reassembled
  | user :: rest => do
    match ← loadRawFromService service user with
    | none => throw "Protected secret is damaged: a fragment is missing"
    | some chunk => readChunks service (reassembled ++ chunk) rest

def loadSecretFromService (codec : ManifestCodec) (service user : String) :
    Operation (Option String) := do
  match ← loadRawFromService service user with
  | none => pure none
  | some stored =>
    if !Text.startsWith stored manifestPrefix then
      let secretText := Text.trim stored
      pure (if secretText = "" then none else some secretText)
    else
      match decodeManifest codec stored with
      | .error error => throw error
      | .ok manifest =>
        let reassembled ← readChunks service ""
          (chunkUsers user manifest.generation manifest.count)
        if codec.sha256Hex reassembled ≠ manifest.sha256 then
          throw "Protected secret is damaged: checksum mismatch"
        else pure (some reassembled)

/-- The attempts left, and the error of the last attempt. -/
def verifyAttempts (codec : ManifestCodec) (service user expected : String) :
    Nat → Option String → Operation Unit
  | 0, lastError => throw (lastError.getD "Could not verify the saved secret in OS storage")
  | attempts + 1, _ => do
    match ← outcome (loadSecretFromService codec service user) with
    | .ok stored =>
      if stored = some expected then pure ()
      else verifyAttempts codec service user expected attempts none
    | .error error => verifyAttempts codec service user expected attempts (some error)

def verifySavedSecret (codec : ManifestCodec) (service user expected : String) : Operation Unit :=
  verifyAttempts codec service user expected readbackAttempts none

def restoreRawSecret (service user : String) : Option String → Operation Unit
  | some previousSecret => setPassword service user previousSecret
  | none => deleteFromService service user

/-- Writes the chunks and returns their users; a failure deletes those `written` before. -/
def writeChunks (service : String) (written : List String) :
    List (String × String) → Operation (List String)
  | [] => pure written
  | (user, chunk) :: rest => do
    match ← outcome (setPassword service user chunk) with
    | .error error =>
      deleteEach service written
      throw error
    | .ok () => writeChunks service (written ++ [user]) rest

def deletePrevious (service user : String) : Option SecretManifest → Operation Unit
  | some manifest => deleteManifestChunks service user manifest
  | none => pure ()

/-- A secret that fits the main entry. -/
def saveWhole (codec : ManifestCodec) (service user secretValue : String)
    (previousRaw : Option String) (previousManifest : Option SecretManifest) : Operation Unit := do
  setPassword service user secretValue
  match ← outcome (verifySavedSecret codec service user secretValue) with
  | .error error =>
    restoreRawSecret service user previousRaw
    throw error
  | .ok () => deletePrevious service user previousManifest

/-- The main entry of a secret whose chunks are written. -/
def saveManifest (codec : ManifestCodec) (service user secretValue : String)
    (manifest : SecretManifest) (writtenUsers : List String) (previousRaw : Option String)
    (previousManifest : Option SecretManifest) : Operation Unit := do
  match encodeManifest codec manifest with
  | .error error => throw error
  | .ok encoded =>
    match ← outcome (setPassword service user encoded) with
    | .error error =>
      deleteEach service writtenUsers
      throw error
    | .ok () =>
      match ← outcome (verifySavedSecret codec service user secretValue) with
      | .error error =>
        let restore ← outcome (restoreRawSecret service user previousRaw)
        deleteManifestChunks service user manifest
        match restore with
        | .error restoreError => throw restoreError
        | .ok () => throw error
      | .ok () => deletePrevious service user previousManifest

/-- `generation` is the fresh identifier of the chunks that are written. -/
def saveToService (codec : ManifestCodec) (service user secretValue generation : String) :
    Operation Unit := do
  let previousRaw ← loadRawFromService service user
  let previousManifest := previousRaw.bind fun stored => (decodeManifest codec stored).toOption
  if utf16Count secretValue.toList ≤ chunkUtf16Units then
    saveWhole codec service user secretValue previousRaw previousManifest
  else
    let chunks := splitSecret secretValue
    if chunks.length > maxChunks then throw "Secret exceeds the OS protected-storage limit"
    else
      let users := chunkUsers user generation chunks.length
      let writtenUsers ← writeChunks service [] (users.zip chunks)
      let manifest : SecretManifest :=
        ⟨manifestVersion, generation, chunks.length, codec.sha256Hex secretValue⟩
      saveManifest codec service user secretValue manifest writtenUsers previousRaw previousManifest

end Keyring

end ZenithRelay.Secrets
