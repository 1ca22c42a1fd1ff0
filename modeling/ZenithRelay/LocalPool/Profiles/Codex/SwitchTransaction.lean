import ZenithRelay.Foundations.Interference
import ZenithRelay.Foundations.Resumption
import ZenithRelay.LocalPool.Records

/-!
# Profile switches

The in-process undo journal of a profile switch, over the files of the profile, the
secrets of the relay and the native credentials. Only successful writes of the relay
advance the value that the rollback expects.
-/

set_option autoImplicit false

namespace ZenithRelay.LocalPool.Profiles.Codex

open Exposed

def configFile : String := "config.toml"
def authFile : String := "auth.json"

/-- What the file system and the texts of the standard library provide. `journalPath`
is a path with its directory resolved; it names the file that the path leads to. -/
structure Platform (Path : Type) where
  journalPath : Path → Path
  resolved : ∀ path, journalPath (journalPath path) = journalPath path
  canonicalProfileDir : Path → Path
  join : Path → String → Path
  display : Path → String
  utf8Error : ByteArray → String

/-- Files, secrets by reference, and native credentials by home and backend. -/
structure Storage (Path : Type) where
  files : Path → Option ByteArray
  secrets : String → Option String
  native : Path × Bool → Option String

structure Change (Value : Type) where
  before : Option Value
  after : Option Value

section

variable {Path : Type} [Ord Path]

abbrev FileChanges (Path : Type) [Ord Path] := BTreeMap Path (Change ByteArray)
abbrev NativeAuthChanges (Path : Type) [Ord Path] := BTreeMap (Path × Bool) (Change String)
abbrev SecretChanges := BTreeMap String (Change String)

/-- The two journals of the thread, and that of the transaction's secrets. -/
structure Journals (Path : Type) [Ord Path] where
  fileChanges : Option (FileChanges Path)
  nativeAuthChanges : Option (NativeAuthChanges Path)
  secretChanges : SecretChanges

abbrev Transaction (Path : Type) [Ord Path] (Result : Type) : Type :=
  Exposed (Journals Path) (Storage Path) LocalPoolError Result

abbrev TransactionScene (Path : Type) [Ord Path] : Type :=
  Scene (Journals Path) (Storage Path) LocalPoolError

/-- The first value before and the last value after the changes of a key. -/
def recordChange {Key Value : Type} [Ord Key] [Std.TransOrd Key]
    (journal : BTreeMap Key (Change Value)) (key : Key) (before after : Option Value) :
    BTreeMap Key (Change Value) :=
  match journal[key]? with
  | some change => journal.insert key { change with after }
  | none => journal.insert key ⟨before, after⟩

end

def profileRestoreBlocked : LocalPoolError :=
  ⟨.profileRestoreBlocked, "ChatGPT profile changed after attach; restore was not applied"⟩

/-- The error of a failed operation, and of its rollback if that failed too. -/
def withRollback (error : LocalPoolError) : Except LocalPoolError Unit → LocalPoolError
  | .ok () => error
  | .error rollbackError =>
    ⟨.recoveryRequired, error.message ++ "; profile rollback failed: " ++ rollbackError.message⟩

namespace Platform

variable {Path : Type} [Ord Path] [Std.TransOrd Path] [DecidableEq Path] (platform : Platform Path)

def profileChangedAt (path : Path) : LocalPoolError :=
  ⟨.profileRestoreBlocked, "ChatGPT changed " ++ platform.display path ++
    " while Zenith Relay was updating the profile; no replacement was applied"⟩

def ioErrorAt (path : Path) (error : String) : LocalPoolError :=
  ⟨.io, "failed to access " ++ platform.display path ++ ": " ++ error⟩

/-! ## Files -/

/-- A read also fails on a file over the bound of its path, as any call may fail. -/
def readOptionalBytes (path : Path) : Transaction Path (Option ByteArray) :=
  fetch fun storage => storage.files (platform.journalPath path)

def atomicWrite (path : Path) (content : String) : Transaction Path Unit :=
  call fun storage =>
    (.ok (), { storage with
      files := Function.update storage.files (platform.journalPath path)
        (some content.toByteArray) })

/-- A missing file counts as removed if it was expected to be missing. -/
def removeFile (path : Path) (expected : Option ByteArray) : Transaction Path Unit :=
  call fun storage =>
    if storage.files (platform.journalPath path) = none ∧ expected ≠ none then
      (.error (platform.ioErrorAt path "entity not found"), storage)
    else
      (.ok (), { storage with
        files := Function.update storage.files (platform.journalPath path) none })

def checkFile (path : Path) (expected : Option ByteArray) : Transaction Path Unit := do
  let change ← remembered fun journals =>
    journals.fileChanges.bind fun journal => journal[platform.journalPath path]?
  ensure (change.all fun recorded => recorded.after = expected) (platform.profileChangedAt path)

def recordFile (path : Path) (before after : Option ByteArray) : Transaction Path Unit :=
  remember fun journals => { journals with
    fileChanges := journals.fileChanges.map fun journal =>
      recordChange journal (platform.journalPath path) before after }

def replaceIfUnchanged (path : Path) (expected : Option ByteArray) (content : String) :
    Transaction Path Unit := do
  platform.checkFile path expected
  let current ← platform.readOptionalBytes path
  ensure (current = expected) (platform.profileChangedAt path)
  platform.atomicWrite path content
  platform.recordFile path expected (some content.toByteArray)

def removeIfUnchanged (path : Path) (expected : Option ByteArray) : Transaction Path Unit := do
  platform.checkFile path expected
  let current ← platform.readOptionalBytes path
  ensure (current = expected) (platform.profileChangedAt path)
  platform.removeFile path expected
  platform.recordFile path expected none

/-- The text of a snapshot, which must be valid UTF-8. -/
def snapshotText (snapshot : Option ByteArray) (path : Path) :
    Except LocalPoolError (Option String) :=
  match snapshot with
  | none => .ok none
  | some content =>
    match String.fromUTF8? content with
    | some text => .ok (some text)
    | none => .error ⟨.io, platform.display path ++ " is not valid UTF-8: " ++
        platform.utf8Error content⟩

def replaceWithSnapshot (path : Path) (expectedCurrent : Option ByteArray)
    (content : Option String) : Transaction Path Unit :=
  match content with
  | some content => platform.replaceIfUnchanged path expectedCurrent content
  | none => platform.removeIfUnchanged path expectedCurrent

def restoreSnapshotIfUnchanged (path : Path)
    (expectedCurrent previousFileContents : Option ByteArray) : Transaction Path Unit := do
  let content ← ofExcept (platform.snapshotText previousFileContents path)
  platform.replaceWithSnapshot path expectedCurrent content

def rollbackFile (path : Path) (expectedContent : String)
    (previousFileContents : Option ByteArray) : Transaction Path Unit :=
  platform.restoreSnapshotIfUnchanged path (some expectedContent.toByteArray) previousFileContents

/-! ## Secrets and native credentials -/

def loadSecret (secretRef : String) : Transaction Path (Option String) :=
  fetch fun storage => storage.secrets secretRef

def writeSecret (secretRef : String) (secretValue : Option String) : Transaction Path Unit :=
  call fun storage =>
    (.ok (), { storage with secrets := Function.update storage.secrets secretRef secretValue })

/-- `JournalSecrets::update`. -/
def updateSecret (secretRef : String) (secretValue : Option String) : Transaction Path Unit := do
  let before ← loadSecret secretRef
  let change ← remembered fun journals => journals.secretChanges[secretRef]?
  ensure (change.all fun recorded => recorded.after = before) profileRestoreBlocked
  writeSecret secretRef secretValue
  remember fun journals => { journals with
    secretChanges := recordChange journals.secretChanges secretRef before secretValue }

def loadNativeAuth (key : Path × Bool) : Transaction Path (Option String) :=
  fetch fun storage => storage.native key

def writeNativeAuth (key : Path × Bool) (auth : Option String) : Transaction Path Unit :=
  call fun storage =>
    (.ok (), { storage with native := Function.update storage.native key auth })

/-- The caller holds the auth lock of the home. -/
def replaceNativeAuth (home : Path) (encrypted : Bool) (expected updated : Option String) :
    Transaction Path Unit := do
  let key ← fetch fun _ => (platform.canonicalProfileDir home, encrypted)
  let current ← loadNativeAuth key
  ensure (current = expected) profileRestoreBlocked
  let change ← remembered fun journals => journals.nativeAuthChanges.bind fun journal => journal[key]?
  ensure (change.all fun recorded => recorded.after = expected) profileRestoreBlocked
  writeNativeAuth key updated
  remember fun journals => { journals with
    nativeAuthChanges := journals.nativeAuthChanges.map fun journal =>
      recordChange journal key expected updated }

end Platform

/-! ## The transaction -/

/-- A value that a call leaves: in a file, in a secret or as a native credential. -/
inductive Written (Path : Type) where
  | file (path : Path) (content : Option ByteArray)
  | secret (secretRef : String) (secretValue : Option String)
  | native (key : Path × Bool) (auth : Option String)

/-- The calls an operation of a switch makes. -/
inductive SwitchCall (Path : Type) where
  | readOptionalBytes (path : Path)
  | replaceIfUnchanged (path : Path) (expected : Option ByteArray) (content : String)
  | removeIfUnchanged (path : Path) (expected : Option ByteArray)
  | replaceWithSnapshot (path : Path) (expectedCurrent : Option ByteArray)
      (content : Option String)
  | restoreSnapshotIfUnchanged (path : Path)
      (expectedCurrent previousFileContents : Option ByteArray)
  | rollbackFile (path : Path) (expectedContent : String)
      (previousFileContents : Option ByteArray)
  | loadSecret (secretRef : String)
  | saveSecret (secretRef secretValue : String)
  | deleteSecret (secretRef : String)
  | loadNativeAuth (home : Path) (encrypted : Bool)
  | replaceNativeAuth (home : Path) (encrypted : Bool) (expected updated : Option String)

@[reducible] def SwitchCall.Response {Path : Type} : SwitchCall Path → Type
  | .readOptionalBytes _ => Option ByteArray
  | .loadSecret _ | .loadNativeAuth .. => Option String
  | _ => Unit

/-- Any program of such calls; it goes on from their results and their errors. -/
abbrev SwitchOperation (Path Result : Type) : Type :=
  Resumption (fun call : SwitchCall Path => Except LocalPoolError call.Response)
    (Except LocalPoolError Result)

namespace Platform

variable {Path : Type} [Ord Path] [Std.TransOrd Path] [DecidableEq Path] (platform : Platform Path)

def perform : (call : SwitchCall Path) → Transaction Path call.Response
  | .readOptionalBytes path => platform.readOptionalBytes path
  | .replaceIfUnchanged path expected content => platform.replaceIfUnchanged path expected content
  | .removeIfUnchanged path expected => platform.removeIfUnchanged path expected
  | .replaceWithSnapshot path expectedCurrent content =>
    platform.replaceWithSnapshot path expectedCurrent content
  | .restoreSnapshotIfUnchanged path expectedCurrent previousFileContents =>
    platform.restoreSnapshotIfUnchanged path expectedCurrent previousFileContents
  | .rollbackFile path expectedContent previousFileContents =>
    platform.rollbackFile path expectedContent previousFileContents
  | .loadSecret secretRef => loadSecret secretRef
  | .saveSecret secretRef secretValue => updateSecret secretRef (some secretValue)
  | .deleteSecret secretRef => updateSecret secretRef none
  | .loadNativeAuth home encrypted => loadNativeAuth (platform.canonicalProfileDir home, encrypted)
  | .replaceNativeAuth home encrypted expected updated =>
    platform.replaceNativeAuth home encrypted expected updated

/-- What a call leaves when it succeeds. -/
def leaves : SwitchCall Path → Option (Written Path)
  | .replaceIfUnchanged path _ content =>
    some (.file (platform.journalPath path) (some content.toByteArray))
  | .removeIfUnchanged path _ => some (.file (platform.journalPath path) none)
  | .replaceWithSnapshot path _ content =>
    some (.file (platform.journalPath path) (content.map String.toByteArray))
  | .restoreSnapshotIfUnchanged path _ previousFileContents
  | .rollbackFile path _ previousFileContents =>
    some (.file (platform.journalPath path) previousFileContents)
  | .saveSecret secretRef secretValue => some (.secret secretRef (some secretValue))
  | .deleteSecret secretRef => some (.secret secretRef none)
  | .replaceNativeAuth home encrypted _ updated =>
    some (.native (platform.canonicalProfileDir home, encrypted) updated)
  | .readOptionalBytes _ | .loadSecret _ | .loadNativeAuth .. => none

/-- The result of an operation, and what its calls left, newest first. -/
def runOperation {Result : Type} : SwitchOperation Path Result →
    Transaction Path (Except LocalPoolError Result × List (Written Path))
  | .done result => pure (result, [])
  | .perform call next => do
    let response ← outcome (platform.perform call)
    let later ← runOperation (next response)
    pure (later.1, later.2 ++ (if response.isOk then (platform.leaves call).toList else []))

/-- Watches `config.toml` and `auth.json` even when the operation never writes them;
returns what they held. -/
def openJournals (codexHome : Path) : Transaction Path (List (Written Path)) := do
  let nested ← remembered fun journals => journals.fileChanges.isSome
  ensure (nested = false) ⟨.invalidState, "Nested profile transaction"⟩
  fetch fun _ => () -- The directory is created if it is missing.
  let config := platform.journalPath (platform.join codexHome configFile)
  let configBefore ← platform.readOptionalBytes config
  let auth := platform.journalPath (platform.join codexHome authFile)
  let authBefore ← platform.readOptionalBytes auth
  remember fun _ => {
    fileChanges := some (((∅ : FileChanges Path).insert config ⟨configBefore, configBefore⟩).insert
      auth ⟨authBefore, authBefore⟩)
    nativeAuthChanges := some ∅
    secretChanges := ∅ }
  pure [.file auth authBefore, .file config configBefore]

/-- Refuses the complete rollback if a newer external writer owns a value. -/
def checkUnchanged (files : FileChanges Path) (nativeAuth : NativeAuthChanges Path)
    (secrets : SecretChanges) : Transaction Path Unit := do
  files.toList.forM fun entry => do
    let current ← platform.readOptionalBytes entry.1
    ensure (current = entry.2.after) (platform.profileChangedAt entry.1)
  secrets.toList.forM fun entry => do
    let current ← loadSecret entry.1
    ensure (current = entry.2.after) profileRestoreBlocked
  nativeAuth.toList.forM fun entry => do
    let current ← loadNativeAuth entry.1
    ensure (current = entry.2.after) profileRestoreBlocked

/-- `JournalSecrets::rollback`. -/
def rollback (files : FileChanges Path) (nativeAuth : NativeAuthChanges Path) :
    Transaction Path Unit := do
  -- The auth lock of every home with native credentials.
  (nativeAuth.toList.map fun entry => entry.1.1).eraseDups.forM fun _ => fetch fun _ => ()
  let secrets ← remembered fun journals => journals.secretChanges
  platform.checkUnchanged files nativeAuth secrets
  -- Secrets must be recoverable before restoring backup references.
  secrets.toList.forM fun entry =>
    if entry.2.before = entry.2.after then pure () else writeSecret entry.1 entry.2.before
  nativeAuth.toList.forM fun entry =>
    if entry.2.before = entry.2.after then pure () else writeNativeAuth entry.1 entry.2.before
  files.toList.forM fun entry =>
    if entry.2.before = entry.2.after then pure ()
    else platform.restoreSnapshotIfUnchanged entry.1 entry.2.after entry.2.before

/-- The part of `run` before the journals are taken: the operation's result, and the
newest value it left, or found, in each place. -/
def operate {Result : Type} (codexHome : Path) (operation : SwitchOperation Path Result) :
    Transaction Path (Except LocalPoolError Result × List (Written Path)) := do
  let seen ← platform.openJournals codexHome
  let operated ← platform.runOperation operation
  pure (operated.1, operated.2 ++ seen)

def run {Result : Type} (codexHome : Path) (operation : SwitchOperation Path Result) :
    Transaction Path Result := do
  let operated ← platform.operate codexHome operation
  let files ← remembered fun journals => journals.fileChanges.getD ∅
  let nativeAuth ← remembered fun journals => journals.nativeAuthChanges.getD ∅
  remember fun journals => { journals with fileChanges := none, nativeAuthChanges := none }
  match operated.1 with
  | .ok value => pure value
  | .error error => do
    let rollback ← outcome (platform.rollback files nativeAuth)
    throw (withRollback error rollback)

end Platform

end ZenithRelay.LocalPool.Profiles.Codex
