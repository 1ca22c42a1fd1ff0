import ZenithRelay.LocalPool.Profiles.Codex.SwitchTransaction

/-!
# What the calls of a switch leave

Each call of the operation leaves a value in one place and records it in the journal of
that place, or fails and leaves both as they were.
-/

set_option autoImplicit false

namespace ZenithRelay.LocalPool.Profiles.Codex

open Exposed

/-! ### One journal -/

section

variable {Key Value : Type} [Ord Key] [Std.TransOrd Key] [Std.LawfulEqOrd Key] [DecidableEq Key]

/-- The journal says what the values of its keys were and are; the others are as they were. -/
def Tracks (journal : BTreeMap Key (Change Value)) (start current : Key → Option Value) : Prop :=
  ∀ key, match journal[key]? with
    | some change => change.before = start key ∧ change.after = current key
    | none => current key = start key

omit [Std.LawfulEqOrd Key] [DecidableEq Key] in
theorem tracks_empty (start : Key → Option Value) :
    Tracks (∅ : BTreeMap Key (Change Value)) start start := by
  intro key
  simp

theorem lookup_recordChange (journal : BTreeMap Key (Change Value)) (key other : Key)
    (before after : Option Value) :
    (recordChange journal key before after)[other]? =
      if other = key then
        some ⟨(journal[key]?.map Change.before).getD before, after⟩
      else journal[other]? := by
  unfold recordChange
  cases found : journal[key]? with
  | none => simp
  | some change => simp

omit [DecidableEq Key] in
theorem Tracks.of_mem {journal : BTreeMap Key (Change Value)} {start current : Key → Option Value}
    (tracks : Tracks journal start current) {entry : Key × Change Value}
    (member : entry ∈ journal.toList) :
    entry.2.before = start entry.1 ∧ entry.2.after = current entry.1 := by
  have tracked := tracks entry.1
  rw [BTreeMap.mem_toList_iff.mp member] at tracked
  exact tracked

omit [DecidableEq Key] in
theorem Tracks.of_not_mem {journal : BTreeMap Key (Change Value)}
    {start current : Key → Option Value} (tracks : Tracks journal start current) {key : Key}
    (absent : key ∉ journal.toList.map Prod.fst) : current key = start key := by
  have tracked := tracks key
  cases found : journal[key]? with
  | none =>
      rw [found] at tracked
      exact tracked
  | some change =>
      exact absurd (List.mem_map_of_mem (BTreeMap.mem_toList_iff.mpr found)) absent

/-- A rewrite of the current value is recorded. -/
theorem Tracks.recordChange {journal : BTreeMap Key (Change Value)}
    {start current : Key → Option Value} (tracks : Tracks journal start current) (key : Key)
    (after : Option Value) :
    Tracks (recordChange journal key (current key) after) start
      (Function.update current key after) := by
  intro other
  rw [lookup_recordChange]
  by_cases same : other = key
  · subst same
    have tracked := tracks other
    cases found : journal[other]? with
    | none =>
        rw [found] at tracked
        simpa using tracked
    | some change =>
        rw [found] at tracked
        simpa using tracked.1
  · simpa [same] using tracks other

end

/-! ### The three stores -/

section

variable {Path : Type} [Ord Path] [DecidableEq Path]

/-- Where a value is. -/
inductive Place (Path : Type) where
  | file (path : Path)
  | secret (secretRef : String)
  | native (key : Path × Bool)

/-- Files are named by the paths that lead to them. -/
def Written.Resolved (platform : Platform Path) : Written Path → Prop
  | .file path _ => platform.journalPath path = path
  | _ => True

def Written.place : Written Path → Place Path
  | .file path _ => .file path
  | .secret secretRef _ => .secret secretRef
  | .native key _ => .native key

/-- The newest value in its place. -/
def Newest (log : List (Written Path)) (written : Written Path) : Prop :=
  ∃ later earlier, log = later ++ written :: earlier ∧
    ∀ other ∈ later, other.place ≠ written.place

/-- The storage holds the value where it was written. -/
def Storage.Shows (storage : Storage Path) : Written Path → Prop
  | .file path content => storage.files path = content
  | .secret secretRef secretValue => storage.secrets secretRef = secretValue
  | .native key auth => storage.native key = auth

def Storage.put (storage : Storage Path) : Written Path → Storage Path
  | .file path content =>
    { storage with files := Function.update storage.files path content }
  | .secret secretRef secretValue =>
    { storage with secrets := Function.update storage.secrets secretRef secretValue }
  | .native key auth => { storage with native := Function.update storage.native key auth }

variable {scene middle after : TransactionScene Path}

/-- A write, before it is recorded. -/
structure Wrote (scene after : TransactionScene Path) (written : Written Path) : Prop where
  memory : after.memory = scene.memory
  quiet : scene.Quiet → after.storage = scene.storage.put written ∧ after.Quiet
  calm : scene.Calm → after.Calm

/-- The value is written, or nothing is. -/
def WritesOrFails (scene : TransactionScene Path) (written : Written Path) :
    Except LocalPoolError Unit → TransactionScene Path → Prop
  | .ok _, after => Wrote scene after written
  | .error _, after => scene.Sees after

/-- A call of the storage that puts the value there. -/
theorem call_writes {act : Storage Path → Except LocalPoolError Unit × Storage Path}
    {written : Written Path}
    (puts : ∀ storage, act storage = (.ok (), storage.put written) ∨
      ∃ error, act storage = (.error error, storage)) (scene : TransactionScene Path) :
    Gives (call act : Transaction Path Unit) scene (WritesOrFails scene written) := by
  refine Gives.call (fun _ _ sees _ => sees) ?_
  intro middle sees
  obtain wrote | ⟨error, failed⟩ := puts middle.storage
  · rw [wrote]
    refine ⟨sees.memory, fun quiet => ?_, sees.calm⟩
    obtain ⟨same, still⟩ := sees.quiet quiet
    exact ⟨congrArg (Storage.put · written) same, still⟩
  · rw [failed]
    exact sees

namespace Platform

variable (platform : Platform Path)

private theorem atomicWrite_writes (path : Path) (content : String) (scene : TransactionScene Path) :
    Gives (platform.atomicWrite path content) scene
      (WritesOrFails scene (.file (platform.journalPath path) (some content.toByteArray))) :=
  call_writes (fun _ => .inl rfl) scene

private theorem removeFile_writes (path : Path) (expected : Option ByteArray)
    (scene : TransactionScene Path) :
    Gives (platform.removeFile path expected) scene
      (WritesOrFails scene (.file (platform.journalPath path) none)) := by
  refine call_writes (fun storage => ?_) scene
  split
  next => exact .inr ⟨_, rfl⟩
  next => exact .inl rfl

theorem writeSecret_writes (secretRef : String) (secretValue : Option String)
    (scene : TransactionScene Path) :
    Gives (writeSecret secretRef secretValue) scene
      (WritesOrFails scene (.secret secretRef secretValue)) :=
  call_writes (fun _ => .inl rfl) scene

theorem writeNativeAuth_writes (key : Path × Bool) (auth : Option String)
    (scene : TransactionScene Path) :
    Gives (writeNativeAuth key auth) scene (WritesOrFails scene (.native key auth)) :=
  call_writes (fun _ => .inl rfl) scene

end Platform

/-! ### What a call leaves -/

variable [Std.TransOrd Path]

/-- The journals expect the value. -/
def Journals.Expects (journals : Journals Path) : Written Path → Prop
  | .file path content => ∃ files change, journals.fileChanges = some files ∧
      files[path]? = some change ∧ change.after = content
  | .secret secretRef secretValue => ∃ change,
      journals.secretChanges[secretRef]? = some change ∧ change.after = secretValue
  | .native key auth => ∃ native change, journals.nativeAuthChanges = some native ∧
      native[key]? = some change ∧ change.after = auth

/-- A value, and what it replaced. -/
inductive Rewrite (Path : Type) where
  | file (path : Path) (before after : Option ByteArray)
  | secret (secretRef : String) (before after : Option String)
  | native (key : Path × Bool) (before after : Option String)

def Rewrite.written : Rewrite Path → Written Path
  | .file path _ after => .file path after
  | .secret secretRef _ after => .secret secretRef after
  | .native key _ after => .native key after

def Rewrite.replaced : Rewrite Path → Written Path
  | .file path before _ => .file path before
  | .secret secretRef before _ => .secret secretRef before
  | .native key before _ => .native key before

def Journals.record (journals : Journals Path) : Rewrite Path → Journals Path
  | .file path before after => { journals with
      fileChanges := journals.fileChanges.map fun journal =>
        recordChange journal path before after }
  | .secret secretRef before after => { journals with
      secretChanges := recordChange journals.secretChanges secretRef before after }
  | .native key before after => { journals with
      nativeAuthChanges := journals.nativeAuthChanges.map fun journal =>
        recordChange journal key before after }

/-- No journal of the thread is open. -/
def Journals.Closed (journals : Journals Path) : Prop :=
  journals.fileChanges = none ∧ journals.nativeAuthChanges = none

omit [DecidableEq Path] in
theorem Journals.Closed.record {journals : Journals Path} (closed : journals.Closed)
    (rewrite : Rewrite Path) : (journals.record rewrite).Closed := by
  obtain ⟨files, native⟩ := closed
  cases rewrite with
  | file => exact ⟨congrArg (Option.map _) files, native⟩
  | secret => exact ⟨files, native⟩
  | native => exact ⟨files, congrArg (Option.map _) native⟩

/-- One value was rewritten, and the journals say so. -/
structure Rewrote (scene after : TransactionScene Path) (rewrite : Rewrite Path) : Prop where
  memory : after.memory = scene.memory.record rewrite
  quiet : scene.Quiet → scene.storage.Shows rewrite.replaced ∧
    after.storage = scene.storage.put rewrite.written ∧ after.Quiet
  calm : scene.Calm → after.Calm

/-- A step that succeeds has rewritten the value and recorded that, or has only looked. -/
def LeavesOrFails {Result : Type} (scene : TransactionScene Path) :
    Option (Written Path) → Except LocalPoolError Result → TransactionScene Path → Prop
  | some written, .ok _, after =>
    ∃ rewrite : Rewrite Path, rewrite.written = written ∧ Rewrote scene after rewrite
  | _, _, after => scene.Sees after

/-- What was looked at is written, and recorded. -/
theorem write_recorded {program : Transaction Path Unit} (rewrite : Rewrite Path)
    (writes : Gives program middle (WritesOrFails middle rewrite.written))
    (sees : scene.Sees middle) (replaces : middle.storage.Shows rewrite.replaced) :
    Gives (program >>= fun _ => remember (·.record rewrite)) middle
      (LeavesOrFails scene (some rewrite.written)) := by
  refine writes.bind ?_ fun error after failed => sees.trans failed
  intro _ after wrote
  refine ⟨rewrite, rfl, ?_, fun quiet => ?_, fun calm => wrote.calm (sees.calm calm)⟩
  · exact congrArg (·.record rewrite) (wrote.memory.trans sees.memory)
  · obtain ⟨same, still⟩ := sees.quiet quiet
    obtain ⟨put, quietAfter⟩ := wrote.quiet still
    rw [same] at replaces put
    exact ⟨replaces, put, quietAfter⟩

namespace Platform

variable (platform : Platform Path)

omit [DecidableEq Path] in
private theorem checkFile_looks (path : Path) (expected : Option ByteArray) :
    Looks (platform.checkFile path expected) :=
  .bind (.remembered _) fun _ => .ensure _ _

/-- The file is compared with what the caller expects before it is written. -/
theorem expected_leaves {path : Path} {expected content : Option ByteArray}
    {write : Transaction Path Unit} (scene : TransactionScene Path)
    (writes : ∀ scene, Gives write scene
      (WritesOrFails scene (.file (platform.journalPath path) content))) :
    Gives (do
      platform.checkFile path expected
      let current ← platform.readOptionalBytes path
      ensure (current = expected) (platform.profileChangedAt path)
      write
      platform.recordFile path expected content) scene
      (LeavesOrFails scene (some (.file (platform.journalPath path) content))) := by
  refine (platform.checkFile_looks path expected scene).bind ?_ fun _ _ sees => sees
  intro _ checked sees
  refine (gives_bind _ _).mpr (Gives.fetch (fun _ _ more _ => sees.trans more) ?_)
  intro middle more
  have seen := sees.trans more
  refine (gives_bind _ _).mpr (Gives.ensure (fun same => ?_) fun _ => seen)
  exact write_recorded (.file (platform.journalPath path) expected content) (writes middle)
    seen same

theorem replaceIfUnchanged_leaves (path : Path) (expected : Option ByteArray)
    (content : String) (scene : TransactionScene Path) :
    Gives (platform.replaceIfUnchanged path expected content) scene
      (LeavesOrFails scene
        (some (.file (platform.journalPath path) (some content.toByteArray)))) :=
  platform.expected_leaves scene (platform.atomicWrite_writes path content)

theorem removeIfUnchanged_leaves (path : Path) (expected : Option ByteArray)
    (scene : TransactionScene Path) :
    Gives (platform.removeIfUnchanged path expected) scene
      (LeavesOrFails scene (some (.file (platform.journalPath path) none))) :=
  platform.expected_leaves scene (platform.removeFile_writes path expected)

theorem replaceWithSnapshot_leaves (path : Path) (expectedCurrent : Option ByteArray)
    (content : Option String) (scene : TransactionScene Path) :
    Gives (platform.replaceWithSnapshot path expectedCurrent content) scene
      (LeavesOrFails scene
        (some (.file (platform.journalPath path) (content.map String.toByteArray)))) := by
  cases content with
  | some content => exact platform.replaceIfUnchanged_leaves path expectedCurrent content scene
  | none => exact platform.removeIfUnchanged_leaves path expectedCurrent scene

omit [Ord Path] [DecidableEq Path] [Std.TransOrd Path] in
theorem snapshotText_some {snapshot : Option ByteArray} {path : Path} {content : Option String}
    (decoded : platform.snapshotText snapshot path = .ok content) :
    content.map String.toByteArray = snapshot := by
  cases snapshot with
  | none => cases decoded; rfl
  | some bytes =>
      unfold snapshotText at decoded
      dsimp only at decoded
      unfold String.fromUTF8? at decoded
      by_cases valid : bytes.IsValidUTF8
      · rw [dif_pos valid] at decoded
        cases decoded
        rfl
      · rw [dif_neg valid] at decoded
        cases decoded

theorem restoreSnapshotIfUnchanged_leaves (path : Path)
    (expectedCurrent previousFileContents : Option ByteArray) (scene : TransactionScene Path) :
    Gives (platform.restoreSnapshotIfUnchanged path expectedCurrent previousFileContents) scene
      (LeavesOrFails scene (some (.file (platform.journalPath path) previousFileContents))) := by
  unfold restoreSnapshotIfUnchanged
  cases decoded : platform.snapshotText previousFileContents path with
  | error error => exact .refl scene
  | ok content =>
      rw [← platform.snapshotText_some decoded]
      exact platform.replaceWithSnapshot_leaves path expectedCurrent content scene

theorem updateSecret_leaves (secretRef : String) (secretValue : Option String)
    (scene : TransactionScene Path) :
    Gives (updateSecret secretRef secretValue) scene
      (LeavesOrFails scene (some (.secret secretRef secretValue))) := by
  unfold updateSecret loadSecret
  refine (gives_bind _ _).mpr (Gives.fetch (fun _ _ sees _ => sees) ?_)
  intro middle sees
  refine (gives_bind _ _).mpr ((gives_remembered _).mpr ?_)
  refine (gives_bind _ _).mpr (Gives.ensure (fun _ => ?_) fun _ => sees)
  exact write_recorded (.secret secretRef (middle.storage.secrets secretRef) secretValue)
    (writeSecret_writes secretRef secretValue middle) sees rfl

private theorem replaceNativeAuth_leaves (home : Path) (encrypted : Bool)
    (expected updated : Option String) (scene : TransactionScene Path) :
    Gives (platform.replaceNativeAuth home encrypted expected updated) scene
      (LeavesOrFails scene
        (some (.native (platform.canonicalProfileDir home, encrypted) updated))) := by
  unfold replaceNativeAuth loadNativeAuth
  refine (gives_bind _ _).mpr (Gives.fetch (fun _ _ sees _ => sees) ?_)
  intro opened first
  refine (gives_bind _ _).mpr (Gives.fetch (fun _ _ more _ => first.trans more) ?_)
  intro middle more
  have sees := first.trans more
  refine (gives_bind _ _).mpr (Gives.ensure (fun same => ?_) fun _ => sees)
  refine (gives_bind _ _).mpr ((gives_remembered _).mpr ?_)
  refine (gives_bind _ _).mpr (Gives.ensure (fun _ => ?_) fun _ => sees)
  exact write_recorded
    (.native (platform.canonicalProfileDir home, encrypted) expected updated)
    (writeNativeAuth_writes _ updated middle) sees same

private theorem perform_leaves (call : SwitchCall Path) (scene : TransactionScene Path) :
    Gives (platform.perform call) scene (LeavesOrFails scene (platform.leaves call)) := by
  cases call with
  | readOptionalBytes path => exact Gives.fetch (fun _ _ sees _ => sees) fun _ sees => sees
  | replaceIfUnchanged path expected content =>
      exact platform.replaceIfUnchanged_leaves path expected content scene
  | removeIfUnchanged path expected => exact platform.removeIfUnchanged_leaves path expected scene
  | replaceWithSnapshot path expectedCurrent content =>
      exact platform.replaceWithSnapshot_leaves path expectedCurrent content scene
  | restoreSnapshotIfUnchanged path expectedCurrent previousFileContents =>
      exact platform.restoreSnapshotIfUnchanged_leaves path expectedCurrent previousFileContents
        scene
  | rollbackFile path expectedContent previousFileContents =>
      exact platform.restoreSnapshotIfUnchanged_leaves path _ previousFileContents scene
  | loadSecret secretRef => exact Gives.fetch (fun _ _ sees _ => sees) fun _ sees => sees
  | saveSecret secretRef secretValue =>
      exact updateSecret_leaves secretRef (some secretValue) scene
  | deleteSecret secretRef => exact updateSecret_leaves secretRef none scene
  | loadNativeAuth home encrypted =>
      exact Gives.fetch (fun _ _ sees _ => sees) fun _ sees => sees
  | replaceNativeAuth home encrypted expected updated =>
      exact platform.replaceNativeAuth_leaves home encrypted expected updated scene

omit [DecidableEq Path] [Std.TransOrd Path] [Ord Path] in
private theorem leaves_resolved {call : SwitchCall Path} {written : Written Path}
    (left : platform.leaves call = some written) : written.Resolved platform := by
  cases call with
  | readOptionalBytes | loadSecret | loadNativeAuth => cases left
  | saveSecret | deleteSecret | replaceNativeAuth => cases left; trivial
  | replaceIfUnchanged path | removeIfUnchanged path | replaceWithSnapshot path
  | restoreSnapshotIfUnchanged path | rollbackFile path =>
      cases left
      exact platform.resolved path

/-- What every look and every recorded rewrite keeps holds when an operation ends. -/
theorem runOperation_keeps {Result : Type}
    (holds : List (Written Path) → TransactionScene Path → Prop)
    (sees : ∀ {log scene after}, holds log scene → scene.Sees after → holds log after)
    (rewrote : ∀ {log scene after rewrite}, holds log scene → rewrite.written.Resolved platform →
      Rewrote scene after rewrite → holds (rewrite.written :: log) after)
    (operation : SwitchOperation Path Result) {log : List (Written Path)}
    {scene : TransactionScene Path} (initially : holds log scene) :
    Gives (platform.runOperation operation) scene fun result after =>
      ∃ ended later, result = .ok (ended, later) ∧ holds (later ++ log) after := by
  induction operation generalizing log scene with
  | done result => exact ⟨result, [], rfl, initially⟩
  | perform call next ih =>
      unfold runOperation
      refine (gives_bind _ _).mpr ((gives_outcome _).mpr ?_)
      refine (platform.perform_leaves call scene).mono fun response middle left => ?_
      have still : holds ((if response.isOk then (platform.leaves call).toList else []) ++ log)
          middle := by
        cases response with
        | error error =>
            refine sees initially ?_
            cases leaves : platform.leaves call <;> rw [leaves] at left <;> exact left
        | ok response =>
            cases leaves : platform.leaves call with
            | none =>
                rw [leaves] at left
                exact sees initially left
            | some written =>
                rw [leaves] at left
                obtain ⟨rewrite, same, rewritten⟩ := left
                subst same
                exact rewrote initially (platform.leaves_resolved leaves) rewritten
      refine (ih response still).bind ?_ ?_
      · rintro result after ⟨ended, later, same, holdsAfter⟩
        cases same
        refine ⟨ended, _, rfl, ?_⟩
        rwa [List.append_assoc]
      · rintro error after ⟨ended, later, same, _⟩
        cases same

end Platform

end

end ZenithRelay.LocalPool.Profiles.Codex
