import ZenithRelay.LocalPool.Profiles.Codex.SwitchRestoring

/-!
# Properties of profile switches

A switch that fails is undone as a whole, unless a file it changed held bytes that are
no text; the rollback stays away from a profile that somebody else has changed; and no
journal outlives its switch.
-/

set_option autoImplicit false

namespace ZenithRelay.LocalPool.Profiles.Codex

open Exposed

section

variable {Path : Type} [Ord Path] [DecidableEq Path]
variable {scene middle after : TransactionScene Path}
variable [Std.TransOrd Path] [Std.LawfulEqOrd Path]

variable {platform : Platform Path} {log : List (Written Path)} {start : Storage Path}

/-! ### What the rollback looks at first -/

namespace Platform

variable (platform : Platform Path)

variable {files : FileChanges Path} {native : NativeAuthChanges Path} {secrets : SecretChanges}

/-- The values that the rollback reads again, in the order in which it reads them. -/
def checked (files : FileChanges Path) (native : NativeAuthChanges Path)
    (secrets : SecretChanges) : List (Written Path) :=
  files.toList.map (fun entry => .file entry.1 entry.2.after) ++
    (secrets.toList.map (fun entry => .secret entry.1 entry.2.after) ++
      (native.toList.map fun entry => .native entry.1 entry.2.after))

/-- One comparison of the rollback. -/
def check : Written Path → Transaction Path Unit
  | .file path content => do
    let current ← platform.readOptionalBytes path
    ensure (current = content) (platform.profileChangedAt path)
  | .secret secretRef secretValue => do
    let current ← loadSecret secretRef
    ensure (current = secretValue) profileRestoreBlocked
  | .native key auth => do
    let current ← loadNativeAuth key
    ensure (current = auth) profileRestoreBlocked

omit [Std.LawfulEqOrd Path] [DecidableEq Path] in
theorem checkUnchanged_eq :
    platform.checkUnchanged files native secrets =
      (checked files native secrets).forM platform.check := by
  simp only [checkUnchanged, checked, List.forM_eq_forM, List.forM_append, List.forM_map]
  rfl

omit [DecidableEq Path] [Std.TransOrd Path] [Std.LawfulEqOrd Path] in
theorem check_later (written : Written Path) (scene : TransactionScene Path) :
    Gives (platform.check written) scene fun result after => after = scene.later 1 ∧
      (result = .ok () → written.Resolved platform → (scene.later 1).storage.Shows written) := by
  cases written with
  | file path content =>
      refine Gives.compare_later.mono fun result after compared => ⟨compared.1, ?_⟩
      intro passed resolved
      have shown := compared.2 passed
      rwa [resolved] at shown
  | secret secretRef secretValue =>
      exact Gives.compare_later.mono fun result after compared =>
        ⟨compared.1, fun passed _ => compared.2 passed⟩
  | native key auth =>
      exact Gives.compare_later.mono fun result after compared =>
        ⟨compared.1, fun passed _ => compared.2 passed⟩

omit [DecidableEq Path] [Std.TransOrd Path] [Std.LawfulEqOrd Path] in
private theorem check_passes {written : Written Path} (calm : scene.Calm)
    (resolved : written.Resolved platform) (shown : scene.storage.Shows written) :
    Gives (platform.check written) scene fun result _ => result = .ok () := by
  cases written with
  | file path content =>
      refine Gives.compare_passes calm ?_
      rw [resolved]
      exact shown
  | secret secretRef secretValue => exact Gives.compare_passes calm shown
  | native key auth => exact Gives.compare_passes calm shown

omit [DecidableEq Path] [Std.TransOrd Path] [Std.LawfulEqOrd Path] in
theorem check_looks (written : Written Path) : Looks (platform.check written) :=
  fun scene => (platform.check_later written scene).mono
    fun _ _ checked => checked.1 ▸ scene.sees_later 1

omit [Std.LawfulEqOrd Path] [DecidableEq Path] in
/-- Passed, every value was as it was left when it was read. -/
theorem checkUnchanged_later (scene : TransactionScene Path) :
    Gives (platform.checkUnchanged files native secrets) scene fun result after =>
      scene.Sees after ∧ (result = .ok () → ∀ before written rest,
        checked files native secrets = before ++ written :: rest →
          written.Resolved platform → (scene.later (before.length + 1)).storage.Shows written) := by
  rw [checkUnchanged_eq]
  refine ((Gives.forM_later (p := fun written storage =>
    written.Resolved platform → storage.Shows written) platform.check_later).and
    (Looks.forM platform.check_looks scene)).mono fun result after ended => ?_
  exact ⟨ended.2, fun passed before written rest split => (ended.1 passed).2 before written rest split⟩

omit [Std.LawfulEqOrd Path] [DecidableEq Path] in
theorem checkUnchanged_looks :
    Looks (platform.checkUnchanged files native secrets) :=
  fun scene => (platform.checkUnchanged_later scene).mono fun _ _ looked => looked.1

omit [DecidableEq Path] in
theorem checked_resolved
    (resolved : ∀ path change, files[path]? = some change → platform.journalPath path = path) :
    ∀ written ∈ checked files native secrets, written.Resolved platform := by
  intro written member
  simp only [checked, List.mem_append, List.mem_map] at member
  rcases member with ⟨entry, found, rfl⟩ | ⟨entry, _, rfl⟩ | ⟨entry, _, rfl⟩
  · exact resolved entry.1 entry.2 (BTreeMap.mem_toList_iff.mp found)
  · trivial
  · trivial

omit [DecidableEq Path] in
/-- While nobody else writes, the values are as they were left. -/
private theorem checked_shown {start storage : Storage Path}
    (trackedFiles : Tracks files start.files storage.files)
    (trackedNative : Tracks native start.native storage.native)
    (trackedSecrets : Tracks secrets start.secrets storage.secrets) :
    ∀ written ∈ checked files native secrets, storage.Shows written := by
  intro written member
  simp only [checked, List.mem_append, List.mem_map] at member
  rcases member with ⟨entry, found, rfl⟩ | ⟨entry, found, rfl⟩ | ⟨entry, found, rfl⟩
  · exact (trackedFiles.of_mem found).2.symm
  · exact (trackedSecrets.of_mem found).2.symm
  · exact (trackedNative.of_mem found).2.symm

omit [DecidableEq Path] in
private theorem checkUnchanged_passes {start : Storage Path} (calm : scene.Calm)
    (trackedFiles : Tracks files start.files scene.storage.files)
    (trackedNative : Tracks native start.native scene.storage.native)
    (trackedSecrets : Tracks secrets start.secrets scene.storage.secrets)
    (resolved : ∀ path change, files[path]? = some change → platform.journalPath path = path) :
    Gives (platform.checkUnchanged files native secrets) scene fun result _ => result = .ok () := by
  rw [checkUnchanged_eq]
  refine Gives.forM_passes platform.check_looks fun written member after sees => ?_
  refine platform.check_passes (sees.calm calm) (platform.checked_resolved resolved written member) ?_
  rw [(sees.quiet calm.quiet).1]
  exact checked_shown trackedFiles trackedNative trackedSecrets written member

omit [DecidableEq Path] in
private theorem mem_checked {written : Written Path}
    (expects : (⟨some files, some native, secrets⟩ : Journals Path).Expects written) :
    written ∈ checked files native secrets := by
  simp only [checked, List.mem_append, List.mem_map]
  cases written with
  | file path content =>
      obtain ⟨journal, change, opened, found, rfl⟩ := expects
      injection opened with opened
      subst opened
      exact .inl ⟨(path, change), BTreeMap.mem_toList_iff.mpr found, rfl⟩
  | secret secretRef secretValue =>
      obtain ⟨change, found, rfl⟩ := expects
      exact .inr (.inl ⟨(secretRef, change), BTreeMap.mem_toList_iff.mpr found, rfl⟩)
  | native key auth =>
      obtain ⟨journal, change, opened, found, rfl⟩ := expects
      injection opened with opened
      subst opened
      exact .inr (.inr ⟨(key, change), BTreeMap.mem_toList_iff.mpr found, rfl⟩)

/-- The homes whose auth locks the rollback takes before it reads anything. -/
def lockedHomes (native : NativeAuthChanges Path) : List Path :=
  (native.toList.map fun entry => entry.1.1).eraseDups

/-- Nothing is put back before every value was found as it was left: one that somebody
else has changed when it is read again ends the rollback. -/
private theorem rollback_refuses (scene : TransactionScene Path) {written : Written Path}
    {before rest : List (Written Path)}
    (split : checked files native scene.memory.secretChanges = before ++ written :: rest)
    (resolved : ∀ path change, files[path]? = some change → platform.journalPath path = path)
    (changed : ¬(scene.later ((lockedHomes native).length + (before.length + 1))).storage.Shows
      written) :
    Gives (platform.rollback files native) scene fun result after =>
      (∃ error, result = .error error) ∧ scene.Sees after := by
  have lock (home : Path) (scene : TransactionScene Path) :
      Gives (fetch fun _ => () : Transaction Path Unit) scene fun result after =>
        after = scene.later 1 ∧ (result = .ok () → True) :=
    Gives.fetch_later.mono fun _ _ fetched => ⟨fetched.1, fun _ => trivial⟩
  unfold rollback
  refine ((Gives.forM_later (p := fun _ _ => True) lock).and (Looks.forM (fun _ => .fetch _) scene)).bind ?_
    fun error _ locked => ⟨⟨error, rfl⟩, locked.2⟩
  rintro _ locked ⟨counted, sees⟩
  obtain ⟨rfl, -⟩ := counted rfl
  refine (gives_bind _ _).mpr ((gives_remembered _).mpr ?_)
  refine (platform.checkUnchanged_later _).bind ?_
    fun error _ refused => ⟨⟨error, rfl⟩, sees.trans refused.1⟩
  rintro _ _ ⟨-, passed⟩
  refine absurd ?_ changed
  have member : written ∈ checked files native scene.memory.secretChanges := by
    rw [split]
    simp
  have shown := passed rfl before written rest split (platform.checked_resolved resolved written member)
  rwa [Scene.later_later] at shown
/-- The whole storage is as it was, unless a file that was changed held no text. -/
private theorem rollback_restores {start : Storage Path} (calm : scene.Calm)
    (closed : scene.memory.fileChanges = none)
    (trackedFiles : Tracks files start.files scene.storage.files)
    (trackedNative : Tracks native start.native scene.storage.native)
    (trackedSecrets : Tracks scene.memory.secretChanges start.secrets scene.storage.secrets)
    (resolved : ∀ path change, files[path]? = some change → platform.journalPath path = path) :
    Gives (platform.rollback files native) scene fun _ after =>
      (after.storage = start ↔
        ∀ path, scene.storage.files path ≠ start.files path → IsText (start.files path)) := by
  unfold rollback
  refine ((Gives.forM_passes (fun _ => .fetch _) fun _ _ after sees => ?_).and
    (Looks.forM (fun _ => .fetch _) scene)).bind ?_ fun _ _ failed => by cases failed.1
  · exact (Gives.fetch_calm (sees.calm calm)).mono fun _ _ fetched => fetched.1
  rintro _ locked ⟨_, sees⟩
  obtain ⟨storage, _⟩ := sees.quiet calm.quiet
  rw [← storage] at trackedFiles trackedNative trackedSecrets ⊢
  rw [← sees.memory] at trackedSecrets closed
  refine (gives_bind _ _).mpr ((gives_remembered _).mpr ?_)
  refine ((platform.checkUnchanged_passes (sees.calm calm) trackedFiles trackedNative
    trackedSecrets resolved).and (platform.checkUnchanged_looks locked)).bind ?_
    fun _ _ failed => by cases failed.1
  rintro _ checked ⟨_, seesChecked⟩
  have calmChecked := seesChecked.calm (sees.calm calm)
  obtain ⟨storage, _⟩ := seesChecked.quiet (sees.calm calm).quiet
  rw [← storage] at trackedFiles trackedNative trackedSecrets ⊢
  rw [← seesChecked.memory] at closed
  refine (restore_journal .secrets (fun _ => True) calmChecked trackedSecrets
    fun _ _ _ calm _ _ => writeSecret_putsBack calm).bind ?_
    fun _ _ put => by cases (put.returned fun _ _ => trivial).1
  intro _ afterSecrets putSecrets
  have secretsStorage := (putSecrets.returned fun _ _ => trivial).2
  have trackedNative : Tracks native start.native (Shelf.native.view afterSecrets.storage) := by
    rw [secretsStorage]
    exact trackedNative
  refine (restore_journal .native (fun _ => True) putSecrets.calm trackedNative
    fun _ _ _ calm _ _ => writeNativeAuth_putsBack calm).bind ?_
    fun _ _ put => by cases (put.returned fun _ _ => trivial).1
  intro _ afterNative putNative
  have nativeStorage := (putNative.returned fun _ _ => trivial).2
  rw [secretsStorage] at nativeStorage
  have filesStorage : afterNative.storage.files = checked.storage.files := by
    rw [nativeStorage]
    rfl
  rw [← filesStorage] at trackedFiles ⊢
  refine (restore_journal .files IsText putNative.calm trackedFiles ?_).mono ?_
  · intro entry member middle calm memory shown
    refine platform.restoreSnapshot_putsBack calm ?_
      (resolved entry.1 entry.2 (BTreeMap.mem_toList_iff.mp member)) shown
    rw [memory, putNative.memory, putSecrets.memory, closed]
  · intro result after put
    by_cases accepted : ∀ path, afterNative.storage.files path ≠ start.files path →
        IsText (start.files path)
    · refine ⟨fun _ => accepted, fun _ => ?_⟩
      rw [(put.returned accepted).2, nativeStorage]
      rfl
    · exact ⟨fun restored => absurd (congrArg Storage.files restored) (put.refused accepted),
        fun all => absurd all accepted⟩

omit [Std.LawfulEqOrd Path] in
private theorem rollback_closed (closed : scene.memory.Closed) :
    Gives (platform.rollback files native) scene fun _ after => after.memory.Closed := by
  have written : ∀ {program : Transaction Path Unit} {scene : TransactionScene Path}
      {written : Written Path}, Gives program scene (WritesOrFails scene written) →
      scene.memory.Closed → Gives program scene fun _ after => after.memory.Closed := by
    intro program scene written writes closed
    refine writes.mono fun result after ended => ?_
    cases result with
    | ok => exact ended.memory ▸ closed
    | error => exact ended.memory ▸ closed
  unfold rollback
  refine (Looks.forM (fun _ => .fetch _) scene).bind ?_ fun _ _ sees => sees.memory ▸ closed
  intro _ locked sees
  refine (gives_bind _ _).mpr ((gives_remembered _).mpr ?_)
  refine (platform.checkUnchanged_looks locked).bind ?_
    fun _ _ looked => (sees.trans looked).memory ▸ closed
  intro _ checked looked
  refine (Gives.forM_keeps (fun scene : TransactionScene Path => scene.memory.Closed)
    (fun entry scene closed => ?_) ((sees.trans looked).memory ▸ closed)).bind ?_ fun _ _ closed => closed
  · split
    next => exact closed
    next => exact written (writeSecret_writes entry.1 entry.2.before scene) closed
  intro _ _ closed
  refine (Gives.forM_keeps (fun scene : TransactionScene Path => scene.memory.Closed)
    (fun entry scene closed => ?_) closed).bind ?_ fun _ _ closed => closed
  · split
    next => exact closed
    next => exact written (writeNativeAuth_writes entry.1 entry.2.before scene) closed
  intro _ _ closed
  refine Gives.forM_keeps (fun scene : TransactionScene Path => scene.memory.Closed)
    (fun entry scene closed => ?_) closed
  split
  next => exact closed
  next =>
    refine (platform.restoreSnapshotIfUnchanged_leaves entry.1 entry.2.after entry.2.before
      scene).mono fun result after ended => ?_
    cases result with
    | ok =>
        obtain ⟨rewrite, _, rewrote⟩ := ended
        rw [rewrote.memory]
        exact closed.record rewrite
    | error => exact ended.memory ▸ closed

end Platform

/-! ### The whole switch -/

section

variable {Result : Type} {codexHome : Path} {operation : SwitchOperation Path Result}

/-- The journals are taken before anything else happens. -/
def taken (scene : TransactionScene Path) : TransactionScene Path :=
  { scene with memory := { scene.memory with fileChanges := none, nativeAuthChanges := none } }

omit [Std.LawfulEqOrd Path] in
theorem Platform.run_unopened {error : LocalPoolError}
    (operated : (platform.operate codexHome operation).run scene = (.error error, middle)) :
    (platform.run codexHome operation).run scene = (.error error, middle) := by
  unfold Platform.run
  rw [ExceptT.run_bind]
  simp only [bind, StateT.bind, operated]
  rfl

omit [Std.LawfulEqOrd Path] in
theorem Platform.run_returned {value : Result} {log : List (Written Path)}
    (operated : (platform.operate codexHome operation).run scene = (.ok (.ok value, log), middle)) :
    (platform.run codexHome operation).run scene = (.ok value, taken middle) := by
  unfold Platform.run
  rw [ExceptT.run_bind]
  simp only [bind, StateT.bind, operated]
  rfl

omit [Std.LawfulEqOrd Path] in
theorem Platform.run_failed {error : LocalPoolError} {log : List (Written Path)}
    {files : FileChanges Path} {native : NativeAuthChanges Path}
    (operated : (platform.operate codexHome operation).run scene =
      (.ok (.error error, log), middle))
    (openFiles : middle.memory.fileChanges = some files)
    (openNative : middle.memory.nativeAuthChanges = some native) :
    (platform.run codexHome operation).run scene =
      (.error (withRollback error ((platform.rollback files native).run (taken middle)).1),
        ((platform.rollback files native).run (taken middle)).2) := by
  unfold Platform.run
  rw [ExceptT.run_bind]
  simp only [bind, StateT.bind, operated]
  have files' : middle.memory.fileChanges.getD ∅ = files := by rw [openFiles]; rfl
  have native' : middle.memory.nativeAuthChanges.getD ∅ = native := by rw [openNative]; rfl
  rw [← files', ← native']
  rfl

end

/-- What the rollback does first: it locks homes, then reads again every value that the
journals expect. -/
def Journals.readAgain (journals : Journals Path) : List (Option (Written Path)) :=
  let native := journals.nativeAuthChanges.getD ∅
  (Platform.lockedHomes native).map (fun _ => none) ++
    (Platform.checked (journals.fileChanges.getD ∅) native journals.secretChanges).map some

/-- A failed switch is undone, or stays away from what others have changed by the time the
rollback reads it again; and it leaves no journal. -/
structure AllOrNothing {Result : Type} (platform : Platform Path) (codexHome : Path)
    (operation : SwitchOperation Path Result) (scene : TransactionScene Path) : Prop where
  undone : ∀ error, ((platform.run codexHome operation).run scene).1 = .error error →
    scene.Quiet → ((platform.operate codexHome operation).run scene).2.Calm →
    ((platform.run codexHome operation).run scene).2.storage = scene.storage
  refused : ∀ error log written,
    ((platform.operate codexHome operation).run scene).1 = .ok (.error error, log) →
    Newest log written →
    ∃ before rest, ((platform.operate codexHome operation).run scene).2.memory.readAgain =
        before ++ some written :: rest ∧
      (¬(((platform.operate codexHome operation).run scene).2.later
          (before.length + 1)).storage.Shows written →
        (∃ message, ((platform.run codexHome operation).run scene).1 =
          .error ⟨.recoveryRequired, message⟩) ∧
        ((platform.operate codexHome operation).run scene).2.Edited
          ((platform.run codexHome operation).run scene).2)
  closed : ((platform.run codexHome operation).run scene).2.memory.Closed

/-- Every file that the failed operation leaves changed was missing or held valid UTF-8. -/
def ChangesTexts {Result : Type} (platform : Platform Path) (codexHome : Path)
    (operation : SwitchOperation Path Result) (scene : TransactionScene Path) : Prop :=
  ∀ error log, ((platform.operate codexHome operation).run scene).1 = .ok (.error error, log) →
    scene.Quiet → ((platform.operate codexHome operation).run scene).2.Calm →
    ∀ path, ((platform.operate codexHome operation).run scene).2.storage.files path ≠
      scene.storage.files path → IsText (scene.storage.files path)

section

variable {Result : Type} (codexHome : Path) (operation : SwitchOperation Path Result)

/-- What is known of the journals when an operation has failed. -/
theorem Platform.operate_failed {error : LocalPoolError} {log : List (Written Path)}
    (failed : ((platform.operate codexHome operation).run scene).1 = .ok (.error error, log)) :
    Watched platform scene (.ok log) ((platform.operate codexHome operation).run scene).2 := by
  have watched := platform.operate_watches codexHome operation scene
  unfold Gives at watched
  rw [failed] at watched
  exact watched

/-- The rollback of a failed operation restores the storage exactly if the files that it
changed held texts. -/
theorem Platform.failed_undone {error : LocalPoolError} {log : List (Written Path)}
    (failed : ((platform.operate codexHome operation).run scene).1 = .ok (.error error, log))
    (quiet : scene.Quiet) (calm : ((platform.operate codexHome operation).run scene).2.Calm) :
    ((platform.run codexHome operation).run scene).2.storage = scene.storage ↔
      ∀ path, ((platform.operate codexHome operation).run scene).2.storage.files path ≠
        scene.storage.files path → IsText (scene.storage.files path) := by
  obtain ⟨_, journaled, undoable⟩ := platform.operate_failed codexHome operation failed
  obtain ⟨files, native, openFiles, openNative, resolved⟩ := journaled.opened
  have operated : (platform.operate codexHome operation).run scene =
      (.ok (.error error, log), ((platform.operate codexHome operation).run scene).2) :=
    Prod.ext failed rfl
  have undoable := undoable quiet
  rw [platform.run_failed operated openFiles openNative]
  exact platform.rollback_restores calm rfl (undoable.files files openFiles)
    (undoable.native native openNative) undoable.secrets resolved

private theorem Platform.failed_refused {error : LocalPoolError} {log : List (Written Path)}
    {written : Written Path}
    (failed : ((platform.operate codexHome operation).run scene).1 = .ok (.error error, log))
    (newest : Newest log written) :
    ∃ before rest, ((platform.operate codexHome operation).run scene).2.memory.readAgain =
        before ++ some written :: rest ∧
      (¬(((platform.operate codexHome operation).run scene).2.later
          (before.length + 1)).storage.Shows written →
        (∃ message, ((platform.run codexHome operation).run scene).1 =
          .error ⟨.recoveryRequired, message⟩) ∧
        ((platform.operate codexHome operation).run scene).2.Edited
          ((platform.run codexHome operation).run scene).2) := by
  obtain ⟨_, journaled, _⟩ := platform.operate_failed codexHome operation failed
  obtain ⟨files, native, openFiles, openNative, resolved⟩ := journaled.opened
  have operated : (platform.operate codexHome operation).run scene =
      (.ok (.error error, log), ((platform.operate codexHome operation).run scene).2) :=
    Prod.ext failed rfl
  rw [platform.run_failed operated openFiles openNative]
  generalize ((platform.operate codexHome operation).run scene).2 = ended at *
  have expects : (⟨some files, some native, ended.memory.secretChanges⟩ :
      Journals Path).Expects written := by
    rw [← openFiles, ← openNative]
    exact journaled.expects written newest
  obtain ⟨before, rest, split⟩ := List.append_of_mem (mem_checked expects)
  refine ⟨(lockedHomes native).map (fun _ => none) ++ before.map some, rest.map some, ?_, ?_⟩
  · rw [Journals.readAgain, openFiles, openNative]
    simp only [Option.getD_some, split]
    simp
  · intro changed
    rw [List.length_append, List.length_map, List.length_map, Nat.add_assoc] at changed
    obtain ⟨⟨rollbackError, refused⟩, sees⟩ :=
      platform.rollback_refuses (taken ended) split resolved changed
    exact ⟨⟨error.message ++ "; profile rollback failed: " ++ rollbackError.message,
      congrArg (fun outcome => Except.error (withRollback error outcome)) refused⟩, sees.edited⟩

private theorem Platform.run_closed (closed : scene.memory.Closed) :
    ((platform.run codexHome operation).run scene).2.memory.Closed := by
  have watched := platform.operate_watches codexHome operation scene
  unfold Gives at watched
  cases operated : (platform.operate codexHome operation).run scene with
  | mk result middle =>
      rw [operated] at watched
      match result with
      | .error error =>
          rw [platform.run_unopened operated]
          exact watched.memory ▸ closed
      | .ok (.ok value, log) =>
          rw [platform.run_returned operated]
          exact ⟨rfl, rfl⟩
      | .ok (.error error, log) =>
          obtain ⟨files, native, openFiles, openNative, _⟩ := watched.2.1.opened
          rw [platform.run_failed operated openFiles openNative]
          exact platform.rollback_closed ⟨rfl, rfl⟩

end

/-- A switch from a thread without a journal is all or nothing exactly if a failing operation
only leaves files changed that were missing or held valid UTF-8. -/
theorem switch_all_or_nothing {Result : Type} (platform : Platform Path) (codexHome : Path)
    (operation : SwitchOperation Path Result) (storage : Storage Path)
    (ahead : List (Moment (Storage Path) LocalPoolError)) :
    AllOrNothing platform codexHome operation ⟨⟨none, none, ∅⟩, storage, ahead⟩ ↔
      ChangesTexts platform codexHome operation ⟨⟨none, none, ∅⟩, storage, ahead⟩ := by
  constructor
  · intro allOrNothing error log failed quiet calm
    obtain ⟨_, journaled, _⟩ := platform.operate_failed codexHome operation failed
    obtain ⟨files, native, openFiles, openNative, _⟩ := journaled.opened
    have ended := platform.run_failed (Prod.ext failed rfl) openFiles openNative
    exact (platform.failed_undone codexHome operation failed quiet calm).mp
      (allOrNothing.undone _ (congrArg Prod.fst ended) quiet calm)
  · intro changesTexts
    refine ⟨fun error ended quiet calm => ?_, fun error log written failed newest =>
      platform.failed_refused codexHome operation failed newest,
      platform.run_closed codexHome operation ⟨rfl, rfl⟩⟩
    have watched := platform.operate_watches codexHome operation
      ⟨⟨none, none, ∅⟩, storage, ahead⟩
    unfold Gives at watched
    cases operated : (platform.operate codexHome operation).run
        ⟨⟨none, none, ∅⟩, storage, ahead⟩ with
    | mk result middle =>
        match result with
        | .error failure =>
            rw [operated] at watched
            rw [platform.run_unopened operated]
            exact (watched.quiet quiet).1
        | .ok (.ok value, log) =>
            rw [platform.run_returned operated] at ended
            cases ended
        | .ok (.error failure, log) =>
            have failed := congrArg Prod.fst operated
            exact (platform.failed_undone codexHome operation failed quiet calm).mpr
              (changesTexts failure log failed quiet calm)

end

/-! ### A cache that is no text -/

def directPlatform : Platform String :=
  ⟨id, fun _ => rfl, id, fun path name => path ++ "/" ++ name, id, fun _ => "invalid utf-8"⟩

/-- `invalidate_models_cache`, before something else fails. -/
def invalidatesThenFails : SwitchOperation String Unit :=
  .perform (.readOptionalBytes "models_cache.json") fun cacheSnapshot =>
    .perform (.removeIfUnchanged "models_cache.json" (cacheSnapshot.toOption.getD none)) fun _ =>
      .done (.error ⟨.io, "attach failed"⟩)

def onlyCache (content : ByteArray) : Storage String where
  files path := if path = "models_cache.json" then some content else none
  secrets _ := none
  native _ := none

/-- A text is put back. -/
theorem switch_all_or_nothing_text :
    AllOrNothing directPlatform "home" invalidatesThenFails
      ⟨⟨none, none, ∅⟩, onlyCache "[]".toByteArray, []⟩ := by
  refine (switch_all_or_nothing directPlatform "home" invalidatesThenFails _ []).mpr ?_
  intro _ _ _ _ _ path _ bytes held
  have held : (if path = "models_cache.json" then some "[]".toByteArray else none) =
      some bytes := held
  split at held
  next =>
    injection held with held
    exact held ▸ "[]".isValidUTF8
  next => cases held

/-- Saves a secret and writes `config.toml`, before something else fails. -/
def attachesThenFails : SwitchOperation String Unit :=
  .perform (.saveSecret "relay" "new") fun _ =>
    .perform (.replaceIfUnchanged "home/config.toml" none "attached") fun _ =>
      .done (.error ⟨.io, "attach failed"⟩)

/-- Another process writes `config.toml` once the rollback has found everything unchanged. -/
def lateForeignConfig : List (Moment (Storage String) LocalPoolError) :=
  List.replicate 10 ⟨id, none⟩ ++ [⟨fun storage => { storage with
    files := Function.update storage.files "home/config.toml" (some "foreign".toByteArray) }, none⟩]

/-- One byte that is not UTF-8 is lost; a write behind the checks of the rollback ends it
after it has put the secret back. -/
theorem removed_bytes_lost :
    ¬AllOrNothing directPlatform "home" invalidatesThenFails
      ⟨⟨none, none, ∅⟩, onlyCache ⟨#[0xFF]⟩, []⟩ ∧
    let scene : TransactionScene String :=
      ⟨⟨none, none, ∅⟩, ⟨fun _ => none, fun _ => none, fun _ => none⟩, lateForeignConfig⟩
    let ended := (directPlatform.run "home" attachesThenFails).run scene
    ended.1.isOk = false ∧
      ended.2.storage.files "home/config.toml" = some "foreign".toByteArray ∧
      ((directPlatform.operate "home" attachesThenFails).run scene).2.storage.secrets "relay" =
        some "new" ∧
      ended.2.storage.secrets "relay" = none := by
  refine ⟨fun allOrNothing => ?_, by decide +kernel⟩
  have lost : ((directPlatform.run "home" invalidatesThenFails).run
      ⟨⟨none, none, ∅⟩, onlyCache ⟨#[0xFF]⟩, []⟩).2.storage.files "models_cache.json" = none := by
    decide +kernel
  have failed : ((directPlatform.run "home" invalidatesThenFails).run
      ⟨⟨none, none, ∅⟩, onlyCache ⟨#[0xFF]⟩, []⟩).1.isOk = false := by
    decide +kernel
  have calm : ((directPlatform.operate "home" invalidatesThenFails).run
      ⟨⟨none, none, ∅⟩, onlyCache ⟨#[0xFF]⟩, []⟩).2.ahead.length = 0 := by
    decide +kernel
  cases ended : ((directPlatform.run "home" invalidatesThenFails).run
      ⟨⟨none, none, ∅⟩, onlyCache ⟨#[0xFF]⟩, []⟩).1 with
  | ok => rw [ended] at failed; cases failed
  | error error =>
      have restored := allOrNothing.undone error ended nofun fun moment member =>
        absurd (List.length_pos_of_mem member) (calm ▸ Nat.lt_irrefl 0)
      rw [restored] at lost
      cases lost

end ZenithRelay.LocalPool.Profiles.Codex
