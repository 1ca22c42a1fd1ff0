import ZenithRelay.LocalPool.Profiles.Codex.SwitchJournals

/-!
# What the journals of a switch know

The journals expect the newest value of every place; while nobody else writes they also
know the value before the switch.
-/

set_option autoImplicit false

namespace ZenithRelay.LocalPool.Profiles.Codex

open Exposed

section

variable {Path : Type} [Ord Path] [DecidableEq Path]
variable {scene middle after : TransactionScene Path}
variable [Std.TransOrd Path] [Std.LawfulEqOrd Path]

omit [Ord Path] [DecidableEq Path] [Std.TransOrd Path] [Std.LawfulEqOrd Path] in
theorem newest_cons {log : List (Written Path)} {written newer : Written Path}
    (newest : Newest (newer :: log) written) :
    written = newer ∨ newer.place ≠ written.place ∧ Newest log written := by
  obtain ⟨later, earlier, split, others⟩ := newest
  cases later with
  | nil =>
      injection split with same
      exact .inl same.symm
  | cons first later =>
      injection split with same split
      subst same
      exact .inr ⟨others newer List.mem_cons_self, later, earlier, split,
        fun other member => others other (List.mem_cons_of_mem _ member)⟩

/-- The journals of the thread are open, and expect the newest values. -/
structure Journaled (platform : Platform Path) (log : List (Written Path))
    (scene : TransactionScene Path) : Prop where
  opened : ∃ files native, scene.memory.fileChanges = some files ∧
    scene.memory.nativeAuthChanges = some native ∧
    ∀ path change, files[path]? = some change → platform.journalPath path = path
  expects : ∀ written, Newest log written → scene.memory.Expects written

/-- While nobody else writes, the journals know every value before and after. -/
structure Undoable (start : Storage Path) (scene : TransactionScene Path) : Prop where
  quiet : scene.Quiet
  files : ∀ files, scene.memory.fileChanges = some files →
    Tracks files start.files scene.storage.files
  native : ∀ native, scene.memory.nativeAuthChanges = some native →
    Tracks native start.native scene.storage.native
  secrets : Tracks scene.memory.secretChanges start.secrets scene.storage.secrets

private theorem Journals.expects_record {journals : Journals Path} {rewrite : Rewrite Path}
    (files : journals.fileChanges.isSome) (native : journals.nativeAuthChanges.isSome) :
    (journals.record rewrite).Expects rewrite.written := by
  obtain ⟨files, openFiles⟩ := Option.isSome_iff_exists.mp files
  obtain ⟨native, openNative⟩ := Option.isSome_iff_exists.mp native
  cases rewrite with
  | file path before after =>
      exact ⟨_, _, congrArg (Option.map _) openFiles,
        (lookup_recordChange files path path before after).trans (if_pos rfl), rfl⟩
  | secret secretRef before after =>
      exact ⟨_, (lookup_recordChange _ secretRef secretRef before after).trans (if_pos rfl), rfl⟩
  | native key before after =>
      exact ⟨_, _, congrArg (Option.map _) openNative,
        (lookup_recordChange native key key before after).trans (if_pos rfl), rfl⟩

theorem Journals.Expects.record {journals : Journals Path} {rewrite : Rewrite Path}
    {written : Written Path} (expects : journals.Expects written)
    (elsewhere : rewrite.written.place ≠ written.place) :
    (journals.record rewrite).Expects written := by
  cases rewrite with
  | file path before after =>
      cases written with
      | file other content =>
          obtain ⟨files, change, openFiles, found, same⟩ := expects
          refine ⟨_, change, congrArg (Option.map _) openFiles, ?_, same⟩
          have distinct : other ≠ path := fun equal => elsewhere (congrArg Place.file equal.symm)
          rw [lookup_recordChange, if_neg distinct]
          exact found
      | secret | native => exact expects
  | secret secretRef before after =>
      cases written with
      | secret other secretValue =>
          obtain ⟨change, found, same⟩ := expects
          refine ⟨change, ?_, same⟩
          have distinct : other ≠ secretRef :=
            fun equal => elsewhere (congrArg Place.secret equal.symm)
          exact (lookup_recordChange _ secretRef other before after).trans
            ((if_neg distinct).trans found)
      | file | native => exact expects
  | native key before after =>
      cases written with
      | native other auth =>
          obtain ⟨native, change, openNative, found, same⟩ := expects
          refine ⟨_, change, congrArg (Option.map _) openNative, ?_, same⟩
          have distinct : other ≠ key := fun equal => elsewhere (congrArg Place.native equal.symm)
          rw [lookup_recordChange, if_neg distinct]
          exact found
      | file | secret => exact expects

variable {platform : Platform Path} {log : List (Written Path)} {start : Storage Path}

omit [DecidableEq Path] [Std.LawfulEqOrd Path] in
theorem Journaled.sees (journaled : Journaled platform log scene) (sees : scene.Sees after) :
    Journaled platform log after where
  opened := sees.memory ▸ journaled.opened
  expects := sees.memory ▸ journaled.expects

theorem Journaled.rewrote {rewrite : Rewrite Path} (journaled : Journaled platform log scene)
    (resolved : rewrite.written.Resolved platform) (rewrote : Rewrote scene after rewrite) :
    Journaled platform (rewrite.written :: log) after := by
  obtain ⟨files, native, openFiles, openNative, keys⟩ := journaled.opened
  refine ⟨?_, fun written newest => ?_⟩
  · rw [rewrote.memory]
    cases rewrite with
    | file path before content =>
        refine ⟨_, native, congrArg (Option.map _) openFiles, openNative, ?_⟩
        intro other change found
        rw [lookup_recordChange] at found
        split at found
        next same => exact same ▸ resolved
        next => exact keys other change found
    | secret secretRef before secretValue => exact ⟨files, native, openFiles, openNative, keys⟩
    | native key before auth =>
        exact ⟨files, _, openFiles, congrArg (Option.map _) openNative, keys⟩
  · rw [rewrote.memory]
    cases newest_cons newest with
    | inl same =>
        rw [same]
        exact Journals.expects_record (openFiles ▸ rfl) (openNative ▸ rfl)
    | inr other => exact (journaled.expects written other.2).record other.1

omit [DecidableEq Path] [Std.LawfulEqOrd Path] in
theorem Undoable.sees (undoable : Undoable start scene) (sees : scene.Sees after) :
    Undoable start after := by
  obtain ⟨same, still⟩ := sees.quiet undoable.quiet
  refine ⟨still, ?_, ?_, ?_⟩
  · rw [sees.memory, same]
    exact undoable.files
  · rw [sees.memory, same]
    exact undoable.native
  · rw [sees.memory, same]
    exact undoable.secrets

theorem Undoable.rewrote {rewrite : Rewrite Path} (undoable : Undoable start scene)
    (rewrote : Rewrote scene after rewrite) : Undoable start after := by
  obtain ⟨shown, storage, still⟩ := rewrote.quiet undoable.quiet
  have memory := rewrote.memory
  cases rewrite with
  | file path before content =>
      have replaced : scene.storage.files path = before := shown
      refine ⟨still, fun files opened => ?_, ?_, ?_⟩
      · rw [memory] at opened
        obtain ⟨journal, openJournal, recorded⟩ := Option.map_eq_some_iff.mp opened
        rw [storage, ← recorded, ← replaced]
        exact (undoable.files journal openJournal).recordChange path content
      · rw [memory, storage]
        exact undoable.native
      · rw [memory, storage]
        exact undoable.secrets
  | secret secretRef before secretValue =>
      have replaced : scene.storage.secrets secretRef = before := shown
      refine ⟨still, ?_, ?_, ?_⟩
      · rw [memory, storage]
        exact undoable.files
      · rw [memory, storage]
        exact undoable.native
      · rw [memory, storage, ← replaced]
        exact undoable.secrets.recordChange secretRef secretValue
  | native key before auth =>
      have replaced : scene.storage.native key = before := shown
      refine ⟨still, ?_, fun native opened => ?_, ?_⟩
      · rw [memory, storage]
        exact undoable.files
      · rw [memory] at opened
        obtain ⟨journal, openJournal, recorded⟩ := Option.map_eq_some_iff.mp opened
        rw [storage, ← recorded, ← replaced]
        exact (undoable.native journal openJournal).recordChange key auth
      · rw [memory, storage]
        exact undoable.secrets

/-- What holds when the journals are open, or nothing was opened. -/
def Watched (platform : Platform Path) (scene : TransactionScene Path) :
    Except LocalPoolError (List (Written Path)) → TransactionScene Path → Prop
  | .ok log, after => scene.memory.fileChanges = none ∧ Journaled platform log after ∧
      (scene.Quiet → Undoable scene.storage after)
  | .error _, after => scene.Sees after

theorem watched_files (files : Option ByteArray × Option ByteArray) (config auth : Path)
    (path : Path) :
    (((∅ : FileChanges Path).insert config ⟨files.1, files.1⟩).insert auth
      ⟨files.2, files.2⟩)[path]? =
      if path = auth then some ⟨files.2, files.2⟩
      else if path = config then some ⟨files.1, files.1⟩ else none := by
  rw [BTreeMap.lookup_insert, BTreeMap.lookup_insert]
  simp

private theorem tracks_watched (files : Path → Option ByteArray) (config auth : Path) :
    Tracks (((∅ : FileChanges Path).insert config ⟨files config, files config⟩).insert auth
      ⟨files auth, files auth⟩) files files := by
  intro path
  rw [watched_files (files config, files auth)]
  by_cases atAuth : path = auth
  · simp [atAuth]
  · by_cases atConfig : path = config
    · subst atConfig
      simp [atAuth]
    · simp [atAuth, atConfig]

private theorem Platform.openJournals_watches (codexHome : Path) (scene : TransactionScene Path) :
    Gives (platform.openJournals codexHome) scene (Watched platform scene) := by
  unfold Platform.openJournals Platform.readOptionalBytes
  refine (gives_bind _ _).mpr ((gives_remembered _).mpr ?_)
  refine (gives_bind _ _).mpr (Gives.ensure (fun closed => ?_) fun _ => .refl scene)
  refine (gives_bind _ _).mpr (Gives.fetch (fun _ _ sees _ => sees) ?_)
  intro created sees
  refine (gives_bind _ _).mpr (Gives.fetch (fun _ _ more _ => sees.trans more) ?_)
  intro configRead more
  have first := sees.trans more
  refine (gives_bind _ _).mpr (Gives.fetch (fun _ _ more _ => first.trans more) ?_)
  intro authRead last
  have seen := first.trans last
  rw [platform.resolved, platform.resolved]
  generalize config : platform.journalPath (platform.join codexHome configFile) = configPath
  generalize auth : platform.journalPath (platform.join codexHome authFile) = authPath
  generalize held : (configRead.storage.files configPath, authRead.storage.files authPath) = files
  have held : configRead.storage.files configPath = files.1 ∧
      authRead.storage.files authPath = files.2 := by
    rw [← held]
    exact ⟨rfl, rfl⟩
  rw [held.1, held.2]
  have resolvedConfig : platform.journalPath configPath = configPath := by
    rw [← config, platform.resolved]
  have resolvedAuth : platform.journalPath authPath = authPath := by
    rw [← auth, platform.resolved]
  refine ⟨?_, ⟨⟨_, _, rfl, rfl, ?_⟩, ?_⟩, fun quiet => ?_⟩
  · cases opened : scene.memory.fileChanges with
    | none => rfl
    | some journal =>
        rw [opened] at closed
        cases closed
  · intro path change found
    rw [watched_files] at found
    split at found
    next same => exact same ▸ resolvedAuth
    next =>
      split at found
      next same => exact same ▸ resolvedConfig
      next => cases found
  · intro written newest
    cases newest_cons newest with
    | inl same =>
        subst same
        exact ⟨_, _, rfl, (watched_files files configPath authPath authPath).trans (if_pos rfl),
          rfl⟩
    | inr older =>
        cases newest_cons older.2 with
        | inl same =>
            subst same
            have distinct : configPath ≠ authPath :=
              fun equal => older.1 (congrArg Place.file equal.symm)
            refine ⟨_, ⟨files.1, files.1⟩, rfl, ?_, rfl⟩
            rw [watched_files, if_neg distinct, if_pos rfl]
        | inr none =>
            obtain ⟨_, later, earlier, split, _⟩ := none
            cases later <;> cases split
  · obtain ⟨sameRead, _⟩ := first.quiet quiet
    obtain ⟨same, still⟩ := seen.quiet quiet
    rw [sameRead, same] at held
    refine ⟨still, fun journal opened => ?_, fun journal opened => ?_, ?_⟩
    · injection opened with opened
      show Tracks _ scene.storage.files authRead.storage.files
      rw [← opened, same, ← held.1, ← held.2]
      exact tracks_watched scene.storage.files configPath authPath
    · injection opened with opened
      rw [← opened, ← same]
      exact tracks_empty authRead.storage.native
    · rw [← same]
      exact tracks_empty authRead.storage.secrets

theorem Platform.operate_watches {Result : Type} (codexHome : Path)
    (operation : SwitchOperation Path Result) (scene : TransactionScene Path) :
    Gives (platform.operate codexHome operation) scene fun result after =>
      Watched platform scene (result.map Prod.snd) after := by
  unfold Platform.operate
  refine (platform.openJournals_watches codexHome scene).bind ?_ fun _ _ sees => sees
  rintro seen middle ⟨closed, journaled, undoable⟩
  refine (platform.runOperation_keeps
    (fun log after =>
      Journaled platform log after ∧ (scene.Quiet → Undoable scene.storage after))
    (fun holds sees => ⟨holds.1.sees sees, fun quiet => (holds.2 quiet).sees sees⟩)
    (fun holds resolved rewrote =>
      ⟨holds.1.rewrote resolved rewrote, fun quiet => (holds.2 quiet).rewrote rewrote⟩)
    operation ⟨journaled, undoable⟩).bind ?_ ?_
  · rintro operated after ⟨ended, later, same, holds⟩
    cases same
    exact ⟨closed, holds⟩
  · rintro error after ⟨ended, later, same, _⟩
    cases same

end

end ZenithRelay.LocalPool.Profiles.Codex
