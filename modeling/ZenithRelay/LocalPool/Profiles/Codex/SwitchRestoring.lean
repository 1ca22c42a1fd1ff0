import ZenithRelay.LocalPool.Profiles.Codex.SwitchUndo

/-!
# Putting the values of a switch back

A journal restores its store to the values before the switch, up to a file whose bytes
are no text.
-/

set_option autoImplicit false

namespace ZenithRelay.LocalPool.Profiles.Codex

open Exposed

section

variable {Path : Type} [Ord Path] [DecidableEq Path]
variable {scene middle after : TransactionScene Path}
variable [Std.TransOrd Path] [Std.LawfulEqOrd Path]

variable {platform : Platform Path}

/-- One of the three stores. -/
structure Shelf (Path Key Value : Type) where
  view : Storage Path → Key → Option Value
  replace : Storage Path → (Key → Option Value) → Storage Path
  view_replace : ∀ storage values, view (replace storage values) = values
  replace_replace : ∀ storage first second,
    replace (replace storage first) second = replace storage second
  replace_view : ∀ storage, replace storage (view storage) = storage

def Shelf.files : Shelf Path Path ByteArray :=
  ⟨Storage.files, fun storage files => { storage with files }, fun _ _ => rfl, fun _ _ _ => rfl,
    fun _ => rfl⟩

def Shelf.secrets : Shelf Path String String :=
  ⟨Storage.secrets, fun storage secrets => { storage with secrets }, fun _ _ => rfl,
    fun _ _ _ => rfl, fun _ => rfl⟩

def Shelf.native : Shelf Path (Path × Bool) String :=
  ⟨Storage.native, fun storage native => { storage with native }, fun _ _ => rfl,
    fun _ _ _ => rfl, fun _ => rfl⟩

section

variable {Key Value : Type} [DecidableEq Key] [DecidableEq Value]

/-- The value before is put back; nothing is if it is not accepted. -/
structure PutBack (shelf : Shelf Path Key Value) (scene after : TransactionScene Path)
    (entry : Key × Change Value) (accepts : Prop) (result : Except LocalPoolError Unit) :
    Prop where
  calm : after.Calm
  memory : after.memory = scene.memory
  returned : accepts → result = .ok () ∧ after.storage =
    shelf.replace scene.storage
      (Function.update (shelf.view scene.storage) entry.1 entry.2.before)
  refused : ¬accepts → result ≠ .ok () ∧ after.storage = scene.storage

/-- The whole store is as it was at the start, or a value that is not accepted keeps it
from that. -/
structure PutAllBack (shelf : Shelf Path Key Value) (start : Key → Option Value)
    (scene after : TransactionScene Path) (accepts : Prop) (result : Except LocalPoolError Unit) :
    Prop where
  calm : after.Calm
  memory : after.memory = scene.memory
  returned : accepts → result = .ok () ∧ after.storage = shelf.replace scene.storage start
  refused : ¬accepts → shelf.view after.storage ≠ start

omit [DecidableEq Path] [Std.TransOrd Path] [Std.LawfulEqOrd Path] in
private theorem restore_all (shelf : Shelf Path Key Value) {start : Key → Option Value}
    {accepts : Option Value → Prop} {restore : Key × Change Value → Transaction Path Unit}
    (entries : List (Key × Change Value)) {scene : TransactionScene Path}
    (restores : ∀ entry ∈ entries, ∀ middle : TransactionScene Path, middle.Calm →
      middle.memory = scene.memory → shelf.view middle.storage entry.1 = entry.2.after →
      Gives (restore entry) middle fun result after =>
        PutBack shelf middle after entry (accepts entry.2.before) result)
    (distinct : (entries.map Prod.fst).Nodup) (calm : scene.Calm)
    (tracked : ∀ entry ∈ entries, entry.2.before = start entry.1 ∧
      entry.2.after = shelf.view scene.storage entry.1)
    (others : ∀ key, key ∉ entries.map Prod.fst → shelf.view scene.storage key = start key) :
    Gives (entries.forM fun entry =>
      if entry.2.before = entry.2.after then pure () else restore entry) scene fun result after =>
        PutAllBack shelf start scene after
          (∀ entry ∈ entries, entry.2.before ≠ entry.2.after → accepts entry.2.before)
          result := by
  induction entries generalizing scene with
  | nil =>
      have same : shelf.view scene.storage = start := funext fun key => others key (by simp)
      refine ⟨calm, rfl, fun _ => ⟨rfl, ?_⟩, fun none => absurd (by simp) none⟩
      rw [← same, shelf.replace_view]
      rfl
  | cons entry entries ih =>
      obtain ⟨fresh, distinct⟩ := List.nodup_cons.mp distinct
      obtain ⟨before, held⟩ := tracked entry List.mem_cons_self
      have rest : ∀ other ∈ entries, other.1 ≠ entry.1 := fun other member same =>
        fresh (same ▸ List.mem_map_of_mem member)
      show Gives ((if entry.2.before = entry.2.after then pure () else restore entry) >>=
        fun _ => entries.forM _) scene _
      split
      next unchanged =>
        -- The value was left as it was.
        refine (ih (fun entry member => restores entry (List.mem_cons_of_mem _ member)) distinct
          calm (fun entry member => tracked entry (List.mem_cons_of_mem _ member)) ?_).mono ?_
        · intro key elsewhere
          by_cases own : key = entry.1
          · rw [own, ← held, ← unchanged, before]
          · refine others key fun member => ?_
            cases List.mem_cons.mp member with
            | inl same => exact own same
            | inr later => exact elsewhere later
        · intro result after put
          have same : (∀ other ∈ entry :: entries,
                other.2.before ≠ other.2.after → accepts other.2.before) ↔
              ∀ other ∈ entries, other.2.before ≠ other.2.after → accepts other.2.before := by
            rw [List.forall_mem_cons]
            exact ⟨fun both => both.2, fun later => ⟨fun changed => absurd unchanged changed, later⟩⟩
          exact ⟨put.calm, put.memory, fun accepted => put.returned (same.mp accepted),
            fun refused => put.refused fun accepted => refused (same.mpr accepted)⟩
      next changed =>
        refine (gives_bind _ _).mpr ((restores entry List.mem_cons_self scene calm rfl
          held.symm).mono fun result middle put => ?_)
        by_cases accepted : accepts entry.2.before
        · obtain ⟨returned, storage⟩ := put.returned accepted
          subst returned
          have view : shelf.view middle.storage =
              Function.update (shelf.view scene.storage) entry.1 entry.2.before := by
            rw [storage, shelf.view_replace]
          refine (ih ?_ distinct put.calm ?_ ?_).mono ?_
          · intro other member at_ calmAt memory shown
            exact restores other (List.mem_cons_of_mem _ member) at_ calmAt
              (memory.trans put.memory) shown
          · intro other member
            rw [view, Function.update_of_ne (rest other member)]
            exact tracked other (List.mem_cons_of_mem _ member)
          · intro key elsewhere
            rw [view]
            by_cases own : key = entry.1
            · rw [own, Function.update_self, before]
            · rw [Function.update_of_ne own]
              refine others key fun member => ?_
              cases List.mem_cons.mp member with
              | inl same => exact own same
              | inr later => exact elsewhere later
          · intro result after putLater
            refine ⟨putLater.calm, putLater.memory.trans put.memory, fun all => ?_, fun notAll => ?_⟩
            · obtain ⟨returned, final⟩ := putLater.returned
                fun other member => all other (List.mem_cons_of_mem _ member)
              refine ⟨returned, ?_⟩
              rw [final, storage, shelf.replace_replace]
            · refine putLater.refused fun later => notAll ?_
              exact List.forall_mem_cons.mpr ⟨fun _ => accepted, later⟩
        · obtain ⟨failed, storage⟩ := put.refused accepted
          have notAll : ¬∀ other ∈ entry :: entries,
              other.2.before ≠ other.2.after → accepts other.2.before :=
            fun all => accepted (all entry List.mem_cons_self changed)
          cases result with
          | ok => exact absurd rfl failed
          | error error =>
              refine ⟨put.calm, put.memory, fun all => absurd all notAll, fun _ restored => ?_⟩
              rw [storage] at restored
              exact changed (by rw [before, held, restored])

variable [Ord Key] [Std.TransOrd Key] [Std.LawfulEqOrd Key]

omit [DecidableEq Path] [Std.TransOrd Path] [Std.LawfulEqOrd Path] in
theorem restore_journal (shelf : Shelf Path Key Value) (accepts : Option Value → Prop)
    {start : Key → Option Value} {restore : Key × Change Value → Transaction Path Unit}
    {journal : BTreeMap Key (Change Value)} {scene : TransactionScene Path} (calm : scene.Calm)
    (tracks : Tracks journal start (shelf.view scene.storage))
    (restores : ∀ entry ∈ journal.toList, ∀ middle : TransactionScene Path, middle.Calm →
      middle.memory = scene.memory → shelf.view middle.storage entry.1 = entry.2.after →
      Gives (restore entry) middle fun result after =>
        PutBack shelf middle after entry (accepts entry.2.before) result) :
    Gives (journal.toList.forM fun entry =>
      if entry.2.before = entry.2.after then pure () else restore entry) scene fun result after =>
        PutAllBack shelf start scene after
          (∀ key, shelf.view scene.storage key ≠ start key → accepts (start key)) result := by
  have same : (∀ key, shelf.view scene.storage key ≠ start key → accepts (start key)) ↔
      ∀ entry ∈ journal.toList, entry.2.before ≠ entry.2.after → accepts entry.2.before := by
    constructor
    · intro accepted entry member changed
      obtain ⟨before, after⟩ := tracks.of_mem member
      rw [before, after] at changed
      rw [before]
      exact accepted entry.1 changed.symm
    · intro accepted key changed
      have tracked := tracks key
      cases found : journal[key]? with
      | none =>
          rw [found] at tracked
          exact absurd tracked changed
      | some change =>
          rw [found] at tracked
          rw [← tracked.1, ← tracked.2] at changed
          rw [← tracked.1]
          exact accepted (key, change) (BTreeMap.mem_toList_iff.mpr found) changed.symm
  rw [same]
  exact restore_all shelf journal.toList restores (BTreeMap.keys_nodup journal) calm
    (fun entry member => tracks.of_mem member) fun key absent => tracks.of_not_mem absent

end

/-! ### The rollback -/

/-- Missing, or valid UTF-8. -/
def IsText (content : Option ByteArray) : Prop := ∀ bytes, content = some bytes → bytes.IsValidUTF8

omit [Ord Path] [DecidableEq Path] [Std.TransOrd Path] [Std.LawfulEqOrd Path] in
private theorem Platform.snapshotText_isText (snapshot : Option ByteArray) (path : Path) :
    IsText snapshot ↔ ∃ content, platform.snapshotText snapshot path = .ok content := by
  unfold IsText Platform.snapshotText
  cases snapshot with
  | none => simp
  | some bytes =>
      unfold String.fromUTF8?
      by_cases valid : bytes.IsValidUTF8
      · simp [valid]
      · simp [valid]

/-- The value is in its place, and nothing else has happened. -/
structure Put (scene after : TransactionScene Path) (written : Written Path)
    (result : Except LocalPoolError Unit) : Prop where
  returned : result = .ok ()
  storage : after.storage = scene.storage.put written
  memory : after.memory = scene.memory
  calm : after.Calm

omit [Std.TransOrd Path] [Std.LawfulEqOrd Path] in
theorem call_puts {act : Storage Path → Except LocalPoolError Unit × Storage Path}
    (written : Written Path) (calm : scene.Calm)
    (puts : act scene.storage = (.ok (), scene.storage.put written)) :
    Gives (call act : Transaction Path Unit) scene fun result after =>
      Put scene after written result := by
  refine (Gives.call_calm calm).mono ?_
  rintro result after ⟨returned, storage, memory, calmAfter⟩
  rw [puts] at returned storage
  exact ⟨returned, storage, memory, calmAfter⟩

namespace Platform

omit [Std.LawfulEqOrd Path] in
/-- With no journal open, a file that is as expected is written. -/
theorem expected_puts {path : Path} {expected content : Option ByteArray}
    {write : Transaction Path Unit} (calm : scene.Calm) (closed : scene.memory.fileChanges = none)
    (same : scene.storage.files (platform.journalPath path) = expected)
    (writes : ∀ scene : TransactionScene Path, scene.Calm →
      scene.storage.files (platform.journalPath path) = expected →
      Gives write scene fun result after =>
        Put scene after (.file (platform.journalPath path) content) result) :
    Gives (do
      platform.checkFile path expected
      let current ← platform.readOptionalBytes path
      ensure (current = expected) (platform.profileChangedAt path)
      write
      platform.recordFile path expected content) scene fun result after =>
      Put scene after (.file (platform.journalPath path) content) result := by
  unfold checkFile
  refine (gives_bind _ _).mpr ((gives_bind _ _).mpr ((gives_remembered _).mpr ?_))
  refine Gives.ensure (fun _ => ?_) fun refused => ?_
  · refine (Gives.fetch_calm calm).bind ?_ fun _ _ failed => by cases failed.1
    rintro current middle ⟨read, storage, memory, calmMiddle⟩
    injection read with read
    rw [← storage] at same
    refine (gives_bind _ _).mpr (Gives.ensure (fun _ => ?_) fun refused => ?_)
    · refine (writes middle calmMiddle same).bind ?_ fun _ _ put => by cases put.returned
      intro _ after put
      have recorded : ({ after.memory with
          fileChanges := after.memory.fileChanges.map fun journal =>
            recordChange journal (platform.journalPath path) expected content } :
          Journals Path) = after.memory := by
        have none : after.memory.fileChanges = none := by rw [put.memory, memory, closed]
        rw [none, Option.map_none, ← none]
      refine ⟨rfl, ?_, ?_, put.calm⟩
      · rw [← storage]
        exact put.storage
      · exact recorded.trans (put.memory.trans memory)
    · rw [storage] at same
      exact absurd (read.trans same) refused
  · rw [closed] at refused
    exact absurd rfl refused

omit [Std.LawfulEqOrd Path] in
private theorem replaceWithSnapshot_puts {path : Path} {expected : Option ByteArray}
    (content : Option String) (calm : scene.Calm) (closed : scene.memory.fileChanges = none)
    (same : scene.storage.files (platform.journalPath path) = expected) :
    Gives (platform.replaceWithSnapshot path expected content) scene fun result after =>
      Put scene after (.file (platform.journalPath path) (content.map String.toByteArray))
        result := by
  cases content with
  | some content =>
      exact platform.expected_puts calm closed same fun scene calm _ => call_puts _ calm rfl
  | none =>
      refine platform.expected_puts calm closed same fun scene calm same => call_puts _ calm ?_
      refine if_neg ?_
      rintro ⟨missing, present⟩
      exact present (same.symm.trans missing)

omit [Std.LawfulEqOrd Path] in
theorem restoreSnapshot_putsBack {entry : Path × Change ByteArray} (calm : scene.Calm)
    (closed : scene.memory.fileChanges = none)
    (resolved : platform.journalPath entry.1 = entry.1)
    (shown : scene.storage.files entry.1 = entry.2.after) :
    Gives (platform.restoreSnapshotIfUnchanged entry.1 entry.2.after entry.2.before) scene
      fun result after =>
        PutBack .files scene after entry (IsText entry.2.before) result := by
  unfold restoreSnapshotIfUnchanged
  have text := platform.snapshotText_isText entry.2.before entry.1
  cases decoded : platform.snapshotText entry.2.before entry.1 with
  | error error =>
      rw [decoded] at text
      refine ⟨calm, rfl, fun valid => ?_, fun _ => ⟨nofun, rfl⟩⟩
      obtain ⟨_, failed⟩ := text.mp valid
      cases failed
  | ok content =>
      rw [← resolved] at shown
      refine (platform.replaceWithSnapshot_puts content calm closed shown).mono ?_
      intro result after put
      refine ⟨put.calm, put.memory, fun _ => ⟨put.returned, ?_⟩, fun invalid => ?_⟩
      · have storage := put.storage
        rw [platform.snapshotText_some decoded, resolved] at storage
        exact storage
      · exact absurd (text.mpr ⟨content, decoded⟩) invalid

omit [Std.TransOrd Path] [Std.LawfulEqOrd Path] in
theorem writeSecret_putsBack {entry : String × Change String} (calm : scene.Calm) :
    Gives (writeSecret entry.1 entry.2.before) scene fun result after =>
      PutBack .secrets scene after entry True result := by
  refine (call_puts (.secret entry.1 entry.2.before) calm rfl).mono ?_
  intro result after put
  exact ⟨put.calm, put.memory, fun _ => ⟨put.returned, put.storage⟩,
    fun never => absurd trivial never⟩

omit [Std.TransOrd Path] [Std.LawfulEqOrd Path] in
theorem writeNativeAuth_putsBack {entry : (Path × Bool) × Change String} (calm : scene.Calm) :
    Gives (writeNativeAuth entry.1 entry.2.before) scene fun result after =>
      PutBack .native scene after entry True result := by
  refine (call_puts (.native entry.1 entry.2.before) calm rfl).mono ?_
  intro result after put
  exact ⟨put.calm, put.memory, fun _ => ⟨put.returned, put.storage⟩,
    fun never => absurd trivial never⟩

end Platform

end

end ZenithRelay.LocalPool.Profiles.Codex
