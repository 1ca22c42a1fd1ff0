import ZenithRelay.Foundations.Execution
import ZenithRelay.Scheduler.Affinity

/-!
# Affinity bindings

The cache as a state machine. A binding that an operation leaves in place keeps its
owner and revision and loses no lifetime; every other binding is new and has a
revision above all that were drawn before. So a revision that is seen again was
bound to the same owner all the time.
-/

set_option autoImplicit false

namespace ZenithRelay.Scheduler

inductive AffinityOperation where
  | get (key : String) (nowMs : Nat)
  | contains (key : String) (nowMs : Nat)
  | refresh (key : String) (nowMs : Nat)
  | bind (key candidateId : String) (nowMs : Nat)
  | bindFor (key candidateId : String) (nowMs ttlMs : Nat)
  | bindIfUnboundOrSame (key candidateId : String) (nowMs : Nat)
  | rememberAlternative (key candidateId : String) (nowMs : Nat)
  | restore (key candidateId : String) (expiresAt nowMs : Nat)
  | invalidate (key : String)
  | invalidateIfOwner (key candidateId : String)
  | invalidateCandidate (candidateId : String)
  deriving DecidableEq, Repr

namespace AffinityCache

/-- The cache after one operation. -/
def apply (cache : AffinityCache) : AffinityOperation → AffinityCache
  | .get key nowMs => (cache.get key nowMs).1
  | .contains key nowMs => (cache.contains key nowMs).1
  | .refresh key nowMs => (cache.refresh key nowMs).1
  | .bind key candidateId nowMs => (cache.bind key candidateId nowMs).1
  | .bindFor key candidateId nowMs ttlMs => (cache.bindFor key candidateId nowMs ttlMs).1
  | .bindIfUnboundOrSame key candidateId nowMs =>
    (cache.bindIfUnboundOrSame key candidateId nowMs).1
  | .rememberAlternative key candidateId nowMs => cache.rememberAlternative key candidateId nowMs
  | .restore key candidateId expiresAt nowMs => (cache.restore key candidateId expiresAt nowMs).1
  | .invalidate key => (cache.invalidate key).1
  | .invalidateIfOwner key candidateId => (cache.invalidateIfOwner key candidateId).1
  | .invalidateCandidate candidateId => (cache.invalidateCandidate candidateId).1

end AffinityCache

/-! ## One binding -/

/-- Alternatives are at most four, distinct, not the owner, and expire in the range of the clock. -/
structure Binding.WellFormed (binding : Binding) : Prop where
  bounded : binding.alternatives.length ≤ maxWarmAlternatives
  distinct : (binding.alternatives.map Prod.fst).Nodup
  foreign : ∀ alternative ∈ binding.alternatives, alternative.1 ≠ binding.candidateId
  timely : ∀ alternative ∈ binding.alternatives, alternative.2 ≤ u64Max

/-- A later state of one and the same binding. -/
structure Binding.Continues (earlier later : Binding) : Prop where
  candidateId : later.candidateId = earlier.candidateId
  revision : later.revision = earlier.revision
  expiresAt : earlier.expiresAt ≤ later.expiresAt
  lastTouchedAt : earlier.lastTouchedAt ≤ later.lastTouchedAt

/-- No alternative that is still there expires earlier. -/
def Binding.KeepsAlternatives (earlier later : Binding) : Prop :=
  ∀ candidateId before after, (candidateId, before) ∈ earlier.alternatives →
    (candidateId, after) ∈ later.alternatives → before ≤ after

/-- What one operation does to a binding it leaves in place. -/
structure Binding.Keeps (earlier later : Binding) : Prop where
  formed : later.WellFormed
  continues : earlier.Continues later
  alternatives : earlier.KeepsAlternatives later

namespace Binding

variable {binding earlier later : Binding} {candidateId : String} {nowMs : Nat}

theorem Continues.refl (binding : Binding) : Continues binding binding :=
  ⟨rfl, rfl, le_rfl, le_rfl⟩

theorem Continues.trans {middle : Binding} (early : Continues earlier middle)
    (late : Continues middle later) : Continues earlier later where
  candidateId := late.candidateId.trans early.candidateId
  revision := late.revision.trans early.revision
  expiresAt := early.expiresAt.trans late.expiresAt
  lastTouchedAt := early.lastTouchedAt.trans late.lastTouchedAt

/-- Two entries of one alternative are one entry. -/
theorem WellFormed.unique (formed : binding.WellFormed) {before after : Nat}
    (first : (candidateId, before) ∈ binding.alternatives)
    (second : (candidateId, after) ∈ binding.alternatives) : before = after :=
  congrArg Prod.snd (List.inj_on_of_nodup_map formed.distinct first second rfl)

/-- Some of the alternatives, and nothing else, are lost. -/
theorem Keeps.of_sublist (formed : earlier.WellFormed) (continues : earlier.Continues later)
    (alternatives : later.alternatives.Sublist earlier.alternatives) : earlier.Keeps later where
  formed := {
    bounded := alternatives.length_le.trans formed.bounded
    distinct := (alternatives.map _).nodup formed.distinct
    foreign := fun alternative member => by
      rw [continues.candidateId]
      exact formed.foreign alternative (alternatives.subset member)
    timely := fun alternative member => formed.timely alternative (alternatives.subset member) }
  continues := continues
  alternatives := fun _ _ _ first second =>
    (formed.unique first (alternatives.subset second)).le

theorem Keeps.refl (formed : binding.WellFormed) : binding.Keeps binding :=
  .of_sublist formed (.refl _) (.refl _)

theorem forget_keeps (formed : binding.WellFormed) (candidateId : String) :
    binding.Keeps (AffinityCache.Binding.forget binding candidateId) :=
  .of_sublist formed ⟨rfl, rfl, le_rfl, le_rfl⟩ List.filter_sublist

section Alternatives

variable {alternatives : List (String × Nat)} {index expiresAt : Nat}

/-- A raised expiry changes no id. -/
private theorem raised_ids : (alternatives.modify index fun alternative =>
      (alternative.1, max alternative.2 expiresAt)).map Prod.fst = alternatives.map Prod.fst := by
  induction alternatives generalizing index with
  | nil => simp
  | cons alternative alternatives ih =>
      cases index with
      | zero => simp
      | succ index => simpa using ih

/-- Every entry was there before, with an expiry that is not later. -/
private theorem raised_mem {alternative : String × Nat}
    (member : alternative ∈ alternatives.modify index fun alternative =>
      (alternative.1, max alternative.2 expiresAt)) :
    ∃ before, (alternative.1, before) ∈ alternatives ∧ before ≤ alternative.2 ∧
      alternative.2 ≤ max before expiresAt := by
  induction alternatives generalizing index with
  | nil => simp at member
  | cons first alternatives ih =>
      cases index with
      | zero =>
          rcases List.mem_cons.mp (by simpa using member) with rfl | later
          · exact ⟨first.2, List.mem_cons_self, le_max_left _ _, le_rfl⟩
          · exact ⟨alternative.2, List.mem_cons_of_mem _ later, le_rfl, le_max_left _ _⟩
      | succ index =>
          rcases List.mem_cons.mp (by simpa using member) with rfl | later
          · exact ⟨alternative.2, List.mem_cons_self, le_rfl, le_max_left _ _⟩
          · obtain ⟨before, inside, bounds⟩ := ih later
            exact ⟨before, List.mem_cons_of_mem _ inside, bounds⟩

end Alternatives

/-- The alternatives before they are sorted and cut. -/
def extended (binding : Binding) (candidateId : String) (nowMs : Nat) : List (String × Nat) :=
  let live := binding.alternatives.filter fun alternative => nowMs < alternative.2
  let expiresAt := saturatingAdd u64Max nowMs binding.ttlMs
  match live.findIdx? fun alternative => alternative.1 == candidateId with
  | some index => live.modify index fun alternative => (alternative.1, max alternative.2 expiresAt)
  | none => live ++ [(candidateId, expiresAt)]

private theorem extended_distinct (formed : binding.WellFormed) :
    ((binding.extended candidateId nowMs).map Prod.fst).Nodup := by
  have live : ((binding.alternatives.filter fun alternative =>
      nowMs < alternative.2).map Prod.fst).Nodup :=
    (List.filter_sublist.map _).nodup formed.distinct
  unfold extended
  dsimp only
  split
  next index found =>
    rw [raised_ids]
    exact live
  next absent =>
    rw [List.map_append]
    refine List.Nodup.append live (List.nodup_singleton _) (List.disjoint_singleton.mpr ?_)
    intro member
    obtain ⟨alternative, inside, same⟩ := List.mem_map.mp member
    exact absurd same (by simpa using List.findIdx?_eq_none_iff.mp absent alternative inside)

/-- An entry is an earlier one that is still live, or the candidate's own new one. -/
theorem extended_mem {alternative : String × Nat}
    (member : alternative ∈ binding.extended candidateId nowMs) :
    (∃ before, (alternative.1, before) ∈ binding.alternatives ∧ before ≤ alternative.2 ∧
        alternative.2 ≤ max before (saturatingAdd u64Max nowMs binding.ttlMs)) ∨
      alternative = (candidateId, saturatingAdd u64Max nowMs binding.ttlMs) ∧
        ∀ before, (candidateId, before) ∈ binding.alternatives → before ≤ nowMs := by
  unfold extended at member
  dsimp only at member
  split at member
  next index found =>
    obtain ⟨before, inside, bounds⟩ := raised_mem member
    exact .inl ⟨before, (List.mem_filter.mp inside).1, bounds⟩
  next absent =>
    rcases List.mem_append.mp member with live | last
    · exact .inl ⟨alternative.2, (List.mem_filter.mp live).1, le_rfl, le_max_left _ _⟩
    · refine .inr ⟨List.mem_singleton.mp last, fun before inside => ?_⟩
      by_contra later
      have live : (candidateId, before) ∈ binding.alternatives.filter fun alternative =>
          nowMs < alternative.2 := List.mem_filter.mpr ⟨inside, by simpa using later⟩
      simpa using List.findIdx?_eq_none_iff.mp absent _ live

private theorem rememberAlternative_keeps (formed : binding.WellFormed)
    (foreign : binding.candidateId ≠ candidateId) (nowMs : Nat) :
    binding.Keeps (AffinityCache.Binding.rememberAlternative binding candidateId nowMs) := by
  have kept : (AffinityCache.Binding.rememberAlternative binding candidateId nowMs).alternatives =
      ((binding.extended candidateId nowMs).mergeSort AffinityCache.warmerFirst).take
        maxWarmAlternatives := rfl
  have inside : ∀ {alternative : String × Nat},
      alternative ∈ (AffinityCache.Binding.rememberAlternative binding candidateId
        nowMs).alternatives → alternative ∈ binding.extended candidateId nowMs := by
    intro alternative member
    rw [kept] at member
    exact List.mem_mergeSort.mp (List.mem_of_mem_take member)
  refine ⟨⟨?_, ?_, fun alternative member => ?_, fun alternative member => ?_⟩, ⟨rfl, rfl, le_rfl,
    le_rfl⟩, fun id before after first second => ?_⟩
  · rw [kept]
    exact List.length_take_le _ _
  · rw [kept]
    refine ((List.take_sublist _ _).map _).nodup ?_
    exact ((List.mergeSort_perm _ _).map _).nodup_iff.mpr (extended_distinct formed)
  · rcases extended_mem (inside member) with ⟨before, earlier, -⟩ | ⟨own, -⟩
    · exact formed.foreign (alternative.1, before) earlier
    · rw [own]
      exact foreign.symm
  · have room : saturatingAdd u64Max nowMs binding.ttlMs ≤ u64Max := min_le_right _ _
    rcases extended_mem (inside member) with ⟨before, earlier, -, bound⟩ | ⟨own, -⟩
    · exact bound.trans (max_le (formed.timely (alternative.1, before) earlier) room)
    · rw [own]
      exact room
  · rcases extended_mem (inside second) with ⟨value, earlier, atMost, -⟩ | ⟨own, expired⟩
    · exact (formed.unique first earlier).le.trans atMost
    · obtain ⟨rfl, rfl⟩ := Prod.mk.inj own
      have timely := formed.timely _ first
      have past := expired before first
      exact le_min (past.trans (Nat.le_add_right _ _)) timely

end Binding

/-! ## One operation -/

namespace AffinityCache

/-- The cache holds no more than it may, of revisions that were drawn. -/
structure WellFormed (cache : AffinityCache) : Prop where
  bounded : cache.bindings.size ≤ cache.maxEntries
  drawn : ∀ (key : String) (binding : Binding), cache.bindings[key]? = some binding →
    binding.revision ≤ cache.nextRevision
  formed : ∀ (key : String) (binding : Binding), cache.bindings[key]? = some binding →
    binding.WellFormed

/-- What one operation can do: a binding is kept, or it is new and of a new revision. -/
structure Follows (cache after : AffinityCache) : Prop where
  maxEntries : after.maxEntries = cache.maxEntries
  nextRevision : cache.nextRevision ≤ after.nextRevision
  bounded : cache.bindings.size ≤ cache.maxEntries → after.bindings.size ≤ after.maxEntries
  binding : ∀ (key : String) (later : Binding), after.bindings[key]? = some later →
    (∃ earlier, cache.bindings[key]? = some earlier ∧ earlier.Keeps later) ∨
      cache.nextRevision < later.revision ∧ later.revision ≤ after.nextRevision ∧
        later.alternatives = []

variable {cache after : AffinityCache} {key candidateId : String} {nowMs : Nat}

private theorem create_wellFormed (maxEntries ttlMs : Nat) : (create maxEntries ttlMs).WellFormed where
  bounded := by simp [create]
  drawn key binding found := by simp [create] at found
  formed key binding found := by simp [create] at found

theorem Follows.wellFormed (follows : Follows cache after) (wellFormed : cache.WellFormed) :
    after.WellFormed where
  bounded := follows.bounded wellFormed.bounded
  drawn key later found := by
    rcases follows.binding key later found with ⟨earlier, held, keeps⟩ | ⟨-, drawn, -⟩
    · rw [keeps.continues.revision]
      exact (wellFormed.drawn key earlier held).trans follows.nextRevision
    · exact drawn
  formed key later found := by
    rcases follows.binding key later found with ⟨earlier, held, keeps⟩ | ⟨-, -, none⟩
    · exact keeps.formed
    · refine ⟨?_, ?_, ?_, ?_⟩ <;> simp [none]

/-- Bindings are kept or lost, and none is new. -/
theorem Follows.of_kept {bindings : BTreeMap String Binding}
    (size : bindings.size ≤ cache.bindings.size)
    (kept : ∀ (key : String) (later : Binding), bindings[key]? = some later →
      ∃ earlier, cache.bindings[key]? = some earlier ∧ earlier.Keeps later) :
    Follows cache { cache with bindings } where
  maxEntries := rfl
  nextRevision := le_rfl
  bounded room := size.trans room
  binding key later found := .inl (kept key later found)

theorem Follows.refl (wellFormed : cache.WellFormed) : Follows cache cache :=
  .of_kept le_rfl fun key binding found =>
    ⟨binding, found, .refl (wellFormed.formed key binding found)⟩

/-- Some bindings are lost, and nothing else changes. -/
structure Drops (cache after : AffinityCache) : Prop where
  maxEntries : after.maxEntries = cache.maxEntries
  nextRevision : after.nextRevision = cache.nextRevision
  size : after.bindings.size ≤ cache.bindings.size
  binding : ∀ (key : String) (binding : Binding), after.bindings[key]? = some binding →
    cache.bindings[key]? = some binding

theorem Drops.refl (cache : AffinityCache) : Drops cache cache := ⟨rfl, rfl, le_rfl, fun _ _ => id⟩

theorem Drops.trans {middle : AffinityCache} (early : Drops cache middle)
    (late : Drops middle after) : Drops cache after where
  maxEntries := late.maxEntries.trans early.maxEntries
  nextRevision := late.nextRevision.trans early.nextRevision
  size := late.size.trans early.size
  binding key binding found := early.binding key binding (late.binding key binding found)

theorem Drops.wellFormed (drops : Drops cache after) (wellFormed : cache.WellFormed) :
    after.WellFormed where
  bounded := by
    rw [drops.maxEntries]
    exact drops.size.trans wellFormed.bounded
  drawn key binding found := by
    rw [drops.nextRevision]
    exact wellFormed.drawn key binding (drops.binding key binding found)
  formed key binding found := wellFormed.formed key binding (drops.binding key binding found)

/-- What follows after losses follows. -/
theorem Follows.after_drops {middle : AffinityCache} (drops : Drops cache middle)
    (follows : Follows middle after) : Follows cache after where
  maxEntries := follows.maxEntries.trans drops.maxEntries
  nextRevision := drops.nextRevision ▸ follows.nextRevision
  bounded room := follows.bounded (by rw [drops.maxEntries]; exact drops.size.trans room)
  binding key later found := by
    rcases follows.binding key later found with ⟨earlier, held, keeps⟩ | fresh
    · exact .inl ⟨earlier, drops.binding key earlier held, keeps⟩
    · exact .inr (drops.nextRevision ▸ fresh)

theorem Drops.follows (drops : Drops cache after) (wellFormed : cache.WellFormed) :
    Follows cache after :=
  .after_drops drops (.refl (drops.wellFormed wellFormed))

theorem drops_erase (cache : AffinityCache) (erased : String) :
    Drops cache { cache with bindings := cache.bindings.erase erased } := by
  refine ⟨rfl, rfl, Std.ExtTreeMap.size_erase_le, fun key binding found => ?_⟩
  dsimp only at found
  rw [BTreeMap.lookup_erase] at found
  split at found
  · cases found
  · exact found

theorem prune_drops (cache : AffinityCache) (nowMs : Nat) : Drops cache (cache.prune nowMs) := by
  refine ⟨rfl, rfl, Std.ExtTreeMap.size_filter_le_size, fun key binding found => ?_⟩
  unfold prune at found
  dsimp only at found
  rw [BTreeMap.lookup_filter] at found
  exact (Option.filter_eq_some_iff.mp found).1

private theorem evictOldest_drops (cache : AffinityCache) : Drops cache cache.evictOldest := by
  unfold evictOldest
  split
  · exact cache.drops_erase _
  · exact .refl cache

private theorem makeRoom_drops (cache : AffinityCache) (key : String) (nowMs : Nat) :
    Drops cache (cache.makeRoom key nowMs) := by
  unfold makeRoom
  dsimp only
  split
  · exact (cache.prune_drops nowMs).trans (evictOldest_drops _)
  · exact cache.prune_drops nowMs

/-- Room is made for one more binding, unless the key has one already. -/
private theorem makeRoom_size (bounded : cache.bindings.size ≤ cache.maxEntries)
    (some_room : cache.maxEntries ≠ 0) (key : String) (nowMs : Nat) :
    (cache.makeRoom key nowMs).bindings[key]?.isSome ∨
      (cache.makeRoom key nowMs).bindings.size < (cache.makeRoom key nowMs).maxEntries := by
  have pruned := cache.prune_drops nowMs
  have atMost : (cache.prune nowMs).bindings.size ≤ (cache.prune nowMs).maxEntries := by
    rw [pruned.maxEntries]
    exact pruned.size.trans bounded
  unfold makeRoom
  dsimp only
  split
  next full =>
    right
    simp only [Bool.and_eq_true, Bool.not_eq_true', decide_eq_true_eq] at full
    unfold evictOldest
    split
    next oldest binding chosen =>
      have held := BTreeMap.mem_toList_iff.mp (Selection.minBy_mem chosen)
      have shrunk := BTreeMap.size_erase_found held
      dsimp only
      omega
    next none_chosen =>
      -- A full cache of a positive capacity has an oldest binding.
      have nonempty : (cache.prune nowMs).bindings.toList ≠ [] := by
        intro empty
        have size := congrArg List.length empty
        rw [Std.ExtTreeMap.length_toList, List.length_nil] at size
        have capacity := pruned.maxEntries
        omega
      obtain ⟨oldest, chosen⟩ :
          ∃ oldest, Selection.minBy compareAge (cache.prune nowMs).bindings.toList = some oldest :=
        Selection.minBy_isSome nonempty
      rw [chosen] at none_chosen
      cases none_chosen
  next room =>
    by_cases held : (cache.prune nowMs).bindings.contains key = true
    · exact .inl (by simpa using held)
    · right
      simp only [held, Bool.not_false, Bool.true_and, decide_eq_true_eq] at room
      omega

/-- Changing one binding in place, in a way that keeps it. -/
theorem follows_modify (wellFormed : cache.WellFormed) {changed : String}
    {change : Binding → Binding}
    (keeps : ∀ binding : Binding, binding.WellFormed → binding.Keeps (change binding)) :
    Follows cache { cache with bindings := cache.bindings.modify changed change } := by
  refine .of_kept Std.ExtTreeMap.size_modify.le fun key later found => ?_
  rw [BTreeMap.lookup_modify] at found
  split at found
  · obtain ⟨earlier, held, rfl⟩ := Option.map_eq_some_iff.mp found
    exact ⟨earlier, held, keeps earlier (wellFormed.formed key earlier held)⟩
  · exact ⟨later, found, .refl (wellFormed.formed key later found)⟩

/-- A binding that is written is new; the others are kept or lost. -/
theorem insertBinding_follows (wellFormed : cache.WellFormed) (some_room : cache.maxEntries ≠ 0)
    (key candidateId : String) (ttlMs expiresAt nowMs : Nat) :
    Follows cache (cache.insertBinding key candidateId ttlMs expiresAt nowMs).1 := by
  have drops := cache.makeRoom_drops key nowMs
  have formed := drops.wellFormed wellFormed
  refine .after_drops drops ?_
  unfold insertBinding
  dsimp only
  split
  next unspent =>
    refine ⟨rfl, Nat.le_succ _, fun atMost => ?_, fun other later found => ?_⟩
    · rcases makeRoom_size wellFormed.bounded some_room key nowMs with held | room
      · obtain ⟨old, held⟩ := Option.isSome_iff_exists.mp held
        exact (BTreeMap.size_replace held _).le.trans atMost
      · exact Std.ExtTreeMap.size_insert_le.trans room
    · dsimp only at found
      rw [BTreeMap.lookup_insert] at found
      split at found
      · obtain rfl := Option.some.inj found
        exact .inr ⟨Nat.lt_succ_self _, le_rfl, rfl⟩
      · exact .inl ⟨later, found, .refl (formed.formed other later found)⟩
  next => exact .refl formed

theorem bindFor_follows (wellFormed : cache.WellFormed) (key candidateId : String)
    (nowMs ttlMs : Nat) : Follows cache (cache.bindFor key candidateId nowMs ttlMs).1 := by
  unfold bindFor
  split
  next => exact .refl wellFormed
  next room => exact insertBinding_follows wellFormed (fun none => room (.inl none)) _ _ _ _ _

private theorem restore_follows (wellFormed : cache.WellFormed) (key candidateId : String)
    (expiresAt nowMs : Nat) : Follows cache (cache.restore key candidateId expiresAt nowMs).1 := by
  unfold restore
  split
  next => exact .refl wellFormed
  next room => exact insertBinding_follows wellFormed (fun none => room (.inl none)) _ _ _ _ _

theorem refresh_follows (wellFormed : cache.WellFormed) (key : String) (nowMs : Nat) :
    Follows cache (cache.refresh key nowMs).1 :=
  .after_drops (cache.prune_drops nowMs) <|
    follows_modify ((cache.prune_drops nowMs).wellFormed wellFormed) fun _ formed =>
      .of_sublist formed ⟨rfl, rfl, le_max_left _ _, le_max_left _ _⟩ (.refl _)

theorem rememberAlternative_follows (wellFormed : cache.WellFormed) (key candidateId : String)
    (nowMs : Nat) : Follows cache (cache.rememberAlternative key candidateId nowMs) := by
  refine follows_modify wellFormed fun binding formed => ?_
  split
  next hint => exact Binding.rememberAlternative_keeps formed hint.2.1 nowMs
  next => exact .refl formed

private theorem invalidateIfOwner_follows (wellFormed : cache.WellFormed) (key candidateId : String) :
    Follows cache (cache.invalidateIfOwner key candidateId).1 := by
  unfold invalidateIfOwner
  split
  · exact (cache.drops_erase key).follows wellFormed
  · exact follows_modify wellFormed fun binding formed => Binding.forget_keeps formed candidateId

private theorem invalidateCandidate_follows (wellFormed : cache.WellFormed) (candidateId : String) :
    Follows cache (cache.invalidateCandidate candidateId).1 := by
  refine .of_kept Std.ExtTreeMap.size_filterMap_le_size fun key later found => ?_
  rw [BTreeMap.lookup_filterMap] at found
  obtain ⟨earlier, held, kept⟩ := Option.bind_eq_some_iff.mp found
  split at kept
  · obtain rfl := Option.some.inj kept
    exact ⟨earlier, held, Binding.forget_keeps (wellFormed.formed key earlier held) candidateId⟩
  · cases kept

private theorem bindIfUnboundOrSame_follows (wellFormed : cache.WellFormed) (key candidateId : String)
    (nowMs : Nat) : Follows cache (cache.bindIfUnboundOrSame key candidateId nowMs).1 := by
  have drops := cache.prune_drops nowMs
  have formed := drops.wellFormed wellFormed
  refine .after_drops drops ?_
  unfold bindIfUnboundOrSame get getWithRevision
  dsimp only
  cases Option.map Prod.fst ((cache.prune nowMs).bindings[key]?.map fun binding =>
      (binding.candidateId, binding.revision)) with
  | none => exact bindFor_follows formed key candidateId nowMs _
  | some bound =>
      dsimp only
      split
      · exact refresh_follows formed key nowMs
      · exact .refl formed

/-- The step lemma of the cache. -/
theorem apply_follows (wellFormed : cache.WellFormed) (operation : AffinityOperation) :
    Follows cache (cache.apply operation) := by
  cases operation with
  | get key nowMs => exact (cache.prune_drops nowMs).follows wellFormed
  | contains key nowMs => exact (cache.prune_drops nowMs).follows wellFormed
  | refresh key nowMs => exact refresh_follows wellFormed key nowMs
  | bind key candidateId nowMs => exact bindFor_follows wellFormed key candidateId nowMs _
  | bindFor key candidateId nowMs ttlMs => exact bindFor_follows wellFormed key candidateId nowMs _
  | bindIfUnboundOrSame key candidateId nowMs =>
      exact bindIfUnboundOrSame_follows wellFormed key candidateId nowMs
  | rememberAlternative key candidateId nowMs =>
      exact rememberAlternative_follows wellFormed key candidateId nowMs
  | restore key candidateId expiresAt nowMs =>
      exact restore_follows wellFormed key candidateId expiresAt nowMs
  | invalidate key => exact (cache.drops_erase key).follows wellFormed
  | invalidateIfOwner key candidateId => exact invalidateIfOwner_follows wellFormed key candidateId
  | invalidateCandidate candidateId => exact invalidateCandidate_follows wellFormed candidateId

/-- Neither a refresh nor a hint writes a binding. -/
theorem Follows.keeps (follows : Follows cache after)
    (undrawn : after.nextRevision = cache.nextRevision) {key : String} {later : Binding}
    (found : after.bindings[key]? = some later) :
    ∃ earlier, cache.bindings[key]? = some earlier ∧ earlier.Keeps later := by
  rcases follows.binding key later found with kept | ⟨above, drawn, -⟩
  · exact kept
  · rw [undrawn] at drawn
    exact absurd drawn (Nat.not_le.mpr above)

/-- A change in place that keeps the candidate keeps every owner. -/
theorem modify_forgets (cache : AffinityCache) (changed : String) {change : Binding → Binding}
    (same : ∀ binding : Binding, (change binding).candidateId = binding.candidateId) :
    Forgets cache { cache with bindings := cache.bindings.modify changed change } := by
  intro key owner owned
  unfold AffinityCache.owner at owned ⊢
  rw [BTreeMap.lookup_modify] at owned
  split at owned
  · rw [Option.map_map] at owned
    rw [← owned]
    exact congrArg (cache.bindings[key]?.map ·) (funext fun binding => (same binding).symm)
  · exact owned

theorem refresh_forgets (cache : AffinityCache) (key : String) (nowMs : Nat) :
    Forgets cache (cache.refresh key nowMs).1 :=
  (cache.prune_forgets nowMs).trans (modify_forgets _ key fun _ => rfl)

theorem rememberAlternative_forgets (cache : AffinityCache) (key candidateId : String)
    (nowMs : Nat) : Forgets cache (cache.rememberAlternative key candidateId nowMs) := by
  refine modify_forgets cache key fun binding => ?_
  split <;> rfl

/-! ## Runs -/

/-- The cache after a list of operations, at any times and in any order. -/
abbrev runOperations (cache : AffinityCache) (operations : List AffinityOperation) :
    AffinityCache :=
  Execution.run apply cache operations

theorem runOperations_append (cache : AffinityCache) (first second : List AffinityOperation) :
    cache.runOperations (first ++ second) = (cache.runOperations first).runOperations second :=
  Execution.run_append apply cache first second

theorem runOperations_wellFormed (wellFormed : cache.WellFormed)
    (operations : List AffinityOperation) : (cache.runOperations operations).WellFormed :=
  Execution.run_invariant WellFormed
    (fun _ operation formed => (apply_follows formed operation).wellFormed formed) wellFormed
    operations

/-- Over a run a binding is one and the same, or it is of a revision drawn in the run. -/
theorem runOperations_binding (wellFormed : cache.WellFormed)
    (operations : List AffinityOperation) :
    (cache.runOperations operations).maxEntries = cache.maxEntries ∧
      cache.nextRevision ≤ (cache.runOperations operations).nextRevision ∧
      ∀ (key : String) (later : Binding),
        (cache.runOperations operations).bindings[key]? = some later →
        (∃ earlier, cache.bindings[key]? = some earlier ∧ earlier.Continues later) ∨
          cache.nextRevision < later.revision := by
  induction operations generalizing cache with
  | nil => exact ⟨rfl, le_rfl, fun key later found => .inl ⟨later, found, .refl later⟩⟩
  | cons operation operations ih =>
      have first := apply_follows wellFormed operation
      obtain ⟨maxEntries, revisions, rest⟩ := ih (first.wellFormed wellFormed)
      refine ⟨maxEntries.trans first.maxEntries, first.nextRevision.trans revisions,
        fun key later found => ?_⟩
      rcases rest key later found with ⟨middle, held, continues⟩ | drawn
      · rcases first.binding key middle held with ⟨earlier, before, keeps⟩ | ⟨drawn, -⟩
        · exact .inl ⟨earlier, before, keeps.continues.trans continues⟩
        · exact .inr (continues.revision ▸ drawn)
      · exact .inr (first.nextRevision.trans_lt drawn)

/-- The revision an operation drew. -/
def drawnRevision (cache : AffinityCache) (operation : AffinityOperation) : Option Nat :=
  if cache.nextRevision < (cache.apply operation).nextRevision then
    some (cache.apply operation).nextRevision
  else none

private theorem drawn_above (wellFormed : cache.WellFormed) (operations : List AffinityOperation) :
    (Execution.trace apply drawnRevision cache operations).Pairwise (· < ·) ∧
      ∀ revision ∈ Execution.trace apply drawnRevision cache operations,
        cache.nextRevision < revision := by
  induction operations generalizing cache with
  | nil => exact ⟨.nil, nofun⟩
  | cons operation operations ih =>
      have first := apply_follows wellFormed operation
      obtain ⟨ordered, above⟩ := ih (first.wellFormed wellFormed)
      unfold Execution.trace drawnRevision
      split
      next drawn =>
        refine ⟨List.pairwise_cons.mpr ⟨above, ordered⟩, fun revision member => ?_⟩
        rcases List.mem_cons.mp member with rfl | later
        · exact drawn
        · exact drawn.trans (above revision later)
      next =>
        exact ⟨ordered, fun revision member => first.nextRevision.trans_lt (above revision member)⟩

/-- What `get` shows of a key is a stored binding that has not expired. -/
theorem getWithRevision_live {owner : String} {revision : Nat}
    (shown : (cache.getWithRevision key nowMs).2 = some (owner, revision)) :
    ∃ binding, cache.bindings[key]? = some binding ∧ binding.candidateId = owner ∧
      binding.revision = revision ∧ nowMs < binding.expiresAt := by
  unfold getWithRevision prune at shown
  dsimp only at shown
  rw [BTreeMap.lookup_filter] at shown
  obtain ⟨binding, found, seen⟩ := Option.map_eq_some_iff.mp shown
  obtain ⟨held, live⟩ := Option.filter_eq_some_iff.mp found
  obtain ⟨rfl, rfl⟩ := Prod.mk.inj seen
  exact ⟨binding, held, rfl, rfl, by simpa using live⟩

/-- A revision that is seen twice was bound to one owner at every moment in between. -/
private theorem same_revision_same_binding (wellFormed : cache.WellFormed)
    (between : List AffinityOperation) {key owner laterOwner : String} {revision firstMs laterMs : Nat}
    (first : (cache.getWithRevision key firstMs).2 = some (owner, revision))
    (later : ((cache.runOperations between).getWithRevision key laterMs).2 =
      some (laterOwner, revision)) :
    laterOwner = owner ∧ ∀ middle, middle <+: between →
      ∃ binding, (cache.runOperations middle).bindings[key]? = some binding ∧
        binding.candidateId = owner ∧ binding.revision = revision := by
  obtain ⟨start, held, rfl, rfl, -⟩ := getWithRevision_live first
  obtain ⟨final, found, rfl, same, -⟩ := getWithRevision_live later
  have drawn := wellFormed.drawn key start held
  have through : ∀ middle, middle <+: between →
      ∃ binding, (cache.runOperations middle).bindings[key]? = some binding ∧
        binding.Continues final ∧ start.Continues binding := by
    rintro middle ⟨rest, rfl⟩
    have early := runOperations_binding wellFormed middle
    have late := runOperations_binding (runOperations_wellFormed wellFormed middle) rest
    rw [runOperations_append] at found
    rcases late.2.2 key final found with ⟨binding, present, continues⟩ | above
    · rcases early.2.2 key binding present with ⟨earlier, before, sooner⟩ | above
      · obtain rfl : earlier = start := Option.some.inj (before.symm.trans held)
        exact ⟨binding, present, continues, sooner⟩
      · have kept := continues.revision
        omega
    · have grown := early.2.1
      omega
  refine ⟨?_, fun middle initially => ?_⟩
  · obtain ⟨binding, -, continues, sooner⟩ := through [] List.nil_prefix
    exact continues.candidateId.trans sooner.candidateId
  · obtain ⟨binding, present, continues, sooner⟩ := through middle initially
    exact ⟨binding, present, sooner.candidateId, sooner.revision⟩

/-- The cache over whole runs: it is bounded, it shows nothing expired, refreshes and hints take
nothing from a binding, alternatives are distinct and not the owner, and revisions identify
bindings. -/
theorem affinity_bindings (maxEntries ttlMs : Nat) (operations : List AffinityOperation) :
    let cache := (create maxEntries ttlMs).runOperations operations
    cache.bindings.size ≤ maxEntries ∧
      (∀ (key : String) (nowMs : Nat) (owner : String),
        (cache.get key nowMs).2 = some owner ∨
          (∃ revision, (cache.getWithRevision key nowMs).2 = some (owner, revision)) ∨
          (∃ expiresAt, cache.getWithExpiry key nowMs = some (owner, expiresAt)) →
        ∃ binding, cache.bindings[key]? = some binding ∧ binding.candidateId = owner ∧
          nowMs < binding.expiresAt) ∧
      (∀ (key : String) (binding : Binding), cache.bindings[key]? = some binding →
        binding.WellFormed) ∧
      (∀ (key candidateId : String) (nowMs : Nat) (other : String) (later : Binding),
        (cache.refresh key nowMs).1.bindings[other]? = some later ∨
          (cache.rememberAlternative key candidateId nowMs).bindings[other]? = some later →
        ∃ earlier, cache.bindings[other]? = some earlier ∧ earlier.Keeps later) ∧
      (Execution.trace apply drawnRevision (create maxEntries ttlMs) operations).Pairwise (· < ·) ∧
      ∀ (between : List AffinityOperation) (key owner laterOwner : String)
        (revision firstMs laterMs : Nat),
        (cache.getWithRevision key firstMs).2 = some (owner, revision) →
        ((cache.runOperations between).getWithRevision key laterMs).2 =
          some (laterOwner, revision) →
        laterOwner = owner ∧ ∀ middle, middle <+: between →
          ∃ binding, (cache.runOperations middle).bindings[key]? = some binding ∧
            binding.candidateId = owner ∧ binding.revision = revision := by
  have created := create_wellFormed maxEntries ttlMs
  have wellFormed := runOperations_wellFormed created operations
  refine ⟨?_, fun key nowMs owner shown => ?_, wellFormed.formed,
    fun key candidateId nowMs other later found => ?_, (drawn_above created operations).1,
    fun between key owner laterOwner revision firstMs laterMs first later =>
      same_revision_same_binding wellFormed between first later⟩
  · have bounded := wellFormed.bounded
    rwa [(runOperations_binding created operations).1] at bounded
  · rcases shown with shown | ⟨revision, shown⟩ | ⟨expiresAt, shown⟩
    · obtain ⟨⟨found, revision⟩, seen, rfl⟩ := Option.map_eq_some_iff.mp shown
      obtain ⟨binding, held, own, -, live⟩ := getWithRevision_live seen
      exact ⟨binding, held, own, live⟩
    · obtain ⟨binding, held, own, -, live⟩ := getWithRevision_live shown
      exact ⟨binding, held, own, live⟩
    · obtain ⟨binding, found, seen⟩ := Option.map_eq_some_iff.mp shown
      obtain ⟨held, live⟩ := Option.filter_eq_some_iff.mp found
      obtain ⟨rfl, rfl⟩ := Prod.mk.inj seen
      exact ⟨binding, held, rfl, by simpa using live⟩
  · rcases found with found | found
    · exact (refresh_follows wellFormed key nowMs).keeps rfl found
    · exact (rememberAlternative_follows wellFormed key candidateId nowMs).keeps rfl found

end AffinityCache

end ZenithRelay.Scheduler
