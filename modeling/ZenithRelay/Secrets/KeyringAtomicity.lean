import ZenithRelay.Secrets.KeyringReplacement
import ZenithRelay.Secrets.ManifestJson

/-!
# When a replacement is atomic

A long secret is replaced atomically unless the pattern loses its rollback. A short one
always is; the empty secret reads as none and its save is rolled back every time.
-/

set_option autoImplicit false

namespace ZenithRelay.Secrets

open Fallible

namespace Keyring

variable {codec : ManifestCodec} {before keyring next : Keyring}
  {service user secret generation : String} {pattern : List Bool} {previous : Option String}

/-! ### Short secrets -/

/-- A main entry that is no manifest. -/
theorem storedAt_plain (main : keyring (service, user) = some secret)
    (trimmed : Text.trim secret = secret)
    (plain : Text.startsWith secret manifestPrefix = false) :
    storedAt codec keyring service user = .ok (if secret = "" then none else some secret) := by
  simp [storedAt, main, plain, trimmed]

private theorem saveWhole_meets (nonempty : secret ≠ "") (trimmed : Text.trim secret = secret)
    (plain : Text.startsWith secret manifestPrefix = false)
    (named : ∀ chunk ∈ namedUsers codec before service user, chunk ≠ user) :
    Meets (saveWhole codec service user secret (before (service, user))
        ((before (service, user)).bind fun stored => (decodeManifest codec stored).toOption))
      before pattern
      (fun result next _ => Kept codec service user secret before next ∧
        (result = .ok () → storedAt codec next service user = .ok (some secret)))
      (Kept codec service user secret before) := by
  have replaced {next : Keyring} (main : next (service, user) = some secret) :
      storedAt codec next service user = .ok (some secret) := by
    rw [storedAt_plain main trimmed plain, if_neg nonempty]
  have stored := replaced (Function.update_self (service, user) (some secret) before)
  refine Meets.bind (meets_set.mpr ⟨fun _ => Or.inl rfl, fun rest _ => ?_,
    fun rest _ => ⟨Or.inl rfl, (by rintro ⟨⟩)⟩⟩)
  refine Meets.bind ((meets_outcome _).mpr ((verifyAttempts_meets secret readbackAttempts
    none).mono ?_ fun next same => same ▸ Or.inr stored))
  rintro (error | ⟨⟨⟩⟩) current last ⟨rfl, -, -⟩
  · refine Meets.bind ((meets_restore _).mpr ⟨fun _ => Or.inr stored, fun _ _ => ⟨?_, (by rintro ⟨⟩)⟩,
      fun _ _ => ⟨Or.inr stored, (by rintro ⟨⟩)⟩⟩)
    rw [Function.update_idem, Function.update_eq_self]
    exact Or.inl rfl
  · have good {next : Keyring} (untouched : Untouched service
        (namedUsers codec before service user)
        (Function.update before (service, user) (some secret)) next) :
        storedAt codec next service user = .ok (some secret) := by
      apply replaced
      rw [untouched _ fun chunk own same => named chunk own (Prod.mk.inj same).2.symm,
        Function.update_self]
    refine (deletePrevious_meets (before (service, user)) rfl _ _).mono ?_ ?_
    · rintro result next pattern ⟨-, untouched⟩
      exact ⟨Or.inr (good untouched), fun _ => good untouched⟩
    · exact fun next untouched => Or.inr (good untouched)

/-- The empty secret is never read back: every attempt takes one operation. -/
private theorem verifyAttempts_empty (main : keyring (service, user) = some "") (attempts : Nat)
    (lastError : Option String) :
    Meets (verifyAttempts codec service user "" attempts lastError) keyring pattern
      (fun result next rest => next = keyring ∧ (∃ error, result = .error error) ∧
        rest = pattern.drop attempts)
      (fun next => next = keyring ∧ pattern.length < attempts) := by
  induction attempts generalizing pattern lastError with
  | zero => exact ⟨rfl, ⟨_, rfl⟩, rfl⟩
  | succ attempts ih =>
    have read : Text.startsWith "" manifestPrefix = false := by decide
    have blank : Text.trim "" = "" := by decide
    refine Meets.bind ((meets_outcome _).mpr (Meets.bind (meets_loadRaw.mpr ⟨?_, ?_, ?_⟩)))
    · rintro rfl
      exact ⟨rfl, Nat.succ_pos _⟩
    · rintro rest rfl
      simp only [main, read, blank, Bool.not_false, if_true, meets_pure, reduceCtorEq, if_false]
      refine (ih none).mono (fun _ _ _ result => result) ?_
      exact fun next ended => ⟨ended.1, by simpa using ended.2⟩
    · rintro rest rfl
      refine (ih _).mono (fun _ _ _ result => result) ?_
      exact fun next ended => ⟨ended.1, by simpa using ended.2⟩

/-- The empty secret is written, after the read of the main entry, and not rolled back. -/
def Vanishing (pattern : List Bool) : Prop :=
  pattern.take 2 = [true, true] ∧ pattern[5]? ≠ some true

instance (pattern : List Bool) : Decidable (Vanishing pattern) :=
  inferInstanceAs (Decidable (_ ∧ _))

/-- A save of the empty secret never succeeds; it loses the secret before exactly where it
is not rolled back. -/
private theorem saveEmpty_meets :
    Meets (saveToService codec service user "" generation) before pattern
      (fun result next _ => (∃ error, result = .error error) ∧
        storedAt codec next service user =
          if Vanishing pattern then .ok none else storedAt codec before service user)
      (fun next => storedAt codec next service user =
        if Vanishing pattern then .ok none else storedAt codec before service user) := by
  have short : utf16Count "".toList ≤ chunkUtf16Units := by decide
  have wrote : storedAt codec (Function.update before (service, user) (some "")) service user =
      .ok none :=
    storedAt_plain (Function.update_self ..) (by decide) (by decide)
  refine Meets.bind (meets_loadRaw.mpr ⟨?_, ?_, ?_⟩)
  · rintro rfl
    rw [if_neg (by simp [Vanishing])]
  · rintro rest rfl
    simp only [short, if_true]
    refine Meets.bind (meets_set.mpr ⟨?_, ?_, ?_⟩)
    · rintro rfl
      rw [if_neg (by simp [Vanishing])]
    · rintro rest rfl
      have vanishing : Vanishing (true :: true :: rest) ↔ rest[3]? ≠ some true := by
        simp [Vanishing]
      simp only [vanishing]
      refine Meets.bind ((meets_outcome _).mpr ((verifyAttempts_empty
        (Function.update_self ..) readbackAttempts none).mono ?_ ?_))
      · rintro _ current _ ⟨rfl, ⟨error, rfl⟩, rfl⟩
        have fourth : rest[3]? = (rest.drop readbackAttempts)[0]? := by simp [readbackAttempts]
        rw [fourth]
        refine Meets.bind ((meets_restore _).mpr ⟨fun stop => ?_, fun last set => ?_,
          fun last failed => ?_⟩)
        · simpa [stop] using wrote
        · refine ⟨⟨_, rfl⟩, ?_⟩
          simp [set]
        · refine ⟨⟨_, rfl⟩, ?_⟩
          simpa [failed] using wrote
      · rintro next ⟨rfl, few⟩
        have absent : rest[3]? = none := List.getElem?_eq_none (Nat.le_of_lt few)
        simpa [absent] using wrote
    · rintro rest rfl
      exact ⟨⟨_, rfl⟩, by simp [Vanishing]⟩
  · rintro rest rfl
    exact ⟨⟨_, rfl⟩, by simp [Vanishing]⟩

/-! ### Any secret -/

/-- The generation names no chunk yet. -/
def FreshGeneration (service user generation : String) (before : Keyring) : Prop :=
  ∀ index, before (service, chunkUser user generation index) = none

theorem namedUsers_ne : ∀ chunk ∈ namedUsers codec before service user, chunk ≠ user := by
  intro chunk member
  rw [namedUsers] at member
  split at member
  next manifest _ =>
    obtain ⟨index, -, rfl⟩ := List.mem_map.mp member
    exact (chunkUser_ne user manifest.generation index).symm
  next => cases member

theorem FreshGeneration.fresh (fresh : FreshGeneration service user generation before)
    (read : storedAt codec before service user = .ok previous) :
    Fresh codec service user (newUsers user secret generation) before where
  main member := by
    obtain ⟨index, -, same⟩ := List.mem_map.mp member
    exact chunkUser_ne user generation index same.symm
  named chunk member := by
    refine ⟨fun new => ?_, namedUsers_ne chunk member⟩
    obtain ⟨index, -, rfl⟩ := List.mem_map.mp new
    exact named_present read _ member (fresh index)

private theorem newUsers_nodup (user secret generation : String) :
    (newUsers user secret generation).Nodup :=
  List.Nodup.map (fun _ _ => chunkUser_injective user generation) List.nodup_range

/-- The chunks of `secret` with their users. -/
def newChunks (user secret generation : String) : List (String × String) :=
  (newUsers user secret generation).zip (splitSecret secret)

theorem newChunks_users (user secret generation : String) :
    (newChunks user secret generation).map Prod.fst = newUsers user secret generation :=
  List.map_fst_zip (by rw [newUsers_length])

theorem newChunks_length (user secret generation : String) :
    (newChunks user secret generation).length = (splitSecret secret).length := by
  simp [newChunks, newUsers_length]

theorem writeAll_written :
    ChunksWritten service user secret generation
      (writeAll service before (newChunks user secret generation)) := by
  have distinct := newUsers_nodup user secret generation
  rw [← newChunks_users] at distinct
  exact fun pair member => writeAll_apply distinct member

theorem splitSecret_nonempty (long : ¬utf16Count secret.toList ≤ chunkUtf16Units) :
    splitSecret secret ≠ [] := by
  intro none
  have whole := (splitSecret_spec secret).1
  rw [none] at whole
  apply long
  rw [← whole]
  decide

/-- The secret takes chunks, and no more than an entry may name. -/
def Chunked (secret : String) : Prop :=
  ¬utf16Count secret.toList ≤ chunkUtf16Units ∧ (splitSecret secret).length ≤ maxChunks

/-- A nonempty secret is kept or replaced, or the rollback is lost. -/
private theorem saveToService_meets (lawful : Lawful codec) (hex : isHex generation 32 = true)
    (fresh : FreshGeneration service user generation before)
    (read : storedAt codec before service user = .ok previous)
    (nonempty : secret ≠ "") (trimmed : Text.trim secret = secret)
    (plain : Text.startsWith secret manifestPrefix = false) :
    Meets (saveToService codec service user secret generation) before pattern
      (fun result next _ =>
        (Kept codec service user secret before next ∨
          Chunked secret ∧ Damaging (splitSecret secret).length pattern) ∧
        (result = .ok () → storedAt codec next service user = .ok (some secret)))
      (fun next => Kept codec service user secret before next ∨
        Chunked secret ∧ Damaging (splitSecret secret).length pattern) := by
  have apart : Fresh codec service user (newUsers user secret generation) before :=
    fresh.fresh read
  refine Meets.bind (meets_loadRaw.mpr ⟨fun _ => Or.inl (Or.inl rfl), fun rest start => ?_,
    fun rest _ => ⟨Or.inl (Or.inl rfl), (by rintro ⟨⟩)⟩⟩)
  by_cases long : utf16Count secret.toList ≤ chunkUtf16Units
  · simp only [long, if_true]
    refine (saveWhole_meets nonempty trimmed plain namedUsers_ne).mono ?_ fun _ => Or.inl
    exact fun _ _ _ ⟨kept, ok⟩ => ⟨Or.inl kept, ok⟩
  · by_cases many : (splitSecret secret).length > maxChunks
    · simp only [long, if_false, many, if_true]
      exact ⟨Or.inl (Or.inl rfl), (by rintro ⟨⟩)⟩
    · simp only [long, if_false, many]
      have few := Nat.le_of_not_lt many
      have kept {next : Keyring} (untouched : Untouched service
          ([] ++ (newChunks user secret generation).map Prod.fst) before next) :
          Kept codec service user secret before next := by
        rw [List.nil_append, newChunks_users] at untouched
        exact Or.inl (apart.untouched untouched)
      refine Meets.bind ((writeChunks_meets [] (newChunks user secret generation)).mono ?_
        fun next untouched => Or.inl (kept untouched))
      rintro (error | users) next rest' ⟨untouched, finished⟩
      · exact ⟨Or.inl (kept untouched), (by rintro ⟨⟩)⟩
      · obtain ⟨rfl, rfl, pattern_⟩ := finished users rfl
        rw [newChunks_length] at pattern_
        have wrote : Untouched service (newUsers user secret generation) before
            (writeAll service before (newChunks user secret generation)) := by
          simpa [newChunks_users] using untouched
        have damaging (lost : RollbackLost (splitSecret secret).length rest') :
            Chunked secret ∧ Damaging (splitSecret secret).length pattern :=
          ⟨⟨long, few⟩, rest', by rw [start, pattern_], lost⟩
        rw [List.nil_append, newChunks_users]
        refine (saveManifest_meets lawful hex (splitSecret_nonempty long) few apart wrote
          writeAll_written).mono ?_ fun _ => Or.imp_right damaging
        exact fun _ _ _ ⟨ends, ok⟩ => ⟨ends.imp_right damaging, ok⟩

/-! ### Lost rollbacks -/

private theorem joinChunks_missing {users : List String}
    (absent : ∃ chunk ∈ users, keyring (service, chunk) = none) (reassembled : String) :
    joinChunks keyring service reassembled users =
      .error "Protected secret is damaged: a fragment is missing" := by
  induction users generalizing reassembled with
  | nil => simp at absent
  | cons first others ih =>
    rw [joinChunks]
    cases entry : keyring (service, first) with
    | none => rfl
    | some chunk =>
      obtain ⟨missing, member, gone⟩ := absent
      rcases List.mem_cons.mp member with rfl | later
      · rw [entry] at gone
        cases gone
      · exact ih ⟨missing, later, gone⟩ (reassembled ++ chunk)

private theorem writeChunks_writes (written : List String) (pairs : List (String × String))
    (rest : List Bool) :
    Meets (writeChunks service written pairs) keyring
      (List.replicate pairs.length true ++ rest)
      (fun result next last => result = .ok (written ++ pairs.map Prod.fst) ∧
        next = writeAll service keyring pairs ∧ last = rest)
      (fun _ => False) := by
  induction pairs generalizing keyring written with
  | nil => exact ⟨by simp, rfl, rfl⟩
  | cons pair others ih =>
    obtain ⟨user, chunk⟩ := pair
    refine Meets.bind ((meets_outcome _).mpr (meets_set.mpr ⟨(by rintro ⟨⟩), ?_, (by rintro _ ⟨⟩)⟩))
    rintro last ⟨⟩
    refine (ih (written ++ [user])).mono ?_ fun _ => id
    rintro result next last ⟨rfl, wrote, rfl⟩
    exact ⟨by simp, wrote, rfl⟩

/-- The new manifest stays and one of its chunks is gone. -/
private theorem damaging_loses (lawful : Lawful codec) (hex : isHex generation 32 = true)
    (chunked : Chunked secret) (damaging : Damaging (splitSecret secret).length pattern) :
    Meets (saveToService codec service user secret generation) before pattern
      (fun _ next _ => storedAt codec next service user =
        .error "Protected secret is damaged: a fragment is missing")
      (fun next => storedAt codec next service user =
        .error "Protected secret is damaged: a fragment is missing") := by
  obtain ⟨long, few⟩ := chunked
  obtain ⟨_, rfl, reads, after, rfl, readbacks, deleted⟩ := damaging
  obtain ⟨encoded, encoding, decoded⟩ :=
    decode_encoded lawful hex (splitSecret_nonempty long) few
  have apart : user ∉ newUsers user secret generation := by
    intro member
    obtain ⟨index, -, same⟩ := List.mem_map.mp member
    exact chunkUser_ne user generation index same.symm
  refine Meets.bind (meets_loadRaw.mpr ⟨(by rintro ⟨⟩), ?_, (by rintro _ ⟨⟩)⟩)
  rintro _ ⟨⟩
  simp only [long, if_false, Nat.not_lt.mpr few]
  have writes : Meets (writeChunks service [] _) before _ _ _ :=
    writeChunks_writes [] (newChunks user secret generation) (true :: reads)
  rw [newChunks_length] at writes
  refine Meets.bind (writes.mono ?_ fun _ => False.elim)
  rintro _ wrote _ ⟨rfl, rfl, rfl⟩
  have manifest : (⟨manifestVersion, generation, (splitSecret secret).length,
      codec.sha256Hex secret⟩ : SecretManifest) = manifestOf codec secret generation := rfl
  simp only [manifest, saveManifest, encoding]
  refine Meets.bind ((meets_outcome _).mpr (meets_set.mpr ⟨(by rintro ⟨⟩), ?_, (by rintro _ ⟨⟩)⟩))
  rintro _ ⟨⟩
  have beside : Untouched service [user]
      (writeAll service before (newChunks user secret generation))
      (Function.update (writeAll service before (newChunks user secret generation))
        (service, user) (some encoded)) :=
    update_untouched List.mem_cons_self _
  obtain ⟨stored, named⟩ := @storedAt_manifest codec _ service user _ _ _ decoded
    (by rw [Function.update_self])
    (writeAll_written.untouched beside (by simpa using apart))
  have readbacks_ : FailedReadbacks (namedUsers codec (Function.update
      (writeAll service before (newChunks user secret generation)) (service, user)
      (some encoded)) service user).length readbackAttempts reads (false :: after) := by
    rw [named, newUsers_length]
    exact readbacks
  refine Meets.bind ((meets_outcome _).mpr ((verifyAttempts_fails none stored readbacks_).mono ?_
    fun _ => False.elim))
  rintro _ current _ ⟨rfl, rfl, error, rfl⟩
  refine Meets.bind ((meets_outcome _).mpr ((meets_restore _).mpr ⟨(by rintro ⟨⟩), (by rintro _ ⟨⟩), ?_⟩))
  rintro _ ⟨⟩
  have broken {next : Keyring} (deletes : Deleted service (newUsers user secret generation) after
      (Function.update (writeAll service before (newChunks user secret generation))
        (service, user) (some encoded)) next) :
      storedAt codec next service user =
        .error "Protected secret is damaged: a fragment is missing" := by
    have main : next (service, user) = some encoded := by
      have untouched := deletes.untouched (service, user) fun chunk member same =>
        apart ((Prod.mk.inj same).2 ▸ member)
      rw [untouched, Function.update_self]
    have missing := joinChunks_missing
      (deletes.something (by rwa [newUsers_length])) ""
    have users : chunkUsers user (manifestOf codec secret generation).generation
        (manifestOf codec secret generation).count = newUsers user secret generation := rfl
    simp only [storedAt, main, startsWith_of_decode decoded, Bool.not_true, Bool.false_eq_true,
      if_false, decoded, users, missing]
  refine Meets.bind ((deleteEach_meets _).mono ?_ fun _ => broken)
  rintro _ next _ ⟨rfl, deletes⟩
  exact broken deletes

/-! ### What a load returns once reads work -/

/-- A load whose reads all work ends with `result`. -/
def Loads (codec : ManifestCodec) (keyring : Keyring) (service user : String)
    (result : Except String (Option String)) : Prop :=
  ∃ reads, ∀ rest, Meets (loadSecretFromService codec service user) keyring
    (List.replicate reads true ++ rest)
    (fun found next last => found = result ∧ next = keyring ∧ last = rest) (fun _ => False)

private theorem readChunks_reads (users : List String) (reassembled : String) :
    ∃ reads, ∀ rest, Meets (readChunks service reassembled users) keyring
      (List.replicate reads true ++ rest)
      (fun found next last => found = joinChunks keyring service reassembled users ∧
        next = keyring ∧ last = rest) (fun _ => False) := by
  induction users generalizing reassembled with
  | nil => exact ⟨0, fun rest => ⟨rfl, rfl, rfl⟩⟩
  | cons user others ih =>
    cases entry : keyring (service, user) with
    | none =>
      refine ⟨1, fun rest => Meets.bind (meets_loadRaw.mpr ⟨(by rintro ⟨⟩), ?_, (by rintro _ ⟨⟩)⟩)⟩
      rintro _ ⟨⟩
      rw [entry, joinChunks, entry]
      exact ⟨rfl, rfl, rfl⟩
    | some chunk =>
      obtain ⟨reads, others_⟩ := ih (reassembled ++ chunk)
      refine ⟨reads + 1, fun rest => Meets.bind (meets_loadRaw.mpr ⟨(by rintro ⟨⟩), ?_, (by rintro _ ⟨⟩)⟩)⟩
      rintro _ ⟨⟩
      rw [entry, joinChunks, entry]
      exact others_ rest

theorem loads_storedAt : Loads codec keyring service user (storedAt codec keyring service user) := by
  rw [storedAt]
  cases entry : keyring (service, user) with
  | none =>
    refine ⟨1, fun rest => Meets.bind (meets_loadRaw.mpr ⟨(by rintro ⟨⟩), ?_, (by rintro _ ⟨⟩)⟩)⟩
    rintro _ ⟨⟩
    rw [entry]
    exact ⟨rfl, rfl, rfl⟩
  | some stored =>
    by_cases plain : Text.startsWith stored manifestPrefix
    · simp only [plain, Bool.not_true, Bool.false_eq_true, if_false]
      cases decoded : decodeManifest codec stored with
      | error error =>
        refine ⟨1, fun rest => Meets.bind (meets_loadRaw.mpr ⟨(by rintro ⟨⟩), ?_, (by rintro _ ⟨⟩)⟩)⟩
        rintro _ ⟨⟩
        simp only [entry, plain, Bool.not_true, Bool.false_eq_true, if_false, decoded]
        exact ⟨rfl, rfl, rfl⟩
      | ok manifest =>
        obtain ⟨reads, chunks⟩ := @readChunks_reads keyring service
          (chunkUsers user manifest.generation manifest.count) ""
        refine ⟨reads + 1, fun rest => Meets.bind (meets_loadRaw.mpr ⟨(by rintro ⟨⟩), ?_, (by rintro _ ⟨⟩)⟩)⟩
        rintro _ ⟨⟩
        simp only [entry, plain, Bool.not_true, Bool.false_eq_true, if_false, decoded]
        refine Meets.bind ((chunks rest).mono ?_ fun _ => id)
        rintro _ next last ⟨rfl, rfl, rfl⟩
        cases joinChunks next service "" (chunkUsers user manifest.generation manifest.count) with
        | error error => exact ⟨rfl, rfl, rfl⟩
        | ok reassembled =>
          simp only
          split
          next => exact ⟨rfl, rfl, rfl⟩
          next => exact ⟨rfl, rfl, rfl⟩
    · rw [Bool.not_eq_true] at plain
      refine ⟨1, fun rest => Meets.bind (meets_loadRaw.mpr ⟨(by rintro ⟨⟩), ?_, (by rintro _ ⟨⟩)⟩)⟩
      rintro _ ⟨⟩
      simp only [entry, plain, Bool.not_false, if_true]
      exact ⟨rfl, rfl, rfl⟩

theorem loads_iff {result : Except String (Option String)} :
    Loads codec keyring service user result ↔ result = storedAt codec keyring service user := by
  refine ⟨?_, fun same => same ▸ loads_storedAt⟩
  rintro ⟨reads, loads⟩
  obtain ⟨others, stored⟩ := @loads_storedAt codec keyring service user
  by_contra different
  have first := loads (List.replicate others true)
  have second := stored (List.replicate reads true)
  rw [List.replicate_append_replicate] at first second
  rw [Nat.add_comm] at second
  exact first.exclusive second (fun _ _ _ left right => different (left.1.symm.trans right.1))
    fun _ => False.elim

/-! ### The exact condition -/

/-- However the save ends, the secret before or the new one is loaded, and the new one after
a success. -/
def Atomic (codec : ManifestCodec) (service user secret generation : String) (before : Keyring)
    (previous : Option String) (pattern : List Bool) : Prop :=
  Meets (saveToService codec service user secret generation) before pattern
    (fun result next _ =>
      (Loads codec next service user (.ok previous) ∨
        Loads codec next service user (.ok (some secret))) ∧
      (result = .ok () → Loads codec next service user (.ok (some secret))))
    (fun next => Loads codec next service user (.ok previous) ∨
      Loads codec next service user (.ok (some secret)))

theorem kept_iff (read : storedAt codec before service user = .ok previous) :
    Kept codec service user secret before next ↔
      Loads codec next service user (.ok previous) ∨
        Loads codec next service user (.ok (some secret)) := by
  rw [Kept, loads_iff, loads_iff, read]
  exact or_congr eq_comm eq_comm

private theorem short_empty : ¬Chunked "" :=
  fun chunked => chunked.1 (by decide)

private theorem atomic_empty_iff (read : storedAt codec before service user = .ok previous) :
    Atomic codec service user "" generation before previous pattern ↔
      ¬(previous ≠ none ∧ Vanishing pattern) := by
  have law := @saveEmpty_meets codec before service user generation pattern
  constructor
  · rintro atomic ⟨held, vanishing⟩
    simp only [vanishing, if_true] at law
    have lost {next : Keyring} (stored : storedAt codec next service user = .ok none) :
        ¬(Loads codec next service user (.ok previous) ∨
          Loads codec next service user (.ok (some ""))) := by
      rw [loads_iff, loads_iff, stored]
      simpa using held
    exact law.exclusive atomic (fun _ _ _ ⟨_, stored⟩ kept => lost stored kept.1)
      fun _ => lost
  · intro safe
    have same : (if Vanishing pattern then .ok none else storedAt codec before service user) =
        Except.ok previous := by
      by_cases vanishing : Vanishing pattern
      · rw [if_pos vanishing]
        by_contra held
        exact safe ⟨fun none => held (by rw [none]), vanishing⟩
      · rw [if_neg vanishing, read]
    rw [same] at law
    refine law.mono ?_ fun next stored => Or.inl (loads_iff.mpr stored.symm)
    rintro _ next _ ⟨⟨error, rfl⟩, stored⟩
    exact ⟨Or.inl (loads_iff.mpr stored.symm), (by rintro ⟨⟩)⟩

theorem not_atomic_of_damaging (lawful : Lawful codec) (hex : isHex generation 32 = true)
    (chunked : Chunked secret) (damaging : Damaging (splitSecret secret).length pattern) :
    ¬Atomic codec service user secret generation before previous pattern := by
  intro atomic
  have law : Meets (saveToService codec service user secret generation) before pattern _ _ :=
    damaging_loses lawful hex chunked damaging
  have broken {next : Keyring} (stored : storedAt codec next service user =
      .error "Protected secret is damaged: a fragment is missing") :
      ¬(Loads codec next service user (.ok previous) ∨
        Loads codec next service user (.ok (some secret))) := by
    rw [loads_iff, loads_iff, stored]
    simp
  exact law.exclusive atomic (fun _ _ _ stored kept => broken stored kept.1) fun _ => broken

/-- A save is atomic exactly where the rollback of a long secret is not lost and the empty
secret does not stay behind; the chunks of every text are the text, each within an entry. -/
theorem save_atomic_unless_rollback_lost (lawful : Lawful codec) (before : Keyring)
    (service user secret generation : String) (previous : Option String) (pattern : List Bool)
    (hex : isHex generation 32 = true)
    (fresh : FreshGeneration service user generation before)
    (read : Loads codec before service user (.ok previous))
    (trimmed : Text.trim secret = secret)
    (plain : Text.startsWith secret manifestPrefix = false) :
    (Atomic codec service user secret generation before previous pattern ↔
      ¬(Chunked secret ∧ Damaging (splitSecret secret).length pattern) ∧
        ¬(secret = "" ∧ previous ≠ none ∧ Vanishing pattern)) ∧
      ∀ text, joined (splitSecret text) = text.toList ∧
        ∀ chunk ∈ splitSecret text, utf16Count chunk.toList ≤ chunkUtf16Units := by
  have stored := (loads_iff.mp read).symm
  refine ⟨?_, splitSecret_spec⟩
  by_cases empty : secret = ""
  · subst empty
    rw [atomic_empty_iff stored]
    simp [short_empty]
  · constructor
    · exact fun atomic => ⟨fun ⟨chunked, damaging⟩ =>
        not_atomic_of_damaging lawful hex chunked damaging atomic, fun vanishes => empty vanishes.1⟩
    · rintro ⟨safe, -⟩
      refine (saveToService_meets lawful hex fresh stored empty trimmed plain).mono ?_ ?_
      · rintro result next _ ⟨kept | lost, ok⟩
        · exact ⟨(kept_iff stored).mp kept, fun done => loads_iff.mpr (ok done).symm⟩
        · exact absurd lost safe
      · rintro next (kept | lost)
        · exact (kept_iff stored).mp kept
        · exact absurd lost safe

theorem longSecret_chunked : Chunked longSecret := by
  constructor
  · rw [longSecret, lettersOnly_units]
    decide
  · refine (splitCharacters_length [] 0 _).trans ?_
    rw [longSecret, lettersOnly, String.toList_ofList, List.length_replicate]
    decide

private theorem longSecret_chunks : 2 ≤ (splitSecret longSecret).length := by
  obtain ⟨whole, within⟩ := splitSecret_spec longSecret
  have some_ := splitSecret_nonempty longSecret_chunked.1
  by_contra few
  obtain ⟨chunk, one⟩ : ∃ chunk, splitSecret longSecret = [chunk] := by
    rw [← List.length_eq_one_iff]
    have positive := List.length_pos_iff.mpr some_
    omega
  rw [one] at whole within
  refine longSecret_chunked.1 (whole ▸ ?_)
  simpa [joined] using within chunk (List.mem_singleton_self chunk)

/-- A save that fails or stops between two chunk writes keeps the secret before. -/
theorem interrupted_save_is_atomic :
    let before : Keyring := Function.update (fun _ => none) ("zenith", "account") (some "old")
    Atomic longSecretCodec "zenith" "account" longSecret zeroGeneration before (some "old")
        ([true, true, false] ++ List.replicate 4 true) ∧
      Atomic longSecretCodec "zenith" "account" longSecret zeroGeneration before (some "old")
        [true, true] := by
  intro before
  have fresh : FreshGeneration "zenith" "account" zeroGeneration before := fun index =>
    Function.update_of_ne (fun same => chunkUser_ne "account" zeroGeneration index
      (Prod.mk.inj same).2.symm) _ _
  have old : Loads longSecretCodec before "zenith" "account" (.ok (some "old")) :=
    loads_iff.mpr (by simp only [storedAt, before, Function.update_self]; decide)
  have condition (pattern : List Bool) := (save_atomic_unless_rollback_lost longSecretCodec_lawful
    before "zenith" "account" longSecret zeroGeneration (some "old") pattern (by decide) fresh old
    (lettersOnly_trimmed 1025) (lettersOnly_plain 1025)).1
  have long : longSecret ≠ "" := fun empty => longSecret_chunked.1 (by rw [empty]; decide)
  obtain ⟨others, chunks⟩ := Nat.exists_eq_add_of_le longSecret_chunks
  refine ⟨(condition _).mpr ⟨?_, fun vanishes => long vanishes.1⟩,
    (condition _).mpr ⟨?_, fun vanishes => long vanishes.1⟩⟩
  -- A damaging pattern lets every chunk write succeed.
  · rintro ⟨-, rest, same, -⟩
    rw [chunks, Nat.add_comm] at same
    simp [List.replicate_succ] at same
  · rintro ⟨-, rest, same, -⟩
    rw [chunks, Nat.add_comm] at same
    simp [List.replicate_succ] at same

/-- The manifest stays without its chunks where the readbacks and the restore fail. -/
theorem lost_rollback_damages :
    ¬Atomic longSecretCodec "zenith" "account" longSecret zeroGeneration (fun _ => none) none
      (true :: (List.replicate (splitSecret longSecret).length true ++
        [true, false, false, false, false, true])) := by
  have readback (rest : List Bool) : FailedReadback (splitSecret longSecret).length
      (false :: rest) rest := ⟨0, Nat.zero_le _, rfl⟩
  have readbacks : FailedReadbacks (splitSecret longSecret).length readbackAttempts
      [false, false, false, false, true] [false, true] :=
    ⟨_, readback _, _, readback _, _, readback _, rfl⟩
  have some_ := List.length_pos_iff.mpr (splitSecret_nonempty longSecret_chunked.1)
  have deleted : true ∈ [true].take (splitSecret longSecret).length := by
    rw [List.take_of_length_le some_]
    exact List.mem_singleton_self true
  exact not_atomic_of_damaging longSecretCodec_lawful (by decide) longSecret_chunked
    ⟨_, rfl, _, _, rfl, readbacks, deleted⟩

end Keyring

end ZenithRelay.Secrets
