import ZenithRelay.Secrets.Keyring

/-!
# Replacing a secret in the keyring

What a main entry stands for depends on it and on the chunks that its manifest names.
A replacement writes the chunks of a generation of its own first, so the main entry
decides between the secret before and the new one. The one way to lose both is to
delete the new chunks after the main entry could not be restored.
-/

set_option autoImplicit false

namespace ZenithRelay.Secrets

open Fallible

/-! ### Chunks -/

private theorem lenUtf16_le_two (character : Char) : lenUtf16 character ≤ 2 := by
  rw [lenUtf16]
  split <;> omega

/-- The text of a list of chunks. -/
def joined (chunks : List String) : List Char := chunks.flatMap String.toList

private theorem joined_splitCharacters (chunk : List Char) (units : Nat) (characters : List Char) :
    joined (splitCharacters chunk units characters) = chunk ++ characters := by
  fun_induction splitCharacters chunk units characters with
  | case1 chunk units empty =>
    rw [List.isEmpty_iff.mp empty]
    rfl
  | case2 chunk units nonempty => simp [joined]
  | case3 chunk units character rest full ih =>
    rw [joined, List.flatMap_cons, ← joined, ih]
    simp
  | case4 chunk units character rest fits ih =>
    rw [ih]
    simp

private theorem splitCharacters_within (chunk : List Char) (units : Nat) (characters : List Char)
    (counted : utf16Count chunk = units) (within : units ≤ chunkUtf16Units) :
    ∀ part ∈ splitCharacters chunk units characters,
      utf16Count part.toList ≤ chunkUtf16Units := by
  have single (character : Char) : utf16Count [character] = lenUtf16 character := by
    simp [utf16Count]
  have small (character : Char) : lenUtf16 character ≤ chunkUtf16Units :=
    Nat.le_trans (lenUtf16_le_two character) (by decide)
  fun_induction splitCharacters chunk units characters with
  | case1 chunk units empty => simp
  | case2 chunk units nonempty =>
    intro part member
    obtain rfl : part = String.ofList chunk := by simpa using member
    simpa [counted] using within
  | case3 chunk units character rest full ih =>
    rw [List.forall_mem_cons]
    refine ⟨by simpa [counted] using within, ih (single character) (small character)⟩
  | case4 chunk units character rest fits ih =>
    have total : utf16Count (chunk ++ [character]) = units + lenUtf16 character := by
      rw [← counted]
      simp [utf16Count]
    refine ih total ?_
    cases chunk with
    | nil =>
      obtain rfl : units = 0 := by simpa [utf16Count] using counted.symm
      simpa using small character
    | cons first others => simpa using fits

/-- The chunks of a text are the text, each within one entry. -/
theorem splitSecret_spec (secretText : String) :
    joined (splitSecret secretText) = secretText.toList ∧
      ∀ chunk ∈ splitSecret secretText, utf16Count chunk.toList ≤ chunkUtf16Units :=
  ⟨by simp [splitSecret, joined_splitCharacters],
    splitCharacters_within [] 0 _ rfl (Nat.zero_le _)⟩

theorem splitCharacters_length (chunk : List Char) (units : Nat) (characters : List Char) :
    (splitCharacters chunk units characters).length ≤ characters.length + 1 := by
  induction characters generalizing chunk units with
  | nil =>
    rw [splitCharacters]
    split
    next => exact Nat.zero_le _
    next => exact Nat.le_refl _
  | cons character rest ih =>
    rw [splitCharacters]
    split
    next => exact Nat.succ_le_succ (ih _ _)
    next => exact (ih _ _).trans (Nat.le_succ _)

theorem chunkUser_ne (user generation : String) (index : Nat) :
    user ≠ chunkUser user generation index := by
  intro same
  have length := congrArg String.length same
  simp only [chunkUser, String.length_append] at length
  have colon : ":chunk:".length = 7 := by decide
  omega

theorem chunkUser_injective (user generation : String) {left right : Nat}
    (same : chunkUser user generation left = chunkUser user generation right) : left = right := by
  have digits := (String.append_right_inj _).mp same
  have value := congrArg (fun text : String => Nat.ofDigitChars 10 text.toList 0) digits
  simpa [Nat.repr_eq_ofList_toDigits] using value

namespace Keyring

/-! ### What an entry stands for -/

/-- The chunks of `users` behind what was read before. -/
def joinChunks (keyring : Keyring) (service reassembled : String) : List String → Except String String
  | [] => .ok reassembled
  | user :: rest =>
    match keyring (service, user) with
    | none => .error "Protected secret is damaged: a fragment is missing"
    | some chunk => joinChunks keyring service (reassembled ++ chunk) rest

/-- The secret that a load returns when every read works. -/
def storedAt (codec : ManifestCodec) (keyring : Keyring) (service user : String) :
    Except String (Option String) :=
  match keyring (service, user) with
  | none => .ok none
  | some stored =>
    if !Text.startsWith stored manifestPrefix then
      .ok (if Text.trim stored = "" then none else some (Text.trim stored))
    else
      match decodeManifest codec stored with
      | .error error => .error error
      | .ok manifest =>
        match joinChunks keyring service "" (chunkUsers user manifest.generation manifest.count) with
        | .error error => .error error
        | .ok reassembled =>
          if codec.sha256Hex reassembled ≠ manifest.sha256 then
            .error "Protected secret is damaged: checksum mismatch"
          else .ok (some reassembled)

/-- The users of the chunks that the main entry names. -/
def namedUsers (codec : ManifestCodec) (keyring : Keyring) (service user : String) : List String :=
  match (keyring (service, user)).map (decodeManifest codec) with
  | some (.ok manifest) => chunkUsers user manifest.generation manifest.count
  | _ => []

variable {codec : ManifestCodec} {keyring next : Keyring} {service user : String}
  {pattern : List Bool}

private theorem joinChunks_congr {users : List String} (reassembled : String)
    (same : ∀ user ∈ users, next (service, user) = keyring (service, user)) :
    joinChunks next service reassembled users = joinChunks keyring service reassembled users := by
  induction users generalizing reassembled with
  | nil => rfl
  | cons user rest ih =>
    obtain ⟨first, others⟩ := List.forall_mem_cons.mp same
    rw [joinChunks, joinChunks, first]
    cases keyring (service, user) with
    | none => rfl
    | some chunk => exact ih (reassembled ++ chunk) others

/-- Only the main entry and the chunks it names matter. -/
theorem storedAt_congr (main : next (service, user) = keyring (service, user))
    (chunks : ∀ chunk ∈ namedUsers codec keyring service user,
      next (service, chunk) = keyring (service, chunk)) :
    storedAt codec next service user = storedAt codec keyring service user := by
  rw [storedAt, storedAt, main]
  rw [namedUsers] at chunks
  cases entry : keyring (service, user) with
  | none => rfl
  | some stored =>
    cases decoded : decodeManifest codec stored with
    | error error => simp only [decoded]
    | ok manifest =>
      rw [entry, Option.map_some, decoded] at chunks
      simp only [decoded, joinChunks_congr "" chunks]

/-- The chunks of a stored secret are all there. -/
private theorem joinChunks_present {users : List String} {reassembled value : String}
    (read : joinChunks keyring service reassembled users = .ok value) :
    ∀ user ∈ users, keyring (service, user) ≠ none := by
  induction users generalizing reassembled with
  | nil => simp
  | cons user rest ih =>
    rw [joinChunks] at read
    cases entry : keyring (service, user) with
    | none =>
      rw [entry] at read
      cases read
    | some chunk =>
      rw [entry] at read
      rw [List.forall_mem_cons]
      exact ⟨by rw [entry]; simp, ih read⟩

theorem startsWith_of_decode {stored : String} {manifest : SecretManifest}
    (decoded : decodeManifest codec stored = .ok manifest) :
    Text.startsWith stored manifestPrefix = true := by
  rw [decodeManifest] at decoded
  by_contra other
  rw [Bool.not_eq_true] at other
  simp [other] at decoded

theorem named_present {stored : Option String}
    (read : storedAt codec keyring service user = .ok stored) :
    ∀ chunk ∈ namedUsers codec keyring service user, keyring (service, chunk) ≠ none := by
  rw [storedAt] at read
  rw [namedUsers]
  cases entry : keyring (service, user) with
  | none => simp
  | some raw =>
    rw [entry] at read
    cases decoded : decodeManifest codec raw with
    | error error => simp [decoded]
    | ok manifest =>
      simp only [startsWith_of_decode decoded, Bool.not_true, Bool.false_eq_true, if_false,
        decoded] at read
      cases joined : joinChunks keyring service ""
          (chunkUsers user manifest.generation manifest.count) with
      | error error =>
        rw [joined] at read
        cases read
      | ok value => simpa [decoded] using joinChunks_present joined

/-! ### Loading and verifying -/

/-- A read that fails as one of the first `limit + 1` operations. -/
def FailedReadback (limit : Nat) (pattern rest : List Bool) : Prop :=
  ∃ count ≤ limit, pattern = List.replicate count true ++ false :: rest

/-- As many failed readbacks in a row. -/
def FailedReadbacks (limit : Nat) : Nat → List Bool → List Bool → Prop
  | 0, pattern, rest => pattern = rest
  | attempts + 1, pattern, rest =>
    ∃ middle, FailedReadback limit pattern middle ∧ FailedReadbacks limit attempts middle rest

theorem FailedReadback.cons {limit : Nat} {rest : List Bool}
    (failed : FailedReadback limit pattern rest) :
    FailedReadback (limit + 1) (true :: pattern) rest := by
  obtain ⟨count, within, rfl⟩ := failed
  exact ⟨count + 1, by omega, rfl⟩

theorem meets_loadRaw {after : Except String (Option String) → Keyring → List Bool → Prop}
    {stopped : Keyring → Prop} :
    Meets (loadRawFromService service user) keyring pattern after stopped ↔
      (pattern = [] → stopped keyring) ∧
      (∀ rest, pattern = true :: rest → after (.ok (keyring (service, user))) keyring rest) ∧
      ∀ rest, pattern = false :: rest →
        after (.error "Could not read the secret from OS storage") keyring rest :=
  meets_fetch _ _

/-- Reading chunks changes nothing; it returns them or a read fails. -/
private theorem readChunks_meets (users : List String) (reassembled : String) :
    Meets (readChunks service reassembled users) keyring pattern
      (fun result next rest => next = keyring ∧
        (result = joinChunks keyring service reassembled users ∨
          (∃ error, result = .error error) ∧ ∃ limit, limit + 1 = users.length ∧
            FailedReadback limit pattern rest))
      (fun next => next = keyring) := by
  induction users generalizing reassembled pattern with
  | nil => exact ⟨rfl, Or.inl rfl⟩
  | cons user others ih =>
    refine Meets.bind (meets_loadRaw.mpr ⟨fun _ => rfl, fun rest read => ?_, fun rest failed => ?_⟩)
    · cases entry : keyring (service, user) with
      | none => exact ⟨rfl, Or.inl (by rw [joinChunks, entry])⟩
      | some chunk =>
        refine (ih (reassembled ++ chunk)).mono ?_ fun _ same => same
        rintro result final last ⟨same, joined | ⟨error, limit, size, failed⟩⟩
        · exact ⟨same, Or.inl (by rw [joined, joinChunks, entry])⟩
        · refine ⟨same, Or.inr ⟨error, limit + 1, by rw [List.length_cons, size], ?_⟩⟩
          rw [read]
          exact failed.cons
    · exact ⟨rfl, Or.inr ⟨⟨_, rfl⟩, others.length, rfl, 0, Nat.zero_le _, failed⟩⟩

/-- A load changes nothing; it returns what is stored or a read fails. -/
theorem load_meets :
    Meets (loadSecretFromService codec service user) keyring pattern
      (fun result next rest => next = keyring ∧
        (result = storedAt codec keyring service user ∨ (∃ error, result = .error error) ∧
          FailedReadback (namedUsers codec keyring service user).length pattern rest))
      (fun next => next = keyring) := by
  refine Meets.bind (meets_loadRaw.mpr ⟨fun _ => rfl, fun rest read => ?_, fun rest failed => ?_⟩)
  · rw [storedAt, namedUsers]
    cases entry : keyring (service, user) with
    | none => exact ⟨rfl, Or.inl rfl⟩
    | some stored =>
      by_cases plain : Text.startsWith stored manifestPrefix
      · simp only [plain, Bool.not_true, Bool.false_eq_true, if_false, Option.map_some]
        cases decoded : decodeManifest codec stored with
        | error error => exact ⟨rfl, Or.inl rfl⟩
        | ok manifest =>
          refine Meets.bind ((readChunks_meets _ "").mono ?_ fun _ same => same)
          rintro result final last ⟨rfl, same | ⟨⟨error, rfl⟩, limit, size, failed⟩⟩
          · cases result with
            | error error => exact ⟨rfl, Or.inl (by simp only [← same])⟩
            | ok value =>
              simp only [← same]
              split
              next => exact ⟨rfl, Or.inl rfl⟩
              next => exact ⟨rfl, Or.inl rfl⟩
          · refine ⟨rfl, Or.inr ⟨⟨error, rfl⟩, ?_⟩⟩
            rw [read, ← size]
            exact failed.cons
      · rw [Bool.not_eq_true] at plain
        simp only [plain, Bool.not_false, if_true]
        exact ⟨rfl, Or.inl rfl⟩
  · exact ⟨rfl, Or.inr ⟨⟨_, rfl⟩, 0, Nat.zero_le _, failed⟩⟩

/-- A verification changes nothing; it accepts only what is stored, and refuses it only when
every readback fails. -/
theorem verifyAttempts_meets (expected : String) (attempts : Nat) (lastError : Option String) :
    Meets (verifyAttempts codec service user expected attempts lastError) keyring pattern
      (fun result next rest => next = keyring ∧
        (result = .ok () → storedAt codec keyring service user = .ok (some expected)) ∧
        ∀ error, result = .error error →
          storedAt codec keyring service user = .ok (some expected) →
            FailedReadbacks (namedUsers codec keyring service user).length attempts pattern rest)
      (fun next => next = keyring) := by
  induction attempts generalizing pattern lastError with
  | zero => exact ⟨rfl, (by rintro ⟨⟩), fun _ _ _ => rfl⟩
  | succ attempts ih =>
    refine Meets.bind ((meets_outcome _).mpr (load_meets.mono ?_ fun _ same => same))
    rintro result next rest ⟨rfl, same | ⟨⟨error, rfl⟩, failed⟩⟩
    · cases result with
      | ok stored =>
        by_cases found : stored = some expected
        · simp only [found, if_true]
          exact ⟨rfl, fun _ => by rw [← same, found], (by rintro _ ⟨⟩)⟩
        · simp only [found, if_false]
          refine (ih none).mono ?_ fun _ same => same
          rintro result final last ⟨rfl, accepted, -⟩
          refine ⟨rfl, accepted, fun _ _ good => ?_⟩
          rw [good] at same
          exact absurd (Except.ok.inj same) found
      | error error =>
        refine (ih (some error)).mono ?_ fun _ same => same
        rintro result final last ⟨rfl, accepted, -⟩
        refine ⟨rfl, accepted, fun _ _ good => ?_⟩
        rw [good] at same
        cases same
    · refine (ih (some error)).mono ?_ fun _ same => same
      rintro result final last ⟨rfl, accepted, readbacks⟩
      exact ⟨rfl, accepted, fun error given good => ⟨rest, failed, readbacks error given good⟩⟩

private theorem readChunks_fails {users : List String} {reassembled value : String} {limit : Nat}
    {rest : List Bool} (present : joinChunks keyring service reassembled users = .ok value)
    (size : limit + 1 = users.length) (failed : FailedReadback limit pattern rest) :
    Meets (readChunks service reassembled users) keyring pattern
      (fun result next last => next = keyring ∧ last = rest ∧ ∃ error, result = .error error)
      (fun _ => False) := by
  induction users generalizing reassembled limit pattern with
  | nil => cases size
  | cons user others ih =>
    obtain ⟨count, within, rfl⟩ := failed
    rw [joinChunks] at present
    cases entry : keyring (service, user) with
    | none =>
      rw [entry] at present
      cases present
    | some chunk =>
      rw [entry] at present
      cases count with
      | zero =>
        refine Meets.bind (meets_loadRaw.mpr ⟨(by rintro ⟨⟩), (by rintro _ ⟨⟩), ?_⟩)
        rintro last ⟨⟩
        exact ⟨rfl, rfl, _, rfl⟩
      | succ count =>
        refine Meets.bind (meets_loadRaw.mpr ⟨(by rintro ⟨⟩), ?_, (by rintro _ ⟨⟩)⟩)
        rintro last ⟨⟩
        simp only [entry]
        rw [List.length_cons] at size
        have fewer : limit - 1 + 1 = others.length := by omega
        exact ih present fewer ⟨count, by omega, rfl⟩

private theorem load_fails {stored : Option String} {rest : List Bool}
    (read : storedAt codec keyring service user = .ok stored)
    (failed : FailedReadback (namedUsers codec keyring service user).length pattern rest) :
    Meets (loadSecretFromService codec service user) keyring pattern
      (fun result next last => next = keyring ∧ last = rest ∧ ∃ error, result = .error error)
      (fun _ => False) := by
  obtain ⟨count, within, rfl⟩ := failed
  cases count with
  | zero =>
    refine Meets.bind (meets_loadRaw.mpr ⟨(by rintro ⟨⟩), (by rintro _ ⟨⟩), ?_⟩)
    rintro last ⟨⟩
    exact ⟨rfl, rfl, _, rfl⟩
  | succ count =>
    refine Meets.bind (meets_loadRaw.mpr ⟨(by rintro ⟨⟩), ?_, (by rintro _ ⟨⟩)⟩)
    rintro last ⟨⟩
    rw [namedUsers] at within
    cases entry : keyring (service, user) with
    | none =>
      rw [entry] at within
      cases within
    | some raw =>
      rw [entry, Option.map_some] at within
      cases decoded : decodeManifest codec raw with
      | error error =>
        rw [decoded] at within
        cases within
      | ok manifest =>
        rw [decoded] at within
        rw [storedAt, entry] at read
        have plain := startsWith_of_decode decoded
        simp only [plain, Bool.not_true, Bool.false_eq_true, if_false, decoded] at read ⊢
        cases joined : joinChunks keyring service ""
            (chunkUsers user manifest.generation manifest.count) with
        | error error =>
          rw [joined] at read
          cases read
        | ok value =>
          have some_ : count + 1 ≤ (chunkUsers user manifest.generation manifest.count).length :=
            within
          have size : (chunkUsers user manifest.generation manifest.count).length - 1 + 1 =
              (chunkUsers user manifest.generation manifest.count).length := by omega
          refine Meets.bind ((readChunks_fails joined size ⟨count, by omega, rfl⟩).mono ?_
            fun _ => False.elim)
          rintro _ next last ⟨rfl, rfl, error, rfl⟩
          exact ⟨rfl, rfl, error, rfl⟩

theorem verifyAttempts_fails {expected : String} {attempts : Nat} {rest : List Bool}
    (lastError : Option String) (good : storedAt codec keyring service user = .ok (some expected))
    (failed : FailedReadbacks (namedUsers codec keyring service user).length attempts pattern rest) :
    Meets (verifyAttempts codec service user expected attempts lastError) keyring pattern
      (fun result next last => next = keyring ∧ last = rest ∧ ∃ error, result = .error error)
      (fun _ => False) := by
  induction attempts generalizing pattern lastError with
  | zero => exact ⟨rfl, failed, _, rfl⟩
  | succ attempts ih =>
    obtain ⟨middle, first, others⟩ := failed
    refine Meets.bind ((meets_outcome _).mpr ((load_fails good first).mono ?_ fun _ => False.elim))
    rintro _ next last ⟨rfl, rfl, error, rfl⟩
    exact ih (some error) others

/-! ### Writing and deleting chunks -/

/-- Only entries of `users` may differ. -/
def Untouched (service : String) (users : List String) (keyring next : Keyring) : Prop :=
  ∀ entry, (∀ user ∈ users, entry ≠ (service, user)) → next entry = keyring entry

theorem Untouched.refl {users : List String} : Untouched service users keyring keyring :=
  fun _ _ => rfl

theorem Untouched.trans {users : List String} {middle : Keyring}
    (first : Untouched service users keyring middle) (second : Untouched service users middle next) :
    Untouched service users keyring next :=
  fun entry apart => (second entry apart).trans (first entry apart)

theorem Untouched.mono {fewer users : List String} (untouched : Untouched service fewer keyring next)
    (within : ∀ user ∈ fewer, user ∈ users) : Untouched service users keyring next :=
  fun entry apart => untouched entry fun user member => apart user (within user member)

theorem update_untouched {users : List String} (member : user ∈ users) (value : Option String) :
    Untouched service users keyring (Function.update keyring (service, user) value) :=
  fun _ apart => Function.update_of_ne (apart user member) value keyring

/-- What a row of deletes leaves; without a success it is what was there before. -/
structure Deleted (service : String) (users : List String) (pattern : List Bool)
    (keyring next : Keyring) : Prop where
  untouched : Untouched service users keyring next
  pruned : ∀ entry, next entry = keyring entry ∨ next entry = none
  nothing : true ∉ pattern.take users.length → next = keyring
  something : true ∈ pattern.take users.length → ∃ user ∈ users, next (service, user) = none

theorem meets_delete {after : Except String Unit → Keyring → List Bool → Prop}
    {stopped : Keyring → Prop} :
    Meets (deleteFromService service user) keyring pattern after stopped ↔
      (pattern = [] → stopped keyring) ∧
      (∀ rest, pattern = true :: rest →
        after (.ok ()) (Function.update keyring (service, user) none) rest) ∧
      ∀ rest, pattern = false :: rest →
        after (.error "Could not delete the secret from OS storage") keyring rest :=
  meets_operate _ _

theorem meets_set {secretValue : String} {after : Except String Unit → Keyring → List Bool → Prop}
    {stopped : Keyring → Prop} :
    Meets (setPassword service user secretValue) keyring pattern after stopped ↔
      (pattern = [] → stopped keyring) ∧
      (∀ rest, pattern = true :: rest →
        after (.ok ()) (Function.update keyring (service, user) (some secretValue)) rest) ∧
      ∀ rest, pattern = false :: rest →
        after (.error "Could not save the secret in OS storage") keyring rest :=
  meets_operate _ _

theorem deleteEach_meets (users : List String) :
    Meets (deleteEach service users) keyring pattern
      (fun result next _ => result = .ok () ∧ Deleted service users pattern keyring next)
      (Deleted service users pattern keyring) := by
  induction users generalizing keyring pattern with
  | nil => exact ⟨rfl, .refl, fun _ => Or.inl rfl, fun _ => rfl, by simp⟩
  | cons user others ih =>
    refine Meets.bind ((meets_outcome _).mpr (meets_delete.mpr ⟨?_, ?_, ?_⟩))
    · rintro rfl
      exact ⟨.refl, fun _ => Or.inl rfl, fun _ => rfl, by simp⟩
    · rintro rest rfl
      have cleared : Untouched service (user :: others) keyring
          (Function.update keyring (service, user) none) :=
        update_untouched List.mem_cons_self none
      have deleted {next : Keyring}
          (others_ : Deleted service others rest
            (Function.update keyring (service, user) none) next) :
          Deleted service (user :: others) (true :: rest) keyring next := by
        have gone : next (service, user) = none := by
          rcases others_.pruned (service, user) with same | gone
          · rw [same, Function.update_self]
          · exact gone
        refine ⟨cleared.trans (others_.untouched.mono fun _ => List.mem_cons_of_mem user),
          fun entry => ?_, by simp, fun _ => ⟨user, List.mem_cons_self, gone⟩⟩
        by_cases own : entry = (service, user)
        · exact Or.inr (own ▸ gone)
        · have kept := others_.pruned entry
          rwa [Function.update_of_ne own] at kept
      exact ih.mono (fun result next _ ⟨ok, others_⟩ => ⟨ok, deleted others_⟩) fun _ => deleted
    · rintro rest rfl
      have deleted {next : Keyring} (others_ : Deleted service others rest keyring next) :
          Deleted service (user :: others) (false :: rest) keyring next := by
        refine ⟨others_.untouched.mono fun _ => List.mem_cons_of_mem user, others_.pruned,
          fun absent => ?_, fun present => ?_⟩
        · exact others_.nothing (by simpa using absent)
        · obtain ⟨other, member, gone⟩ := others_.something (by simpa using present)
          exact ⟨other, List.mem_cons_of_mem user member, gone⟩
      exact ih.mono (fun result next _ ⟨ok, others_⟩ => ⟨ok, deleted others_⟩) fun _ => deleted

/-- The keyring with the pairs written in order. -/
def writeAll (service : String) (keyring : Keyring) (pairs : List (String × String)) : Keyring :=
  pairs.foldl (fun keyring (user, chunk) =>
    Function.update keyring (service, user) (some chunk)) keyring

private theorem writeAll_untouched (pairs : List (String × String)) :
    Untouched service (pairs.map Prod.fst) keyring (writeAll service keyring pairs) := by
  induction pairs generalizing keyring with
  | nil => exact .refl
  | cons pair rest ih =>
    have first : Untouched service ((pair :: rest).map Prod.fst) keyring
        (Function.update keyring (service, pair.1) (some pair.2)) :=
      update_untouched List.mem_cons_self _
    exact first.trans (ih.mono fun _ => List.mem_cons_of_mem pair.1)

theorem writeAll_apply {pairs : List (String × String)} (distinct : (pairs.map Prod.fst).Nodup)
    {chunk : String} (member : (user, chunk) ∈ pairs) :
    writeAll service keyring pairs (service, user) = some chunk := by
  induction pairs generalizing keyring with
  | nil => cases member
  | cons pair rest ih =>
    obtain ⟨fresh, others⟩ := List.nodup_cons.mp distinct
    rcases List.mem_cons.mp member with rfl | later
    · have kept : Untouched service (rest.map Prod.fst)
          (Function.update keyring (service, user) (some chunk))
          (writeAll service keyring ((user, chunk) :: rest)) := writeAll_untouched rest
      rw [kept (service, user) fun other member same => fresh ((Prod.mk.inj same).2.symm ▸ member)]
      exact Function.update_self ..
    · exact ih others later

/-- Writing the chunks in order: a failure or a stop leaves only entries of their users. -/
theorem writeChunks_meets (written : List String) (pairs : List (String × String)) :
    Meets (writeChunks service written pairs) keyring pattern
      (fun result next rest =>
        Untouched service (written ++ pairs.map Prod.fst) keyring next ∧
        ∀ users, result = .ok users → users = written ++ pairs.map Prod.fst ∧
          next = writeAll service keyring pairs ∧
          pattern = List.replicate pairs.length true ++ rest)
      (Untouched service (written ++ pairs.map Prod.fst) keyring) := by
  induction pairs generalizing keyring pattern written with
  | nil =>
    refine ⟨.refl, ?_⟩
    rintro _ ⟨⟩
    exact ⟨by simp, rfl, rfl⟩
  | cons pair rest ih =>
    obtain ⟨user, chunk⟩ := pair
    have whole : written ++ ((user, chunk) :: rest).map Prod.fst =
        (written ++ [user]) ++ rest.map Prod.fst := by simp
    have first : Untouched service (written ++ ((user, chunk) :: rest).map Prod.fst) keyring
        (Function.update keyring (service, user) (some chunk)) :=
      update_untouched (by simp) _
    refine Meets.bind ((meets_outcome _).mpr (meets_set.mpr ⟨fun _ => .refl, ?_, ?_⟩))
    · rintro last rfl
      refine (ih (written ++ [user])).mono ?_ ?_
      · rintro result next pattern ⟨untouched, finished⟩
        rw [← whole] at untouched finished
        refine ⟨first.trans untouched, fun users ok => ?_⟩
        obtain ⟨rfl, rfl, rfl⟩ := finished users ok
        exact ⟨rfl, rfl, rfl⟩
      · intro next untouched
        rw [← whole] at untouched
        exact first.trans untouched
    · rintro last -
      refine Meets.bind ((deleteEach_meets written).mono ?_ ?_)
      · rintro _ next rest ⟨rfl, deleted⟩
        exact ⟨deleted.untouched.mono fun _ => List.mem_append_left _, (by rintro _ ⟨⟩)⟩
      · exact fun next deleted => deleted.untouched.mono fun _ => List.mem_append_left _

/-! ### The manifest of written chunks -/

/-- A manifest with hexadecimal texts is read back from its JSON, and a digest is 64
hexadecimal digits. -/
structure Lawful (codec : ManifestCodec) : Prop where
  json : ∀ manifest, isHex manifest.generation 32 → isHex manifest.sha256 64 →
    ∃ json, codec.toJson manifest = some json ∧ codec.fromJson json = some manifest
  digest : ∀ text, isHex (codec.sha256Hex text) 64 = true

/-- The manifest that a save of `secret` writes. -/
def manifestOf (codec : ManifestCodec) (secret generation : String) : SecretManifest :=
  ⟨manifestVersion, generation, (splitSecret secret).length, codec.sha256Hex secret⟩

/-- The users of the chunks of `secret`. -/
def newUsers (user secret generation : String) : List String :=
  chunkUsers user generation (splitSecret secret).length

theorem decode_encoded (lawful : Lawful codec) {secret generation : String}
    (hex : isHex generation 32 = true) (some_ : splitSecret secret ≠ [])
    (few : (splitSecret secret).length ≤ maxChunks) :
    ∃ encoded, encodeManifest codec (manifestOf codec secret generation) = .ok encoded ∧
      decodeManifest codec encoded = .ok (manifestOf codec secret generation) := by
  obtain ⟨json, written, read⟩ :=
    lawful.json (manifestOf codec secret generation) hex (lawful.digest secret)
  refine ⟨manifestPrefix ++ json, by rw [encodeManifest, written], ?_⟩
  have starts : Text.startsWith (manifestPrefix ++ json) manifestPrefix = true := by
    simp [Text.startsWith]
  have rest : String.ofList ((manifestPrefix ++ json).toList.drop manifestPrefix.length) = json := by
    simp [← String.length_toList]
  have count : (splitSecret secret).length ≠ 0 := by simpa using some_
  simp only [decodeManifest, starts, Bool.not_true, Bool.false_eq_true, if_false, rest, read]
  simp [manifestOf, count, hex, lawful.digest secret, few]

private theorem joinChunks_written {pairs : List (String × String)}
    (present : ∀ pair ∈ pairs, keyring (service, pair.1) = some pair.2) (reassembled : String) :
    joinChunks keyring service reassembled (pairs.map Prod.fst) =
      .ok (String.ofList (reassembled.toList ++ joined (pairs.map Prod.snd))) := by
  induction pairs generalizing reassembled with
  | nil => simp [joinChunks, joined]
  | cons pair rest ih =>
    obtain ⟨first, others⟩ := List.forall_mem_cons.mp present
    rw [List.map_cons, joinChunks, first]
    simp only
    rw [ih others]
    simp [joined]

/-- The chunks of `secret` are there. -/
def ChunksWritten (service user secret generation : String) (keyring : Keyring) : Prop :=
  ∀ pair ∈ (newUsers user secret generation).zip (splitSecret secret),
    keyring (service, pair.1) = some pair.2

theorem newUsers_length (user secret generation : String) :
    (newUsers user secret generation).length = (splitSecret secret).length := by
  simp [newUsers, chunkUsers]

/-- A manifest of written chunks stands for its secret. -/
theorem storedAt_manifest {secret generation encoded : String}
    (decoded : decodeManifest codec encoded = .ok (manifestOf codec secret generation))
    (main : keyring (service, user) = some encoded)
    (written : ChunksWritten service user secret generation keyring) :
    storedAt codec keyring service user = .ok (some secret) ∧
      namedUsers codec keyring service user = newUsers user secret generation := by
  have length := newUsers_length user secret generation
  have joined := joinChunks_written written ""
  rw [List.map_fst_zip (by omega), List.map_snd_zip (by omega), (splitSecret_spec secret).1] at joined
  have plain := startsWith_of_decode decoded
  constructor
  · simp only [storedAt, main, plain, Bool.not_true, Bool.false_eq_true, if_false, decoded]
    have users : chunkUsers user (manifestOf codec secret generation).generation
        (manifestOf codec secret generation).count = newUsers user secret generation := rfl
    rw [users, joined]
    simp [manifestOf]
  · rw [namedUsers, main, Option.map_some, decoded]
    rfl

end Keyring

end ZenithRelay.Secrets
