import ZenithRelay.Secrets.KeyringProperties

/-!
# A replacement is atomic unless its rollback fails

A save ends with the secret before or with the new one, whatever fails and wherever the
process stops, except where the new manifest stays in place and its chunks are deleted.
-/

set_option autoImplicit false

namespace ZenithRelay.Secrets

open Fallible

namespace Keyring

variable {codec : ManifestCodec} {keyring next : Keyring} {service user secret generation : String}
  {pattern : List Bool}

/-- The secret before or the new one is stored. -/
def Kept (codec : ManifestCodec) (service user secret : String) (before next : Keyring) : Prop :=
  storedAt codec next service user = storedAt codec before service user ∨
    storedAt codec next service user = .ok (some secret)

/-- After the new manifest every readback fails, the restoring operation fails, and then a
chunk is deleted. -/
def RollbackLost (chunks : Nat) (pattern : List Bool) : Prop :=
  ∃ rest after, pattern = true :: rest ∧
    FailedReadbacks chunks readbackAttempts rest (false :: after) ∧ true ∈ after.take chunks

/-- The pattern of a save that loses both secrets: it reads the main entry and writes
every chunk before. -/
def Damaging (chunks : Nat) (pattern : List Bool) : Prop :=
  ∃ rest, pattern = true :: (List.replicate chunks true ++ rest) ∧ RollbackLost chunks rest

theorem meets_restore (previous : Option String)
    {after : Except String Unit → Keyring → List Bool → Prop} {stopped : Keyring → Prop} :
    Meets (restoreRawSecret service user previous) keyring pattern after stopped ↔
      (pattern = [] → stopped keyring) ∧
      (∀ rest, pattern = true :: rest →
        after (.ok ()) (Function.update keyring (service, user) previous) rest) ∧
      ∀ rest, pattern = false :: rest → after (.error (match previous with
        | some _ => "Could not save the secret in OS storage"
        | none => "Could not delete the secret from OS storage")) keyring rest := by
  cases previous with
  | none => exact meets_delete
  | some previous => exact meets_set

/-- What the main entry stands for does not depend on the chunks of a fresh generation. -/
structure Fresh (codec : ManifestCodec) (service user : String) (users : List String)
    (before : Keyring) : Prop where
  main : user ∉ users
  named : ∀ chunk ∈ namedUsers codec before service user, chunk ∉ users ∧ chunk ≠ user

theorem Fresh.untouched {users : List String} (fresh : Fresh codec service user users keyring)
    (untouched : Untouched service users keyring next) :
    storedAt codec next service user = storedAt codec keyring service user := by
  refine storedAt_congr (untouched _ fun other member same => ?_) fun chunk member => ?_
  · exact fresh.main ((Prod.mk.inj same).2 ▸ member)
  · exact untouched _ fun other written same =>
      (fresh.named chunk member).1 ((Prod.mk.inj same).2 ▸ written)

/-- A main entry with the chunks of a fresh generation around it stands for what it stood for. -/
theorem Fresh.restored {users : List String} (fresh : Fresh codec service user users keyring)
    (untouched : Untouched service (user :: users) keyring next)
    (main : next (service, user) = keyring (service, user)) :
    storedAt codec next service user = storedAt codec keyring service user := by
  refine storedAt_congr main fun chunk member => untouched _ fun other written same => ?_
  obtain rfl : chunk = other := (Prod.mk.inj same).2
  rcases List.mem_cons.mp written with own | new
  · exact (fresh.named chunk member).2 own
  · exact (fresh.named chunk member).1 new

theorem deletePrevious_meets (raw : Option String)
    (main : keyring (service, user) = raw) :
    ∀ current pattern, Meets (deletePrevious service user
        (raw.bind fun stored => (decodeManifest codec stored).toOption)) current pattern
      (fun result next _ => result = .ok () ∧
        Untouched service (namedUsers codec keyring service user) current next)
      (Untouched service (namedUsers codec keyring service user) current) := by
  intro current pattern
  rw [namedUsers, main]
  cases raw with
  | none => exact ⟨rfl, .refl⟩
  | some stored =>
    cases decoded : decodeManifest codec stored with
    | error error =>
      simp only [Option.bind_some, decoded, Except.toOption]
      exact ⟨rfl, .refl⟩
    | ok manifest =>
      simp only [Option.bind_some, Option.map_some, decoded, Except.toOption]
      exact (deleteEach_meets _).mono
        (fun _ _ _ ended => ⟨ended.1, ended.2.untouched⟩) fun _ deleted => deleted.untouched

variable {before : Keyring}

/-- Chunks stay written while only the main entry and older chunks change. -/
theorem ChunksWritten.untouched {users : List String}
    (written : ChunksWritten service user secret generation keyring)
    (untouched : Untouched service users keyring next)
    (apart : ∀ chunk ∈ users, chunk ∉ newUsers user secret generation) :
    ChunksWritten service user secret generation next := by
  intro pair member
  rw [untouched _ fun chunk own same => ?_]
  · exact written pair member
  · have new := (List.of_mem_zip member).1
    exact apart chunk own ((Prod.mk.inj same).2 ▸ new)

theorem saveManifest_meets (lawful : Lawful codec) (hex : isHex generation 32 = true)
    (some_ : splitSecret secret ≠ []) (few : (splitSecret secret).length ≤ maxChunks)
    (fresh : Fresh codec service user (newUsers user secret generation) before)
    (wrote : Untouched service (newUsers user secret generation) before keyring)
    (written : ChunksWritten service user secret generation keyring) :
    Meets (saveManifest codec service user secret (manifestOf codec secret generation)
        (newUsers user secret generation) (before (service, user))
        ((before (service, user)).bind fun stored => (decodeManifest codec stored).toOption))
      keyring pattern
      (fun result next _ =>
        (Kept codec service user secret before next ∨
          RollbackLost (splitSecret secret).length pattern) ∧
        (result = .ok () → storedAt codec next service user = .ok (some secret)))
      (fun next => Kept codec service user secret before next ∨
        RollbackLost (splitSecret secret).length pattern) := by
  obtain ⟨encoded, encoding, decoded⟩ := decode_encoded lawful hex some_ few
  have kept {next : Keyring} (untouched : Untouched service (newUsers user secret generation)
      keyring next) : Kept codec service user secret before next :=
    Or.inl (fresh.untouched (wrote.trans untouched))
  -- the new main entry with its chunks
  have replaced {next : Keyring} {users : List String}
      (untouched : Untouched service users
        (Function.update keyring (service, user) (some encoded)) next)
      (apart : ∀ chunk ∈ users, chunk ∉ newUsers user secret generation ∧ chunk ≠ user) :
      storedAt codec next service user = .ok (some secret) ∧
        namedUsers codec next service user = newUsers user secret generation := by
    have main : next (service, user) = some encoded := by
      rw [untouched _ fun chunk own same => (apart chunk own).2 (Prod.mk.inj same).2.symm,
        Function.update_self]
    have beside : Untouched service [user] keyring
        (Function.update keyring (service, user) (some encoded)) :=
      update_untouched List.mem_cons_self _
    have still := (written.untouched beside (by simpa using fresh.main)).untouched untouched
      fun chunk own => (apart chunk own).1
    exact storedAt_manifest decoded main still
  have unchanged : Untouched service [] (Function.update keyring (service, user) (some encoded))
      (Function.update keyring (service, user) (some encoded)) := .refl
  obtain ⟨stored, named⟩ := replaced unchanged (by simp)
  -- the main entry restored, with any of the new chunks deleted
  have restored {next : Keyring} (untouched : Untouched service (newUsers user secret generation)
      (Function.update (Function.update keyring (service, user) (some encoded)) (service, user)
        (before (service, user))) next) : Kept codec service user secret before next := by
    refine Or.inl (fresh.restored ?_ ?_)
    · intro entry apart
      obtain ⟨own, new⟩ := List.forall_mem_cons.mp apart
      rw [untouched entry new, Function.update_of_ne own, Function.update_of_ne own, wrote entry new]
    · have apart : ∀ chunk ∈ newUsers user secret generation, (service, user) ≠ (service, chunk) := by
        intro chunk member same
        obtain rfl : user = chunk := (Prod.mk.inj same).2
        exact fresh.main member
      rw [untouched _ apart, Function.update_self]
  rw [saveManifest, encoding]
  refine Meets.bind ((meets_outcome _).mpr (meets_set.mpr ⟨fun _ => Or.inl (kept .refl), ?_, ?_⟩))
  · rintro rest set
    refine Meets.bind ((meets_outcome _).mpr ((verifyAttempts_meets secret readbackAttempts
      none).mono ?_ ?_))
    · rintro (error | ⟨⟨⟩⟩) current last ⟨rfl, -, failed⟩
      · have readbacks := failed error rfl stored
        rw [named, newUsers_length] at readbacks
        refine Meets.bind ((meets_outcome _).mpr ((meets_restore _).mpr
          ⟨fun _ => Or.inl (Or.inr stored), ?_, ?_⟩))
        · rintro deletes -
          refine Meets.bind ((deleteEach_meets _).mono ?_ fun next deleted =>
            Or.inl (restored deleted.untouched))
          rintro _ next pattern ⟨rfl, deleted⟩
          exact ⟨Or.inl (restored deleted.untouched), (by rintro ⟨⟩)⟩
        · rintro after lost
          have outcome {next : Keyring} (deleted : Deleted service
              (newUsers user secret generation) after
              (Function.update keyring (service, user) (some encoded)) next) :
              Kept codec service user secret before next ∨
                RollbackLost (splitSecret secret).length pattern := by
            by_cases success : true ∈ after.take (splitSecret secret).length
            · exact Or.inr ⟨rest, after, set, lost ▸ readbacks, success⟩
            · rw [← newUsers_length user secret generation] at success
              rw [deleted.nothing success]
              exact Or.inl (Or.inr stored)
          refine Meets.bind ((deleteEach_meets _).mono ?_ fun next deleted => outcome deleted)
          rintro _ next pattern ⟨rfl, deleted⟩
          exact ⟨outcome deleted, (by rintro ⟨⟩)⟩
      · have good {next : Keyring} (untouched : Untouched service
            (namedUsers codec before service user)
            (Function.update keyring (service, user) (some encoded)) next) :
            storedAt codec next service user = .ok (some secret) :=
          (replaced untouched fresh.named).1
        refine (deletePrevious_meets (before (service, user)) rfl _ _).mono ?_ ?_
        · rintro result next pattern ⟨-, untouched⟩
          exact ⟨Or.inl (Or.inr (good untouched)), fun _ => good untouched⟩
        · exact fun next untouched => Or.inl (Or.inr (good untouched))
    · rintro next rfl
      exact Or.inl (Or.inr stored)
  · rintro rest -
    refine Meets.bind ((deleteEach_meets _).mono ?_ fun next deleted =>
      Or.inl (kept deleted.untouched))
    rintro _ next pattern ⟨rfl, deleted⟩
    exact ⟨Or.inl (kept deleted.untouched), (by rintro ⟨⟩)⟩

end Keyring

end ZenithRelay.Secrets
