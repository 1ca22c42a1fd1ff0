import ZenithRelay.Secrets.SecretStore

/-!
# What an operation leaves of a reference

A reference holds the value of the first location that has one. Loads move values
between the locations and keep what every reference holds; a save and a complete
delete set it; a delete that fails partway leaves what the remaining locations hold.
-/

set_option autoImplicit false

namespace ZenithRelay.Secrets

open Fallible

namespace SecretStore

def keyringHeld (store : SecretStore) (secretRef : String) : Option String :=
  store.hashed[secretRef]?.or store.legacy[secretRef]?

/-- The value of the first location that has one. -/
def held (store : SecretStore) (secretRef : String) : Option String :=
  if store.configured then store.vault[secretRef]?.or (store.keyringHeld secretRef)
  else store.keyringHeld secretRef

/-- The locations of the other references are as they were. -/
structure Elsewhere (secretRef : String) (store next : SecretStore) : Prop where
  configured : next.configured = store.configured
  vault : ∀ other, other ≠ secretRef → next.vault[other]? = store.vault[other]?
  hashed : ∀ other, other ≠ secretRef → next.hashed[other]? = store.hashed[other]?
  legacy : ∀ other, other ≠ secretRef → next.legacy[other]? = store.legacy[other]?

variable {store next : SecretStore} {secretRef : String} {pattern : List Bool}

namespace Elsewhere

theorem refl : Elsewhere secretRef store store := ⟨rfl, by simp, by simp, by simp⟩

theorem trans {middle : SecretStore} (first : Elsewhere secretRef store middle)
    (second : Elsewhere secretRef middle next) : Elsewhere secretRef store next where
  configured := second.configured.trans first.configured
  vault other apart := (second.vault other apart).trans (first.vault other apart)
  hashed other apart := (second.hashed other apart).trans (first.hashed other apart)
  legacy other apart := (second.legacy other apart).trans (first.legacy other apart)

theorem held_eq (elsewhere : Elsewhere secretRef store next) {other : String}
    (apart : other ≠ secretRef) : next.held other = store.held other := by
  rw [held, held, keyringHeld, keyringHeld, elsewhere.configured, elsewhere.vault other apart,
    elsewhere.hashed other apart, elsewhere.legacy other apart]

end Elsewhere

/-- Only the keyring entries of the reference may differ. -/
structure KeyringMoved (secretRef : String) (store next : SecretStore) : Prop
    extends Elsewhere secretRef store next where
  sameVault : next.vault = store.vault

theorem KeyringMoved.trans {middle : SecretStore} (first : KeyringMoved secretRef store middle)
    (second : KeyringMoved secretRef middle next) : KeyringMoved secretRef store next :=
  ⟨first.toElsewhere.trans second.toElsewhere, second.sameVault.trans first.sameVault⟩

theorem KeyringMoved.refl : KeyringMoved secretRef store store := ⟨Elsewhere.refl, rfl⟩

theorem hashed_insert_moved (secretValue : String) : KeyringMoved secretRef store
    { store with hashed := store.hashed.insert secretRef secretValue } where
  configured := rfl
  vault _ _ := rfl
  hashed other apart := by simp [Std.ExtTreeMap.getElem?_insert, Ne.symm apart]
  legacy _ _ := rfl
  sameVault := rfl

theorem hashed_erase_moved : KeyringMoved secretRef store
    { store with hashed := store.hashed.erase secretRef } where
  configured := rfl
  vault _ _ := rfl
  hashed other apart := by simp [Std.ExtTreeMap.getElem?_erase, Ne.symm apart]
  legacy _ _ := rfl
  sameVault := rfl

theorem legacy_erase_moved : KeyringMoved secretRef store
    { store with legacy := store.legacy.erase secretRef } where
  configured := rfl
  vault _ _ := rfl
  hashed _ _ := rfl
  legacy other apart := by simp [Std.ExtTreeMap.getElem?_erase, Ne.symm apart]
  sameVault := rfl

/-! ### What failures leave -/

/-- What a keyring delete leaves of the reference's entries: of the deletions of the hashed
and of the legacy entry, those that succeed remove their entry. -/
def keyringLeft (store : SecretStore) (secretRef : String) (deletions : List Bool) :
    Option String :=
  match deletions with
  | hashedGone :: legacyGone :: _ =>
    (if hashedGone then none else store.hashed[secretRef]?).or
      (if legacyGone then none else store.legacy[secretRef]?)
  | _ => store.keyringHeld secretRef

/-- What a delete leaves of the reference's entries. The keyring is not touched unless the
vault's entry is gone. -/
def leftByDelete (store : SecretStore) (secretRef : String) (pattern : List Bool) :
    Option String :=
  if isAsciiRef secretRef 128 = true then
    match store.configured, pattern with
    | true, true :: deletions => store.keyringLeft secretRef deletions
    | true, _ => store.held secretRef
    | false, deletions => store.keyringLeft secretRef deletions
  else store.held secretRef

/-- The vault was opened and the marker was looked for: a configuration that fails after
this has deleted the keyring entries of all references in the vault. -/
def reachesMigration : List Bool → Bool
  | true :: true :: _ => true
  | _ => false

/-! ### The keyring -/

theorem meets_validate {after : Except SecretStoreError Unit → SecretStore → List Bool → Prop}
    {stopped : SecretStore → Prop} :
    Meets (validateSecretRef secretRef) store pattern after stopped ↔
      if isAsciiRef secretRef 128 then after (.ok ()) store pattern
      else after (.error .unsupportedReference) store pattern := by
  rw [validateSecretRef]
  split <;> rfl

/-- A keyring load moves the value it returns and no other. -/
theorem loadKeyringSecret_meets :
    Meets (loadKeyringSecret secretRef) store pattern
      (fun result next _ => KeyringMoved secretRef store next ∧
        next.keyringHeld secretRef = store.keyringHeld secretRef ∧
        ∀ found, result = .ok found → found = store.keyringHeld secretRef)
      (fun next => KeyringMoved secretRef store next ∧
        next.keyringHeld secretRef = store.keyringHeld secretRef) := by
  rw [loadKeyringSecret, meets_bind, meets_validate]
  split
  next valid =>
    rw [meets_bind]
    refine Meets.fetch ⟨.refl, rfl⟩ (fun rest => ?_) fun rest => ⟨.refl, rfl, (by rintro _ ⟨⟩)⟩
    cases current : store.hashed[secretRef]? with
    | some value =>
      refine ⟨.refl, rfl, ?_⟩
      rintro _ ⟨⟩
      rw [keyringHeld, current, Option.some_or]
    | none =>
      simp only [meets_bind]
      refine Meets.fetch ⟨.refl, rfl⟩ (fun rest => ?_) fun rest => ⟨.refl, rfl, (by rintro _ ⟨⟩)⟩
      have atLegacy : store.keyringHeld secretRef = store.legacy[secretRef]? := by
        rw [keyringHeld, current, Option.none_or]
      cases old : store.legacy[secretRef]? with
      | none =>
        refine ⟨.refl, rfl, ?_⟩
        rintro _ ⟨⟩
        rw [atLegacy, old]
      | some value =>
        simp only [saveKeyringSecret, meets_bind, meets_validate, valid, if_true]
        have moved : KeyringMoved secretRef store
            { store with hashed := store.hashed.insert secretRef value } :=
          hashed_insert_moved value
        have same : keyringHeld { store with hashed := store.hashed.insert secretRef value }
            secretRef = store.keyringHeld secretRef := by
          rw [atLegacy, old]
          simp [keyringHeld]
        refine Meets.operate ⟨.refl, rfl⟩ (fun rest => ?_) fun rest => ⟨.refl, rfl, (by rintro _ ⟨⟩)⟩
        refine Meets.operate ⟨moved, same⟩ (fun rest => ?_) fun rest => ⟨moved, same, (by rintro _ ⟨⟩)⟩
        refine ⟨moved.trans legacy_erase_moved, ?_, ?_⟩
        · rw [atLegacy, old]
          simp [keyringHeld]
        · rintro _ ⟨⟩
          rw [atLegacy, old]
  next => exact ⟨.refl, rfl, (by rintro _ ⟨⟩)⟩

/-- A keyring delete removes the entries whose deletion succeeds, and tells whether both
did. -/
theorem deleteKeyringSecret_meets :
    Meets (deleteKeyringSecret secretRef) store pattern
      (fun result next _ => KeyringMoved secretRef store next ∧
        (result = .ok () → next.keyringHeld secretRef = none) ∧
        (isAsciiRef secretRef 128 = true →
          next.keyringHeld secretRef = store.keyringLeft secretRef pattern))
      (KeyringMoved secretRef store) := by
  have erased : keyringHeld { store with
      hashed := store.hashed.erase secretRef, legacy := store.legacy.erase secretRef }
      secretRef = none := by simp [keyringHeld]
  rw [deleteKeyringSecret, meets_bind, meets_validate]
  split
  next valid =>
    simp only [meets_bind, meets_outcome]
    refine (meets_operate _ _).mpr ⟨fun _ => .refl, ?_, ?_⟩
    · rintro deletions rfl
      refine (meets_operate _ _).mpr ⟨fun _ => hashed_erase_moved, ?_, ?_⟩
      · rintro rest rfl
        exact ⟨hashed_erase_moved.trans legacy_erase_moved, fun _ => erased, fun _ => erased⟩
      · rintro rest rfl
        refine ⟨hashed_erase_moved, (by rintro ⟨⟩), fun _ => ?_⟩
        simp [keyringHeld, keyringLeft]
    · rintro deletions rfl
      refine (meets_operate _ _).mpr ⟨fun _ => .refl, ?_, ?_⟩
      · rintro rest rfl
        refine ⟨legacy_erase_moved, (by rintro ⟨⟩), fun _ => ?_⟩
        simp [keyringHeld, keyringLeft]
      · rintro rest rfl
        exact ⟨.refl, (by rintro ⟨⟩), fun _ => rfl⟩
  next invalid => exact ⟨.refl, (by rintro ⟨⟩), fun valid => absurd valid invalid⟩

/-! ### The operations on a reference -/

/-- What a reference holds while the vault has an entry for it. -/
theorem held_of_vault {secretValue : String} (configured : store.configured = true)
    (entry : store.vault[secretRef]? = some secretValue) :
    store.held secretRef = some secretValue := by
  rw [held, if_pos configured, entry, Option.some_or]

theorem vault_insert_elsewhere (secretValue : String) : Elsewhere secretRef store
    { store with vault := store.vault.insert secretRef secretValue } where
  configured := rfl
  vault other apart := by simp [Std.ExtTreeMap.getElem?_insert, Ne.symm apart]
  hashed _ _ := rfl
  legacy _ _ := rfl

private theorem vault_erase_elsewhere : Elsewhere secretRef store
    { store with vault := store.vault.erase secretRef } where
  configured := rfl
  vault other apart := by simp [Std.ExtTreeMap.getElem?_erase, Ne.symm apart]
  hashed _ _ := rfl
  legacy _ _ := rfl

/-- A load keeps what the reference holds and returns it. -/
theorem load_meets :
    Meets (load secretRef) store pattern
      (fun result next _ => Elsewhere secretRef store next ∧
        next.held secretRef = store.held secretRef ∧
        ∀ found, result = .ok found → found = store.held secretRef)
      (fun next => Elsewhere secretRef store next ∧
        next.held secretRef = store.held secretRef) := by
  have kept {next : SecretStore} (moved : KeyringMoved secretRef store next)
      (same : next.keyringHeld secretRef = store.keyringHeld secretRef) :
      next.held secretRef = store.held secretRef := by
    rw [held, held, moved.configured, moved.sameVault, same]
  rw [load, meets_bind, meets_validate]
  split
  next =>
    simp only [meets_bind, meets_inspect]
    cases configured : store.configured with
    | false =>
      have direct : store.held secretRef = store.keyringHeld secretRef := by
        rw [held, configured, if_neg Bool.false_ne_true]
      refine loadKeyringSecret_meets.mono ?_ ?_
      · rintro result next - ⟨moved, same, answer⟩
        exact ⟨moved.toElsewhere, kept moved same, direct ▸ answer⟩
      · rintro next ⟨moved, same⟩
        exact ⟨moved.toElsewhere, kept moved same⟩
    | true =>
      simp only [if_true, meets_bind]
      refine Meets.fetch ⟨.refl, rfl⟩ (fun rest => ?_) fun rest => ⟨.refl, rfl, (by rintro _ ⟨⟩)⟩
      cases entry : store.vault[secretRef]? with
      | some value =>
        refine ⟨.refl, rfl, ?_⟩
        rintro _ ⟨⟩
        rw [held_of_vault configured entry]
      | none =>
        have below : store.held secretRef = store.keyringHeld secretRef := by
          rw [held, if_pos configured, entry, Option.none_or]
        simp only [meets_bind]
        refine loadKeyringSecret_meets.mono ?_ ?_
        · rintro (error | found) moved rest ⟨toMoved, same, answer⟩
          · exact ⟨toMoved.toElsewhere, kept toMoved same, (by rintro _ ⟨⟩)⟩
          obtain rfl := answer found rfl
          cases stored : store.keyringHeld secretRef with
          | none =>
            refine ⟨toMoved.toElsewhere, kept toMoved same, ?_⟩
            rintro _ ⟨⟩
            rw [below, stored]
          | some value =>
            simp only [meets_bind, meets_outcome]
            refine Meets.operate ⟨toMoved.toElsewhere, kept toMoved same⟩ (fun rest => ?_)
              fun rest => ⟨toMoved.toElsewhere, kept toMoved same, (by rintro _ ⟨⟩)⟩
            have inVault {next : SecretStore} (after : KeyringMoved secretRef
                { moved with vault := moved.vault.insert secretRef value } next) :
                Elsewhere secretRef store next ∧ next.held secretRef = store.held secretRef := by
              refine ⟨toMoved.toElsewhere.trans ((vault_insert_elsewhere value).trans
                after.toElsewhere), ?_⟩
              rw [below, stored]
              refine held_of_vault ?_ ?_
              · rw [after.configured]
                exact toMoved.configured.trans configured
              · rw [after.sameVault]
                simp
            refine deleteKeyringSecret_meets.mono ?_ fun next after => inVault after
            rintro result next - ⟨after, -⟩
            refine ⟨(inVault after).1, (inVault after).2, ?_⟩
            rintro _ ⟨⟩
            rw [below, stored]
        · rintro next ⟨toMoved, same⟩
          exact ⟨toMoved.toElsewhere, kept toMoved same⟩
  next => exact ⟨.refl, rfl, (by rintro _ ⟨⟩)⟩

/-- A presence check keeps what the reference holds and tells whether it holds a value. -/
theorem contains_meets :
    Meets (contains secretRef) store pattern
      (fun result next _ => Elsewhere secretRef store next ∧
        next.held secretRef = store.held secretRef ∧
        ∀ present, result = .ok present → present = (store.held secretRef).isSome)
      (fun next => Elsewhere secretRef store next ∧
        next.held secretRef = store.held secretRef) := by
  have kept {next : SecretStore} (moved : KeyringMoved secretRef store next)
      (same : next.keyringHeld secretRef = store.keyringHeld secretRef) :
      Elsewhere secretRef store next ∧ next.held secretRef = store.held secretRef := by
    refine ⟨moved.toElsewhere, ?_⟩
    rw [held, held, moved.configured, moved.sameVault, same]
  have below (hidden : store.configured = false ∨ store.vault[secretRef]? = none)
      (pattern : List Bool) :
      Meets (do pure (← loadKeyringSecret secretRef).isSome) store pattern
        (fun result next _ => Elsewhere secretRef store next ∧
          next.held secretRef = store.held secretRef ∧
          ∀ present, result = .ok present → present = (store.held secretRef).isSome)
        (fun next => Elsewhere secretRef store next ∧
          next.held secretRef = store.held secretRef) := by
    have direct : store.held secretRef = store.keyringHeld secretRef := by
      rw [held]
      rcases hidden with configured | entry
      · rw [configured, if_neg Bool.false_ne_true]
      · rw [entry, Option.none_or, ite_self]
    rw [meets_bind]
    refine loadKeyringSecret_meets.mono ?_ fun next ⟨moved, same⟩ => kept moved same
    rintro (error | found) next rest ⟨moved, same, answer⟩
    · exact ⟨(kept moved same).1, (kept moved same).2, (by rintro _ ⟨⟩)⟩
    · refine ⟨(kept moved same).1, (kept moved same).2, ?_⟩
      rintro _ ⟨⟩
      rw [direct, answer found rfl]
  rw [contains, meets_bind, meets_validate]
  split
  next =>
    rw [meets_bind, meets_inspect]
    cases configured : store.configured with
    | false => exact below (Or.inl configured) pattern
    | true =>
      simp only [if_true]
      rw [meets_bind]
      refine Meets.fetch ⟨.refl, rfl⟩ (fun rest => ?_) fun rest => ⟨.refl, rfl, (by rintro _ ⟨⟩)⟩
      cases entry : store.vault[secretRef]? with
      | some value =>
        refine ⟨.refl, rfl, ?_⟩
        rintro _ ⟨⟩
        rw [held_of_vault configured entry, Option.isSome_some]
      | none => exact below (Or.inr entry) rest
  next => exact ⟨.refl, rfl, (by rintro _ ⟨⟩)⟩

/-- A save sets what the reference holds, and keeps it when it fails. -/
theorem save_meets (secretValue : String) :
    Meets (save secretRef secretValue) store pattern
      (fun result next _ => Elsewhere secretRef store next ∧
        (result = .ok () → next.held secretRef = some secretValue) ∧
        ∀ error, result = .error error → next.held secretRef = store.held secretRef)
      (Elsewhere secretRef store) := by
  rw [save, meets_bind, meets_validate]
  split
  next valid =>
    by_cases empty : Text.trim secretValue = ""
    · rw [if_pos empty]
      exact ⟨.refl, (by rintro ⟨⟩), fun _ _ => rfl⟩
    · rw [if_neg empty]
      simp only [meets_bind, meets_inspect]
      cases configured : store.configured with
      | true =>
        simp only [if_true, meets_bind, meets_outcome]
        refine Meets.operate .refl (fun rest => ?_) fun rest => ⟨.refl, (by rintro ⟨⟩), fun _ _ => rfl⟩
        have inserted : Elsewhere secretRef store
            { store with vault := store.vault.insert secretRef secretValue } :=
          vault_insert_elsewhere secretValue
        refine deleteKeyringSecret_meets.mono ?_ fun next moved => inserted.trans moved.toElsewhere
        rintro result next - ⟨moved, -⟩
        have set : next.held secretRef = some secretValue := by
          refine held_of_vault (moved.configured.trans configured) ?_
          rw [moved.sameVault]
          simp
        have elsewhere := inserted.trans moved.toElsewhere
        exact ⟨⟨elsewhere.configured, elsewhere.vault, elsewhere.hashed, elsewhere.legacy⟩,
          fun _ => set, (by rintro _ ⟨⟩)⟩
      | false =>
        rw [if_neg Bool.false_ne_true]
        simp only [saveKeyringSecret, meets_bind, meets_validate, valid, if_true]
        have inserted : Elsewhere secretRef store
            { store with hashed := store.hashed.insert secretRef secretValue } :=
          (hashed_insert_moved secretValue).toElsewhere
        refine Meets.operate .refl (fun rest => ?_) fun rest => ⟨.refl, (by rintro ⟨⟩), fun _ _ => rfl⟩
        refine ⟨⟨rfl, inserted.vault, inserted.hashed, inserted.legacy⟩, fun _ => ?_, (by rintro _ ⟨⟩)⟩
        simp [held, keyringHeld, configured]
  next => exact ⟨.refl, (by rintro ⟨⟩), fun _ _ => rfl⟩

/-- A delete that succeeds leaves no copy; one that fails leaves the entries that it did
not come to delete. -/
theorem delete_meets :
    Meets (delete secretRef) store pattern
      (fun result next _ => Elsewhere secretRef store next ∧
        (result = .ok () → next.held secretRef = none) ∧
        next.held secretRef = store.leftByDelete secretRef pattern)
      (Elsewhere secretRef store) := by
  rw [delete, meets_bind, meets_validate]
  split
  next valid =>
    simp only [meets_bind, meets_inspect, leftByDelete, if_pos valid]
    cases configured : store.configured with
    | true =>
      simp only [if_true, meets_bind]
      refine (meets_operate _ _).mpr ⟨fun _ => .refl, ?_, ?_⟩
      · rintro deletions rfl
        have erased : Elsewhere secretRef store
            { store with vault := store.vault.erase secretRef } := vault_erase_elsewhere
        have bumped : Elsewhere secretRef store { store with
            vault := store.vault.erase secretRef, generation := store.generation + 1 } :=
          ⟨erased.configured, erased.vault, erased.hashed, erased.legacy⟩
        refine deleteKeyringSecret_meets.mono ?_ fun next moved => bumped.trans moved.toElsewhere
        rintro result next - ⟨moved, gone, left⟩
        have below : next.held secretRef = next.keyringHeld secretRef := by
          rw [held, moved.sameVault]
          simp
        exact ⟨bumped.trans moved.toElsewhere, fun ok => below.trans (gone ok),
          below.trans (left valid)⟩
      · rintro rest rfl
        exact ⟨.refl, (by rintro ⟨⟩), rfl⟩
    | false =>
      rw [if_neg Bool.false_ne_true, meets_bind]
      have direct {next : SecretStore} (moved : KeyringMoved secretRef store next) :
          next.held secretRef = next.keyringHeld secretRef := by
        rw [held, moved.configured, configured, if_neg Bool.false_ne_true]
      refine deleteKeyringSecret_meets.mono ?_ fun next moved => moved.toElsewhere
      rintro (error | ⟨⟨⟩⟩) next rest ⟨moved, gone, left⟩
      · exact ⟨moved.toElsewhere, (by rintro ⟨⟩), (direct moved).trans (left valid)⟩
      · exact ⟨⟨moved.configured, moved.vault, moved.hashed, moved.legacy⟩,
          fun _ => (direct moved).trans (gone rfl), (direct moved).trans (left valid)⟩
  next invalid =>
    refine ⟨.refl, (by rintro ⟨⟩), ?_⟩
    simp only [leftByDelete, if_neg invalid]

/-! ### Configuring the vault -/

/-- The vault and the keyring entries of references outside `secretRefs` are as they were. -/
structure KeyringCleaned (secretRefs : List String) (store next : SecretStore) : Prop where
  configured : next.configured = store.configured
  vault : next.vault = store.vault
  keyring : ∀ secretRef, secretRef ∉ secretRefs →
    next.hashed[secretRef]? = store.hashed[secretRef]? ∧
      next.legacy[secretRef]? = store.legacy[secretRef]?

theorem KeyringMoved.cleaned {secretRefs : List String} (moved : KeyringMoved secretRef store next)
    (member : secretRef ∈ secretRefs) : KeyringCleaned secretRefs store next where
  configured := moved.configured
  vault := moved.sameVault
  keyring other outside := by
    have apart : other ≠ secretRef := fun same => outside (same ▸ member)
    exact ⟨moved.hashed other apart, moved.legacy other apart⟩

theorem KeyringCleaned.refl {secretRefs : List String} : KeyringCleaned secretRefs store store :=
  ⟨rfl, rfl, fun _ _ => ⟨rfl, rfl⟩⟩

theorem KeyringCleaned.trans {middle : SecretStore} {secretRefs : List String}
    (first : KeyringCleaned secretRefs store middle)
    (second : KeyringCleaned secretRefs middle next) : KeyringCleaned secretRefs store next where
  configured := second.configured.trans first.configured
  vault := second.vault.trans first.vault
  keyring other outside :=
    ⟨(second.keyring other outside).1.trans (first.keyring other outside).1,
      (second.keyring other outside).2.trans (first.keyring other outside).2⟩

theorem KeyringCleaned.mono {fewer more : List String}
    (cleaned : KeyringCleaned fewer store next) (within : ∀ secretRef ∈ fewer, secretRef ∈ more) :
    KeyringCleaned more store next where
  configured := cleaned.configured
  vault := cleaned.vault
  keyring secretRef outside := cleaned.keyring secretRef fun member => outside (within _ member)

theorem KeyringCleaned.keyringHeld_eq {secretRefs : List String}
    (cleaned : KeyringCleaned secretRefs store next) (outside : secretRef ∉ secretRefs) :
    next.keyringHeld secretRef = store.keyringHeld secretRef := by
  obtain ⟨hashed, legacy⟩ := cleaned.keyring secretRef outside
  rw [keyringHeld, keyringHeld, hashed, legacy]

/-- Only entries of the references are deleted, and a complete cleanup leaves none. -/
private theorem deleteKeyringSecrets_meets (secretRefs : List String) :
    Meets (deleteKeyringSecrets secretRefs) store pattern
      (fun result next _ => KeyringCleaned secretRefs store next ∧
        ∃ complete, result = .ok complete ∧
          (complete = true → ∀ secretRef ∈ secretRefs, next.keyringHeld secretRef = none))
      (KeyringCleaned secretRefs store) := by
  induction secretRefs generalizing store pattern with
  | nil => exact ⟨.refl, true, rfl, by simp⟩
  | cons secretRef rest ih =>
    simp only [deleteKeyringSecrets, meets_bind, meets_outcome]
    refine deleteKeyringSecret_meets.mono ?_ fun next moved => moved.cleaned List.mem_cons_self
    rintro result middle pattern ⟨moved, gone, -⟩
    have first := moved.cleaned (List.mem_cons_self (l := rest))
    have both {next : SecretStore} (cleaned : KeyringCleaned rest middle next) :
        KeyringCleaned (secretRef :: rest) store next :=
      first.trans (cleaned.mono fun _ => List.mem_cons_of_mem _)
    refine ih.mono ?_ fun next cleaned => both cleaned
    rintro _ next - ⟨cleaned, complete, rfl, others⟩
    refine ⟨both cleaned, _, rfl, fun all => ?_⟩
    obtain ⟨deleted, complete⟩ := Bool.and_eq_true_iff.mp all
    rintro other (_ | ⟨_, member⟩)
    · by_cases again : secretRef ∈ rest
      · exact others complete secretRef again
      · rw [cleaned.keyringHeld_eq again]
        refine gone ?_
        cases result with
        | ok value => rfl
        | error error => cases deleted
    · exact others complete other member

/-- A configured vault shows the entries persisted in it above what was held before. A
configuration fails before it changes anything, or at the marker, when the keyring
entries of the vault's references are gone. -/
theorem initializeVault_meets :
    Meets initializeVault store pattern
      (fun result next _ =>
        (∀ done, result = .ok done → ∀ secretRef,
          next.held secretRef = store.vault[secretRef]?.or (store.held secretRef)) ∧
        ∀ error, result = .error error → ∀ secretRef,
          next.held secretRef =
            if reachesMigration pattern ∧ (store.vault[secretRef]?).isSome then none
            else store.held secretRef)
      (fun _ => True) := by
  rw [initializeVault, meets_bind, meets_inspect]
  cases configured : store.configured with
  | true =>
    refine ⟨fun _ _ secretRef => ?_, (by rintro _ ⟨⟩)⟩
    rw [held, if_pos configured, ← Option.or_assoc, Option.or_self]
  | false =>
    have direct (secretRef : String) : store.held secretRef = store.keyringHeld secretRef := by
      rw [held, configured, if_neg Bool.false_ne_true]
    have opened {next : SecretStore} (cleaned : KeyringCleaned store.vault.keys store next)
        (secretRef : String) : held { next with configured := true } secretRef =
          store.vault[secretRef]?.or (store.held secretRef) := by
      have shown : held { next with configured := true } secretRef =
          store.vault[secretRef]?.or (next.keyringHeld secretRef) := by
        rw [held, if_pos rfl, ← cleaned.vault]
        rfl
      rw [shown, direct]
      cases entry : store.vault[secretRef]? with
      | some value => rfl
      | none =>
        rw [cleaned.keyringHeld_eq (by simpa [Std.ExtTreeMap.mem_keys] using entry)]
    simp only [Bool.false_eq_true, if_false, meets_bind]
    refine (meets_fetch _ _).mpr ⟨fun _ => trivial, ?_, ?_⟩
    · rintro looked rfl
      simp only [migrateLegacyKeyringOnce, meets_bind]
      refine (meets_fetch _ _).mpr ⟨fun _ => trivial, ?_, ?_⟩
      · rintro deletions rfl
        cases migrated : store.migrated with
        | true => exact ⟨fun _ _ => opened .refl, (by rintro _ ⟨⟩)⟩
        | false =>
          simp only [Bool.false_eq_true, if_false, meets_bind, meets_outcome]
          refine Meets.fetch trivial (fun rest => ?_) fun rest =>
            ⟨fun _ _ => opened .refl, (by rintro _ ⟨⟩)⟩
          rw [meets_bind]
          refine (deleteKeyringSecrets_meets _).mono ?_ fun _ _ => trivial
          rintro _ next rest ⟨cleaned, complete, rfl, gone⟩
          cases complete with
          | false => exact ⟨fun _ _ => opened cleaned, (by rintro _ ⟨⟩)⟩
          | true =>
            refine Meets.operate trivial (fun rest => ⟨fun _ _ => opened ?_, (by rintro _ ⟨⟩)⟩)
              fun rest => ⟨(by rintro _ ⟨⟩), fun _ _ secretRef => ?_⟩
            · exact ⟨cleaned.configured, cleaned.vault, cleaned.keyring⟩
            · have off : next.held secretRef = next.keyringHeld secretRef := by
                rw [held, cleaned.configured, configured, if_neg Bool.false_ne_true]
              rw [off, direct]
              split
              next inVault =>
                refine gone rfl secretRef ?_
                simpa [Std.ExtTreeMap.mem_keys] using inVault.2
              next outside =>
                refine cleaned.keyringHeld_eq fun member => outside ⟨rfl, ?_⟩
                simpa [Std.ExtTreeMap.mem_keys] using member
      · rintro rest rfl
        exact ⟨(by rintro _ ⟨⟩), fun _ _ secretRef => rfl⟩
    · rintro rest rfl
      exact ⟨(by rintro _ ⟨⟩), fun _ _ secretRef => rfl⟩

end SecretStore

end ZenithRelay.Secrets
