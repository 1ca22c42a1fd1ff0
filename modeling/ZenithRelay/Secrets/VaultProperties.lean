import ZenithRelay.Secrets.Vault

/-!
# What a reopened vault holds

Reopening reads the file or, without it, the backup. A replacement keeps what would be
read until it publishes the new file, unless it starts from a backup without its file:
there it removes the only copy first.
-/

set_option autoImplicit false

namespace ZenithRelay.Secrets

open Fallible

variable {codec : VaultCodec}

/-! ### The file format -/

private theorem decryptBytes_encryptData (lawful : codec.Lawful) {nonce : Nonce} {data : VaultData}
    {bytes : Bytes} (encrypted : encryptData codec nonce data = .ok bytes) :
    decryptBytes codec bytes = .ok data := by
  rw [encryptData] at encrypted
  cases json : codec.toJson data with
  | none => simp [json] at encrypted
  | some plaintext =>
    simp only [json] at encrypted
    split at encrypted
    next => cases encrypted
    next fits =>
      cases sealed : codec.encrypt nonce plaintext with
      | none => simp [sealed] at encrypted
      | some ciphertext =>
        simp only [sealed, Except.ok.injEq] at encrypted
        subst encrypted
        obtain ⟨decrypted, length⟩ := lawful.decrypt_encrypt nonce plaintext ciphertext sealed
        have magic : vaultMagic.length = 4 := rfl
        have rest : (vaultMagic ++ nonce.toList ++ ciphertext).drop vaultMagic.length =
            nonce.toList ++ ciphertext := by
          rw [List.append_assoc, List.drop_left]
        have whole : (vaultMagic ++ nonce.toList ++ ciphertext).drop
            (vaultMagic.length + nonceBytes) = ciphertext := by
          rw [← List.drop_drop, rest]
          exact List.drop_left' nonce.length_toList
        have written : (nonce.toList ++ ciphertext).take nonceBytes = nonce.toList :=
          List.take_left' nonce.length_toList
        have total : (vaultMagic ++ nonce.toList ++ ciphertext).length =
            vaultMagic.length + nonceBytes + ciphertext.length := by
          rw [List.length_append, List.length_append, nonce.length_toList]
        have bounded : ¬maxVaultBytes < vaultMagic.length + nonceBytes + ciphertext.length := by
          simp only [maxVaultBytes, nonceBytes, tagBytes, magic] at fits length ⊢
          omega
        have nonempty : ¬vaultMagic.length + nonceBytes + ciphertext.length ≤
            vaultMagic.length + nonceBytes := by
          simp only [tagBytes] at length
          omega
        have header : (vaultMagic ++ nonce.toList ++ ciphertext).take vaultMagic.length =
            vaultMagic := by
          rw [List.append_assoc, List.take_left]
        have same : (⟨nonce.toList.toArray, by simp⟩ : Nonce) = nonce := by
          simp [Vector.toList]
        have headed : ¬((vaultMagic.length + nonceBytes + ciphertext.length ≤
            vaultMagic.length + nonceBytes) ∨ vaultMagic ≠ vaultMagic) := by
          simp only [ne_eq, not_true_eq_false, or_false]
          exact nonempty
        rw [decryptBytes, total, header, if_neg bounded, if_neg headed]
        simp [written, decrypted, lawful.fromJson_toJson data plaintext json, same]

/-! ### Valid data -/

/-- What `validateData` accepts. -/
structure ValidData (codec : VaultCodec) (data : VaultData) : Prop where
  key : ∀ record, data.agentMessageKey = some record → ∃ key, record.decode codec = .ok key
  size : data.secretsByRef.size ≤ maxSecretRefs
  secrets : ∀ secretRef secretValue : String, data.secretsByRef[secretRef]? = some secretValue →
    isAsciiRef secretRef 128 = true ∧ validValue secretValue = true

private theorem forM_ok_iff {Item : Type} (items : List Item) (check : Item → Except String Unit) :
    items.forM check = .ok () ↔ ∀ item ∈ items, check item = .ok () := by
  induction items with
  | nil => exact iff_of_true rfl (by simp)
  | cons item rest ih =>
    have unfolded : (item :: rest).forM check = check item >>= fun _ => rest.forM check := rfl
    rw [unfolded, List.forall_mem_cons, ← ih]
    cases check item with
    | error error => simp [bind, Except.bind]
    | ok value => simp [bind, Except.bind]

theorem validateData_iff (data : VaultData) :
    validateData codec data = .ok () ↔ ValidData codec data := by
  have entry (secretRef secretValue : String) : (do
        validateRef secretRef
        if !validValue secretValue then throw "secret vault contains an invalid value") =
        Except.ok () ↔ isAsciiRef secretRef 128 = true ∧ validValue secretValue = true := by
    cases ref : isAsciiRef secretRef 128 <;> cases value : validValue secretValue <;>
      simp [validateRef, ref, bind, Except.bind, pure, Except.pure, throw, throwThe,
        MonadExceptOf.throw]
  have whole : ValidData codec data ↔
      (∀ record, data.agentMessageKey = some record → ∃ key, record.decode codec = .ok key) ∧
      data.secretsByRef.size ≤ maxSecretRefs ∧
      ∀ secretRef secretValue : String, data.secretsByRef[secretRef]? = some secretValue →
        isAsciiRef secretRef 128 = true ∧ validValue secretValue = true :=
    ⟨fun valid => ⟨valid.key, valid.size, valid.secrets⟩,
      fun parts => ⟨parts.1, parts.2.1, parts.2.2⟩⟩
  rw [whole, validateData]
  generalize shape : (data.secretsByRef.toList.forM _ : Except String Unit) = checked
  have entries : checked = .ok () ↔
      ∀ secretRef secretValue : String, data.secretsByRef[secretRef]? = some secretValue →
        isAsciiRef secretRef 128 = true ∧ validValue secretValue = true := by
    rw [← shape, forM_ok_iff]
    constructor
    · intro all secretRef secretValue found
      exact (entry secretRef secretValue).mp (all _ (BTreeMap.mem_toList_iff.mpr found))
    · rintro all ⟨secretRef, secretValue⟩ member
      exact (entry secretRef secretValue).mpr
        (all secretRef secretValue (BTreeMap.mem_toList_iff.mp member))
  rw [← entries]
  have sized : data.secretsByRef.size > maxSecretRefs ↔ ¬data.secretsByRef.size ≤ maxSecretRefs := by
    omega
  cases kept : data.agentMessageKey with
  | none =>
    by_cases fits : data.secretsByRef.size ≤ maxSecretRefs <;>
      simp [sized, fits, bind, Except.bind, throw, throwThe, MonadExceptOf.throw]
  | some record =>
    cases decoded : record.decode codec <;>
      by_cases fits : data.secretsByRef.size ≤ maxSecretRefs <;>
        simp [decoded, sized, fits, bind, Except.bind, throw, throwThe, MonadExceptOf.throw]

namespace Vault

variable {vault next : Vault} {pattern : List Bool}

/-! ### The replacement -/

/-- The file that reopening reads. -/
def kept (vault : Vault) : Option Bytes := vault.path.or vault.backup

/-- A replacement that starts from a backup without its file does not remove the backup
unless it publishes the new file with the next operation. -/
def KeepsBackup (vault : Vault) (pattern : List Bool) : Prop :=
  vault.path = none → vault.backup.isSome →
    pattern.take 4 = [true, true, true, true] → pattern[4]? = some true

theorem meets_fileOperation {change : Vault → Vault}
    {after : Except String Unit → Vault → List Bool → Prop} {stopped : Vault → Prop} :
    Meets (fileOperation change) vault pattern after stopped ↔
      (pattern = [] → stopped vault) ∧
      (∀ rest, pattern = true :: rest → after (.ok ()) (change vault) rest) ∧
      ∀ rest, pattern = false :: rest → after (.error ioError) vault rest :=
  meets_operate change ioError

/-- The last part of a replacement: the new file is in place or the backup is kept. -/
theorem publish_meets {bytes : Bytes} (written : vault.temporary = some bytes)
    (away : vault.path = none) :
    Meets publish vault pattern
      (fun result next _ => next.data = vault.data ∧
        (result = .ok () → next.path = some bytes) ∧
        ∀ error, result = .error error → next.kept = vault.backup)
      (fun next => next.kept = vault.backup ∨ next.kept = some bytes) := by
  have same : vault.kept = vault.backup := by rw [kept, away, Option.none_or]
  rw [publish]
  simp only [meets_bind, meets_outcome]
  refine Meets.operate (Or.inl same) (fun rest => ?_) fun rest => ?_
  · simp only [meets_bind, meets_outcome]
    refine Meets.operate (Or.inr ?_) (fun rest => ?_) fun rest => ?_
    · rw [kept, written, Option.some_or]
    · exact ⟨rfl, fun _ => written, (by rintro _ ⟨⟩)⟩
    · exact ⟨rfl, fun _ => written, (by rintro _ ⟨⟩)⟩
  · simp only [meets_bind, meets_inspect]
    split
    next present =>
      simp only [meets_bind, meets_outcome]
      refine Meets.operate (Or.inl same) (fun rest => ?_) fun rest => ?_
      · refine ⟨rfl, (by rintro ⟨⟩), fun _ _ => ?_⟩
        rw [kept, Option.or_none]
      · exact ⟨rfl, (by rintro ⟨⟩), fun _ _ => same⟩
    next => exact ⟨rfl, (by rintro ⟨⟩), fun _ _ => same⟩

/-- A rename that succeeds publishes the new file for good. -/
private theorem publish_succeeds {bytes : Bytes} (written : vault.temporary = some bytes)
    (rest : List Bool) :
    Meets publish vault (true :: rest)
      (fun result next _ => next.data = vault.data ∧ result = .ok () ∧ next.path = some bytes)
      (fun next => next.kept = some bytes) := by
  refine Meets.bind ((meets_outcome _).mpr (meets_fileOperation.mpr ⟨(by rintro ⟨⟩), ?_, (by rintro _ ⟨⟩)⟩))
  rintro rest -
  refine Meets.bind ((meets_outcome _).mpr (meets_fileOperation.mpr
    ⟨fun _ => ?_, fun rest _ => ⟨rfl, rfl, written⟩, fun rest _ => ⟨rfl, rfl, written⟩⟩))
  rw [kept, written, Option.some_or]

theorem removeBackup_meets {after : Except String Unit → Vault → List Bool → Prop}
    {stopped : Vault → Prop} :
    Meets removeBackup vault pattern after stopped ↔
      if vault.backup.isSome then
        (pattern = [] → stopped vault) ∧
        (∀ rest, pattern = true :: rest → after (.ok ()) { vault with backup := none } rest) ∧
        ∀ rest, pattern = false :: rest → after (.error ioError) vault rest
      else after (.ok ()) vault pattern := by
  simp only [removeBackup, meets_bind, meets_inspect]
  split
  next => exact meets_fileOperation
  next => rfl

theorem moveToBackup_meets {after : Except String Unit → Vault → List Bool → Prop}
    {stopped : Vault → Prop} :
    Meets moveToBackup vault pattern after stopped ↔
      if vault.path.isSome then
        (pattern = [] → stopped vault) ∧
        (∀ rest, pattern = true :: rest →
          after (.ok ()) { vault with path := none, backup := vault.path } rest) ∧
        ∀ rest, pattern = false :: rest → after (.error ioError) vault rest
      else after (.ok ()) vault pattern := by
  simp only [moveToBackup, meets_bind, meets_inspect]
  split
  next => exact meets_fileOperation
  next => rfl

/-- What a replacement of the file by `bytes` leaves when it ends. -/
def Replaced (vault : Vault) (bytes : Bytes) (result : Except String Unit) (next : Vault) : Prop :=
  next.data = vault.data ∧ (result = .ok () → next.path = some bytes) ∧
    ∀ error, result = .error error → next.kept = vault.kept

theorem Replaced.unchanged {bytes : Bytes} (same : next.kept = vault.kept)
    (data : next.data = vault.data) (error : String) : vault.Replaced bytes (.error error) next :=
  ⟨data, (by rintro ⟨⟩), fun _ _ => same⟩

/-- From an existing file: it is moved away only once the backup is gone. -/
theorem swap_meets {path bytes : Bytes} (present : vault.path = some path)
    (written : vault.temporary = some bytes) :
    Meets (do moveToBackup; publish) vault pattern
      (fun result next _ => vault.Replaced bytes result next)
      (fun next => next.kept = vault.kept ∨ next.kept = some bytes) := by
  refine Meets.bind (moveToBackup_meets.mpr ?_)
  rw [present, Option.isSome_some, if_pos rfl]
  refine ⟨fun _ => Or.inl rfl, fun rest _ => ?_, fun rest _ => .unchanged rfl rfl _⟩
  have same : vault.kept = some path := by rw [kept, present, Option.some_or]
  refine Meets.mono (publish_meets written ?_) ?_ ?_
  · rfl
  · rintro result next - ⟨data, published, rolledBack⟩
    exact ⟨data, published, fun error failed => (rolledBack error failed).trans same.symm⟩
  · rintro next (backup | published)
    · exact Or.inl (backup.trans same.symm)
    · exact Or.inr published

/-- A replacement keeps what reopening reads until it publishes the new file. -/
private theorem replaceFile_meets (bytes : Bytes) (keeps : vault.KeepsBackup pattern) :
    Meets (replaceFile bytes) vault pattern
      (fun result next _ => vault.Replaced bytes result next)
      (fun next => next.kept = vault.kept ∨ next.kept = some bytes) := by
  rw [replaceFile]
  refine Meets.bind (meets_fileOperation.mpr
    ⟨fun _ => Or.inl rfl, fun rest created => ?_, fun rest _ => .unchanged rfl rfl _⟩)
  refine Meets.bind (meets_fileOperation.mpr
    ⟨fun _ => Or.inl rfl, fun rest written => ?_, fun rest _ => .unchanged rfl rfl _⟩)
  refine Meets.bind (meets_fileOperation.mpr
    ⟨fun _ => Or.inl rfl, fun rest synced => ?_, fun rest _ => .unchanged rfl rfl _⟩)
  refine Meets.bind (removeBackup_meets.mpr ?_)
  obtain ⟨path, backup, temporary, data⟩ := vault
  cases path with
  | some path =>
    cases backup with
    | none => exact swap_meets rfl rfl
    | some backup =>
      refine ⟨fun _ => Or.inl rfl, fun rest _ => ?_, fun rest _ => .unchanged rfl rfl _⟩
      exact swap_meets rfl rfl
  | none =>
    cases backup with
    | none =>
      refine Meets.bind (moveToBackup_meets.mpr ?_)
      exact publish_meets rfl rfl
    | some backup =>
      refine ⟨fun _ => Or.inl rfl, fun rest removed => ?_, fun rest _ => .unchanged rfl rfl _⟩
      -- the only copy is gone: the pattern says that the new file is published next
      obtain ⟨last, rfl⟩ : ∃ last, rest = true :: last := by
        have whole : pattern = true :: true :: true :: true :: rest := by
          rw [created, written, synced, removed]
        have next := keeps rfl rfl (by rw [whole]; rfl)
        rw [whole] at next
        cases rest with
        | nil => cases next
        | cons success last =>
          obtain rfl : success = true := by simpa using next
          exact ⟨last, rfl⟩
      refine Meets.bind (moveToBackup_meets.mpr ?_)
      refine Meets.mono (publish_succeeds rfl last) ?_ fun next published => Or.inr published
      rintro result next - ⟨data, rfl, published⟩
      exact ⟨data, fun _ => published, (by rintro _ ⟨⟩)⟩

private theorem atomicReplace_meets (bytes : Bytes) (keeps : vault.KeepsBackup pattern) :
    Meets (atomicReplace bytes) vault pattern
      (fun result next _ => vault.Replaced bytes result next)
      (fun next => next.kept = vault.kept ∨ next.kept = some bytes) := by
  refine Meets.bind ((meets_outcome _).mpr ((replaceFile_meets bytes keeps).mono ?_ ?_))
  · rintro (error | ⟨⟨⟩⟩) next rest replaced
    · have same := replaced.2.2 error rfl
      refine Meets.bind ((meets_outcome _).mpr (meets_fileOperation.mpr ?_))
      exact ⟨fun _ => Or.inl same, fun _ _ => .unchanged same replaced.1 _,
        fun _ _ => .unchanged same replaced.1 _⟩
    · exact replaced
  · exact fun next stops => stops

/-! ### What reopening reads -/

/-- The data of a file, checked as opening checks it. -/
def readData (codec : VaultCodec) (file : Option Bytes) : Except String VaultData := do
  let data ←
    match file with
    | some bytes => decryptBytes codec bytes
    | none => pure .empty
  validateData codec data
  pure data

/-- What opening the vault would read. -/
def reopened (codec : VaultCodec) (vault : Vault) : Except String VaultData :=
  readData codec vault.kept

theorem readData_some_iff {bytes : Bytes} {data : VaultData} :
    readData codec (some bytes) = .ok data ↔
      decryptBytes codec bytes = .ok data ∧ validateData codec data = .ok () := by
  cases decrypted : decryptBytes codec bytes with
  | error error => simp [readData, decrypted, bind, Except.bind]
  | ok stored =>
    cases checked : validateData codec stored with
    | error error =>
      refine iff_of_false (by simp [readData, decrypted, checked, bind, Except.bind]) ?_
      rintro ⟨⟨⟩, valid⟩
      rw [checked] at valid
      cases valid
    | ok value =>
      have read : readData codec (some bytes) = .ok stored := by
        simp [readData, decrypted, checked, bind, Except.bind, pure, Except.pure]
      rw [read]
      refine ⟨fun same => ?_, fun same => same.1⟩
      cases same
      exact ⟨rfl, checked⟩

theorem readData_none_iff {data : VaultData} :
    readData codec none = .ok data ↔
      validateData codec .empty = .ok () ∧ VaultData.empty = data := by
  cases checked : validateData codec .empty with
  | error error => simp [readData, checked, bind, Except.bind, pure, Except.pure]
  | ok value => simp [readData, checked, bind, Except.bind, pure, Except.pure]

theorem readData_encryptData (lawful : codec.Lawful) {nonce : Nonce} {data : VaultData}
    {bytes : Bytes} (encrypted : encryptData codec nonce data = .ok bytes)
    (valid : ValidData codec data) : readData codec (some bytes) = .ok data :=
  readData_some_iff.mpr ⟨decryptBytes_encryptData lawful encrypted, (validateData_iff data).mpr valid⟩

/-- A write of `data`: it is what reopening reads afterwards, or nothing changed. -/
private theorem persist_meets (lawful : codec.Lawful) {nonce : Nonce} {data : VaultData}
    (valid : ValidData codec data)
    (keeps : ∀ bytes, encryptData codec nonce data = .ok bytes → vault.KeepsBackup pattern) :
    Meets (persist codec nonce data) vault pattern
      (fun result next _ => next.data = vault.data ∧
        (result = .ok () → next.reopened codec = .ok data) ∧
        ∀ error, result = .error error → next.reopened codec = vault.reopened codec)
      (fun next => next.reopened codec = vault.reopened codec ∨ next.reopened codec = .ok data) := by
  cases encrypted : encryptData codec nonce data with
  | error error =>
    rw [persist, encrypted]
    exact ⟨rfl, (by rintro ⟨⟩), fun _ _ => rfl⟩
  | ok bytes =>
    have published {next : Vault} (path : next.kept = some bytes) :
        next.reopened codec = .ok data := by
      rw [reopened, path, readData_encryptData lawful encrypted valid]
    have same {next : Vault} (kept : next.kept = vault.kept) :
        next.reopened codec = vault.reopened codec := by rw [reopened, reopened, kept]
    rw [persist, encrypted]
    refine Meets.bind ((atomicReplace_meets bytes (keeps bytes encrypted)).mono ?_ ?_)
    · rintro result next - ⟨unchanged, path, failed⟩
      refine ⟨unchanged, fun ok => published ?_, fun error given => same (failed error given)⟩
      rw [kept, path ok, Option.some_or]
    · rintro next (before | after)
      · exact Or.inl (same before)
      · exact Or.inr (published after)

/-! ### The operations -/

inductive Request where
  /-- Opening the vault in a new process. -/
  | reopen
  | save (nonce : Nonce) (secretRef secretValue : String)
  | delete (nonce : Nonce) (secretRef : String)
  | agentMessageKey (nonce : Nonce) (fresh : AgentMessageKey)

inductive Reply where
  | done
  | deleted (found : Bool)
  | key (key : AgentMessageKey)

def serve (codec : VaultCodec) : Request → Operation Reply
  | .reopen => do
    modify fun vault => { vault with data := none }
    openVault codec
    pure .done
  | .save nonce secretRef secretValue => do
    save codec nonce secretRef secretValue
    pure .done
  | .delete nonce secretRef => do pure (.deleted (← delete codec nonce secretRef))
  | .agentMessageKey nonce fresh => do pure (.key (← agentMessageKey codec nonce fresh))

/-- The data that a request writes, and the nonce it writes them with. -/
def Request.written (codec : VaultCodec) (data : VaultData) : Request → Option (Nonce × VaultData)
  | .reopen => none
  | .save nonce secretRef secretValue =>
    if isAsciiRef secretRef 128 && validValue secretValue &&
        !((data.secretsByRef[secretRef]?).isNone && data.secretsByRef.size ≥ maxSecretRefs) then
      some (nonce, { data with secretsByRef := data.secretsByRef.insert secretRef secretValue })
    else none
  | .delete nonce secretRef =>
    if isAsciiRef secretRef 128 && (data.secretsByRef[secretRef]?).isSome then
      some (nonce, { data with secretsByRef := data.secretsByRef.erase secretRef })
    else none
  | .agentMessageKey nonce fresh =>
    if data.agentMessageKey.isNone then
      some (nonce, { data with agentMessageKey := some ⟨1, codec.encodeKey fresh⟩ })
    else none

/-- The contents after a request that succeeds. -/
def Request.contents (codec : VaultCodec) (data : VaultData) (request : Request) : VaultData :=
  ((request.written codec data).map (·.2)).getD data

theorem insert_previous {Key Value : Type} [Ord Key] [Std.TransOrd Key] [Std.LawfulEqOrd Key]
    {map : BTreeMap Key Value} {key : Key} {previous : Value} (found : map[key]? = some previous)
    (changed : BTreeMap Key Value)
    (elsewhere : ∀ other, other ≠ key → changed[other]? = map[other]?) :
    changed.insert key previous = map := by
  apply Std.ExtTreeMap.ext_getElem?
  intro other
  by_cases same : other = key
  · rw [same, found]
    simp
  · rw [Std.ExtTreeMap.getElem?_insert, if_neg (by simpa using Ne.symm same), elsewhere other same]

private theorem erase_inserted {Key Value : Type} [Ord Key] [Std.TransOrd Key] [Std.LawfulEqOrd Key]
    {map : BTreeMap Key Value} {key : Key} (absent : map[key]? = none) (value : Value) :
    (map.insert key value).erase key = map := by
  apply Std.ExtTreeMap.ext_getElem?
  intro other
  by_cases same : other = key
  · rw [same, absent]
    simp
  · simp [Std.ExtTreeMap.getElem?_erase, Std.ExtTreeMap.getElem?_insert, Ne.symm same]

theorem decode_encodeKey (lawful : codec.Lawful) (key : AgentMessageKey) :
    (⟨1, codec.encodeKey key⟩ : AgentMessageKeyRecord).decode codec = .ok key := by
  simp [AgentMessageKeyRecord.decode, lawful.decodeKey_encodeKey, Vector.toList]

/-- What a request writes is valid again. -/
theorem written_valid (lawful : codec.Lawful) {data new : VaultData} {nonce : Nonce}
    (valid : ValidData codec data) {request : Request}
    (written : request.written codec data = some (nonce, new)) : ValidData codec new := by
  cases request with
  | reopen => cases written
  | save own secretRef secretValue =>
    obtain ⟨allowed, same⟩ := Option.ite_none_right_eq_some.mp written
    cases same
    simp only [Bool.and_eq_true, Bool.not_eq_true', Bool.and_eq_false_iff] at allowed
    obtain ⟨⟨ref, value⟩, room⟩ := allowed
    refine ⟨valid.key, ?_, fun other stored found => ?_⟩
    · have size := valid.size
      rw [Std.ExtTreeMap.size_insert]
      split
      next => exact size
      next absent =>
        rcases room with present | room
        · rw [Option.isNone_eq_false_iff, ← Std.ExtTreeMap.mem_iff_isSome_getElem?] at present
          exact absurd present absent
        · have fits : ¬data.secretsByRef.size ≥ maxSecretRefs := of_decide_eq_false room
          omega
    · rw [Std.ExtTreeMap.getElem?_insert] at found
      split at found
      next same =>
        cases found
        obtain rfl : secretRef = other := by simpa using same
        exact ⟨ref, value⟩
      next => exact valid.secrets other stored found
  | delete own secretRef =>
    obtain ⟨allowed, same⟩ := Option.ite_none_right_eq_some.mp written
    cases same
    refine ⟨valid.key, ?_, fun other stored found => ?_⟩
    · exact Nat.le_trans (Std.ExtTreeMap.size_erase_le) valid.size
    · rw [Std.ExtTreeMap.getElem?_erase] at found
      split at found
      next => cases found
      next => exact valid.secrets other stored found
  | agentMessageKey own fresh =>
    obtain ⟨allowed, same⟩ := Option.ite_none_right_eq_some.mp written
    cases same
    refine ⟨fun record kept => ?_, valid.size, valid.secrets⟩
    cases kept
    exact ⟨fresh, decode_encodeKey lawful fresh⟩

/-- Reopening reads `data`, and an open vault has them in memory. -/
structure Holds (codec : VaultCodec) (vault : Vault) (data : VaultData) : Prop where
  reopened : vault.reopened codec = .ok data
  memory : ∀ held, vault.data = some held → held = data

theorem Holds.valid {data : VaultData} (holds : vault.Holds codec data) : ValidData codec data := by
  have read := holds.reopened
  rw [Vault.reopened] at read
  rw [← validateData_iff]
  cases file : vault.kept with
  | none =>
    rw [file, readData_none_iff] at read
    exact read.2 ▸ read.1
  | some bytes =>
    rw [file, readData_some_iff] at read
    exact read.2

/-- How a request ends: with its contents when it succeeds, with those before when it fails. -/
def Settles (codec : VaultCodec) (vault : Vault) (data : VaultData) (request : Request)
    (result : Except String Reply) (next : Vault) : Prop :=
  match result with
  | .ok reply => next.Holds codec (request.contents codec data) ∧
      ∀ key, reply = .key key → ∃ record,
        (request.contents codec data).agentMessageKey = some record ∧ record.decode codec = .ok key
  | .error _ => next.Holds codec data ∧ (request = .reopen ∨ next.data = vault.data)

/-- A request that writes does not remove the only copy unless it publishes the new file. -/
def KeepsCopy (codec : VaultCodec) (vault : Vault) (request : Request) (pattern : List Bool) : Prop :=
  ∀ data nonce new bytes, vault.data = some data → request.written codec data = some (nonce, new) →
    encryptData codec nonce new = .ok bytes → vault.KeepsBackup pattern

@[simp] theorem meets_liftResult {Result : Type} (result : Except String Result)
    {after : Except String Result → Vault → List Bool → Prop} {stopped : Vault → Prop} :
    Meets (liftResult result) vault pattern after stopped ↔ after result vault pattern := by
  cases result <;> rfl

theorem meets_lock {data : VaultData} (opened : vault.data = some data)
    {after : Except String VaultData → Vault → List Bool → Prop} {stopped : Vault → Prop} :
    Meets lock vault pattern after stopped ↔ after (.ok data) vault pattern := by
  simp only [lock, meets_bind, meets_inspect, opened]
  rfl

theorem meets_lock_closed (closed : vault.data = none)
    {after : Except String VaultData → Vault → List Bool → Prop} {stopped : Vault → Prop} :
    Meets lock vault pattern after stopped ↔
      after (.error "secret vault lock is unavailable") vault pattern := by
  simp only [lock, meets_bind, meets_inspect, closed]
  rfl

/-- A write behind a change of memory that is taken back when the write fails. -/
theorem write_meets {Result : Type} (lawful : codec.Lawful) {data new : VaultData} {nonce : Nonce}
    (holds : vault.Holds codec data) (opened : vault.data = some data)
    (valid : ValidData codec new)
    (keeps : ∀ bytes, encryptData codec nonce new = .ok bytes → vault.KeepsBackup pattern)
    {undo : Operation Unit} {reply : Result}
    (undone : ∀ next pattern, next.data = some new → ∀ stopped : Vault → Prop,
      Meets undo next pattern (fun result final _ => result = .ok () ∧
        final = { next with data := some data }) stopped) :
    Meets (do
      setData new
      match ← outcome (persist codec nonce new) with
      | .error error =>
        undo
        throw error
      | .ok () => pure reply) vault pattern
      (fun result next _ => match result with
        | .ok given => next.Holds codec new ∧ given = reply
        | .error _ => next.Holds codec data ∧ next.data = vault.data)
      (fun next => next.reopened codec = .ok data ∨ next.reopened codec = .ok new) := by
  refine Meets.bind ((meets_modify _).mpr ?_)
  refine Meets.bind ((meets_outcome _).mpr (Meets.mono (persist_meets lawful valid ?_) ?_ ?_))
  · exact keeps
  · rintro (error | ⟨⟨⟩⟩) next rest ⟨memory, written, failed⟩
    · refine Meets.bind ((undone next rest memory _).mono ?_ fun _ stops => stops)
      rintro result final - ⟨rfl, rfl⟩
      refine ⟨⟨?_, ?_⟩, opened.symm⟩
      · exact (failed error rfl).trans holds.reopened
      · rintro _ ⟨⟩
        rfl
    · refine ⟨⟨written rfl, fun held given => ?_⟩, rfl⟩
      rw [memory] at given
      exact (Option.some.inj given).symm
  · rintro next (before | after)
    · exact Or.inl (before.trans holds.reopened)
    · exact Or.inr after

variable {data : VaultData}

/-- A request that is refused before it writes. -/
theorem Holds.refused (holds : vault.Holds codec data) {request : Request} (error : String) :
    Settles codec vault data request (.error error) vault := ⟨holds, Or.inr rfl⟩

private theorem save_settles (lawful : codec.Lawful) (holds : vault.Holds codec data) {nonce : Nonce}
    {secretRef secretValue : String}
    (keeps : vault.KeepsCopy codec (.save nonce secretRef secretValue) pattern) :
    Meets (serve codec (.save nonce secretRef secretValue)) vault pattern
      (fun result next _ => Settles codec vault data (.save nonce secretRef secretValue) result next)
      (fun next => next.reopened codec = .ok data ∨
        next.reopened codec =
          .ok ((Request.save nonce secretRef secretValue).contents codec data)) := by
  rw [serve, save]
  refine Meets.bind (Meets.bind ((meets_liftResult _).mpr ?_))
  cases ref : isAsciiRef secretRef 128 with
  | false =>
    rw [validateRef, ref, if_neg Bool.false_ne_true]
    exact holds.refused _
  | true =>
    rw [validateRef, ref, if_pos rfl]
    cases value : validValue secretValue with
    | false => exact holds.refused "secret value is empty or too large"
    | true =>
      refine Meets.bind ?_
      cases opened : vault.data with
      | none => exact (meets_lock_closed opened).mpr (holds.refused _)
      | some held =>
        obtain rfl := holds.memory held opened
        refine (meets_lock opened).mpr ?_
        by_cases full : ((held.secretsByRef[secretRef]?).isNone &&
            decide (held.secretsByRef.size ≥ maxSecretRefs)) = true
        · simp only [if_pos full]
          exact holds.refused "secret vault entry limit is reached"
        · simp only [if_neg full]
          have written : (Request.save nonce secretRef secretValue).written codec held = some (nonce,
              { held with secretsByRef := held.secretsByRef.insert secretRef secretValue }) := by
            rw [Request.written, ref, value, Bool.true_and, Bool.true_and,
              if_pos ((Bool.not_eq_true' _).mpr (Bool.eq_false_iff.mpr full))]
          refine (write_meets lawful holds opened (written_valid lawful holds.valid written)
            (fun bytes => keeps held nonce _ bytes opened written) ?_).mono ?_ ?_
          · intro next rest memory stopped
            cases found : held.secretsByRef[secretRef]? with
            | some previous =>
              have same := insert_previous found
                (held.secretsByRef.insert secretRef secretValue) fun other apart => by
                  rw [Std.ExtTreeMap.getElem?_insert, if_neg (by simpa using Ne.symm apart)]
              exact ⟨rfl, by simp [same]⟩
            | none =>
              have same := erase_inserted found secretValue
              exact ⟨rfl, by simp [same]⟩
          · rintro (error | given) next rest settled
            · exact ⟨settled.1, Or.inr settled.2⟩
            · refine ⟨?_, (by rintro _ ⟨⟩)⟩
              rw [Request.contents, written]
              exact settled.1
          · intro next stops
            rw [Request.contents, written]
            exact stops

private theorem delete_settles (lawful : codec.Lawful) (holds : vault.Holds codec data) {nonce : Nonce}
    {secretRef : String} (keeps : vault.KeepsCopy codec (.delete nonce secretRef) pattern) :
    Meets (serve codec (.delete nonce secretRef)) vault pattern
      (fun result next _ => Settles codec vault data (.delete nonce secretRef) result next)
      (fun next => next.reopened codec = .ok data ∨
        next.reopened codec = .ok ((Request.delete nonce secretRef).contents codec data)) := by
  rw [serve, delete]
  refine Meets.bind (Meets.bind ((meets_liftResult _).mpr ?_))
  cases ref : isAsciiRef secretRef 128 with
  | false =>
    rw [validateRef, ref, if_neg Bool.false_ne_true]
    exact holds.refused _
  | true =>
    rw [validateRef, ref, if_pos rfl]
    refine Meets.bind ?_
    cases opened : vault.data with
    | none => exact (meets_lock_closed opened).mpr (holds.refused _)
    | some held =>
      obtain rfl := holds.memory held opened
      refine (meets_lock opened).mpr ?_
      cases found : held.secretsByRef[secretRef]? with
      | none =>
        have nothing : (Request.delete nonce secretRef).contents codec held = held := by
          simp [Request.contents, Request.written, found]
        simp only [found]
        refine ⟨?_, (by rintro _ ⟨⟩)⟩
        rw [nothing]
        exact holds
      | some previous =>
        have written : (Request.delete nonce secretRef).written codec held = some (nonce,
            { held with secretsByRef := held.secretsByRef.erase secretRef }) := by
          rw [Request.written, ref, found, Option.isSome_some, Bool.true_and, if_pos rfl]
        simp only [found]
        refine (write_meets lawful holds opened (written_valid lawful holds.valid written)
          (fun bytes => keeps held nonce _ bytes opened written) ?_).mono ?_ ?_
        · intro next rest memory stopped
          have same := insert_previous found (held.secretsByRef.erase secretRef)
            fun other apart => by
              rw [Std.ExtTreeMap.getElem?_erase, if_neg (by simpa using Ne.symm apart)]
          exact ⟨rfl, by simp [same]⟩
        · rintro (error | given) next rest settled
          · exact ⟨settled.1, Or.inr settled.2⟩
          · refine ⟨?_, (by rintro _ ⟨⟩)⟩
            rw [Request.contents, written]
            exact settled.1
        · intro next stops
          rw [Request.contents, written]
          exact stops

private theorem agentMessageKey_settles (lawful : codec.Lawful) (holds : vault.Holds codec data)
    {nonce : Nonce} {fresh : AgentMessageKey}
    (keeps : vault.KeepsCopy codec (.agentMessageKey nonce fresh) pattern) :
    Meets (serve codec (.agentMessageKey nonce fresh)) vault pattern
      (fun result next _ => Settles codec vault data (.agentMessageKey nonce fresh) result next)
      (fun next => next.reopened codec = .ok data ∨
        next.reopened codec = .ok ((Request.agentMessageKey nonce fresh).contents codec data)) := by
  rw [serve, agentMessageKey]
  refine Meets.bind (Meets.bind ?_)
  cases opened : vault.data with
  | none => exact (meets_lock_closed opened).mpr (holds.refused _)
  | some held =>
    obtain rfl := holds.memory held opened
    refine (meets_lock opened).mpr ?_
    cases recorded : held.agentMessageKey with
    | some record =>
      have nothing : (Request.agentMessageKey nonce fresh).contents codec held = held := by
        simp [Request.contents, Request.written, recorded]
      simp only [recorded, meets_liftResult]
      cases decoded : record.decode codec with
      | error error => exact holds.refused error
      | ok key =>
        refine ⟨?_, ?_⟩
        · rw [nothing]
          exact holds
        · rintro _ ⟨⟩
          rw [nothing]
          exact ⟨record, recorded, decoded⟩
    | none =>
      have written : (Request.agentMessageKey nonce fresh).written codec held = some (nonce,
          { held with agentMessageKey := some ⟨1, codec.encodeKey fresh⟩ }) := by
        rw [Request.written, recorded, Option.isNone_none, if_pos rfl]
      simp only [recorded]
      refine (write_meets lawful holds opened (written_valid lawful holds.valid written)
        (fun bytes => keeps held nonce _ bytes opened written) ?_).mono ?_ ?_
      · intro next rest memory stopped
        exact ⟨rfl, by rw [← recorded]⟩
      · rintro (error | given) next rest settled
        · exact ⟨settled.1, Or.inr settled.2⟩
        · obtain ⟨kept, rfl⟩ := settled
          refine ⟨?_, ?_⟩
          · rw [Request.contents, written]
            exact kept
          · rintro _ ⟨⟩
            rw [Request.contents, written]
            exact ⟨_, rfl, decode_encodeKey lawful given⟩
      · intro next stops
        rw [Request.contents, written]
        exact stops

private theorem recoverBackup_meets (closed : vault.data = none) :
    Meets recoverBackup vault pattern
      (fun result next _ => next.kept = vault.kept ∧ next.data = none ∧
        (result = .ok () → next.path = next.kept))
      (fun next => next.kept = vault.kept) := by
  obtain ⟨path, backup, temporary, data⟩ := vault
  simp only [recoverBackup, meets_bind, meets_inspect]
  cases path with
  | some path => exact ⟨rfl, closed, fun _ => rfl⟩
  | none =>
    cases backup with
    | none => exact ⟨rfl, closed, fun _ => rfl⟩
    | some backup =>
      exact meets_fileOperation.mpr ⟨fun _ => rfl, fun rest _ => ⟨rfl, closed, fun _ => rfl⟩,
        fun rest _ => ⟨rfl, closed, (by rintro ⟨⟩)⟩⟩

/-- Reading brings what reopening reads into memory. -/
private theorem readVault_meets (read : vault.reopened codec = .ok data) (closed : vault.data = none)
    (recovered : vault.path = vault.kept) :
    Meets (readVault codec) vault pattern
      (fun result next _ => next.kept = vault.kept ∧
        (result = .ok () → next.data = some data) ∧
        ∀ error, result = .error error → next.data = none)
      (fun next => next.kept = vault.kept) := by
  rw [reopened] at read
  refine Meets.bind ((meets_inspect _).mpr ?_)
  cases file : vault.path with
  | some bytes =>
    rw [← recovered, file, readData_some_iff] at read
    simp only [Option.isSome_some, if_true]
    refine Meets.bind (Meets.fetch rfl (fun rest => ?_) fun rest => ⟨rfl, (by rintro ⟨⟩), fun _ _ => closed⟩)
    simp only [file, Option.getD_some, meets_bind, meets_liftResult, read.1, read.2]
    exact ⟨rfl, fun _ => rfl, (by rintro _ ⟨⟩)⟩
  | none =>
    rw [← recovered, file, readData_none_iff] at read
    simp only [Option.isSome_none, Bool.false_eq_true, if_false, meets_bind, meets_liftResult,
      read.1]
    obtain ⟨-, rfl⟩ := read
    exact ⟨rfl, fun _ => rfl, (by rintro _ ⟨⟩)⟩

private theorem reopen_settles (holds : vault.Holds codec data) :
    Meets (serve codec .reopen) vault pattern
      (fun result next _ => Settles codec vault data .reopen result next)
      (fun next => next.reopened codec = .ok data) := by
  have still {next : Vault} (kept : next.kept = vault.kept) : next.reopened codec = .ok data := by
    rw [reopened, kept]
    exact holds.reopened
  have failed {next : Vault} (kept : next.kept = vault.kept) (closed : next.data = none)
      (error : String) : Settles codec vault data .reopen (.error error) next := by
    refine ⟨⟨still kept, fun held opened => ?_⟩, Or.inl rfl⟩
    rw [closed] at opened
    cases opened
  rw [serve]
  refine Meets.bind ((meets_modify _).mpr (Meets.bind (Meets.bind ?_)))
  have kept : Vault.kept { vault with data := none } = vault.kept := rfl
  have closed := failed kept rfl ioError
  refine meets_fileOperation.mpr ⟨fun _ => still rfl, fun rest _ => ?_, fun rest _ => closed⟩
  refine Meets.bind ((recoverBackup_meets rfl).mono ?_ fun next => still)
  rintro (error | ⟨⟨⟩⟩) middle rest ⟨kept, closed, recovered⟩
  · exact failed kept closed error
  · refine (readVault_meets (still kept) closed (recovered rfl)).mono ?_ ?_
    · rintro (error | ⟨⟨⟩⟩) next rest ⟨same, opened, unopened⟩
      · exact failed (same.trans kept) (unopened error rfl) error
      · refine ⟨⟨still (same.trans kept), fun held given => ?_⟩, (by rintro _ ⟨⟩)⟩
        rw [opened rfl] at given
        exact (Option.some.inj given).symm
    · exact fun next same => still (same.trans kept)

/-- Every request ends with its contents or with those before it. -/
theorem serve_settles (lawful : codec.Lawful) (holds : vault.Holds codec data) (request : Request)
    (keeps : vault.KeepsCopy codec request pattern) :
    Meets (serve codec request) vault pattern
      (fun result next _ => Settles codec vault data request result next)
      (fun next => next.reopened codec = .ok data ∨
        next.reopened codec = .ok (request.contents codec data)) := by
  cases request with
  | reopen => exact (reopen_settles holds).mono (fun _ _ _ settles => settles) fun _ => Or.inl
  | save nonce secretRef secretValue => exact save_settles lawful holds keeps
  | delete nonce secretRef => exact delete_settles lawful holds keeps
  | agentMessageKey nonce fresh => exact agentMessageKey_settles lawful holds keeps

end Vault

end ZenithRelay.Secrets
