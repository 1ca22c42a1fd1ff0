import ZenithRelay.Foundations.Execution
import ZenithRelay.Secrets.VaultProperties

/-!
# Runs of the vault

The vault behaves as one value that a request changes whole or not at all, whatever
fails and wherever the process stops, in every run without a replacement that removes
a lone backup and then does not publish.
-/

set_option autoImplicit false

namespace ZenithRelay.Secrets

open Fallible Execution

namespace Vault

/-- What became of a call: a reply, or the process stopped during it. -/
inductive Attended where
  | replied (reply : Except String Reply)
  | stopped

def attend (codec : VaultCodec) (vault : Vault) (request : Request) (pattern : List Bool) :
    Attended × Vault :=
  match (serve codec request).run vault pattern with
  | .returned reply next _ => (.replied reply, next)
  | .stopped next => (.stopped, { next with data := none })

def step (codec : VaultCodec) (vault : Vault) (call : Request × List Bool) : Vault :=
  (attend codec vault call.1 call.2).2

/-- The contents after a call: a stopped call may have changed them. -/
inductive Commits (codec : VaultCodec) (request : Request) (before : VaultData) :
    Attended → VaultData → Prop
  | succeeded {reply} : Commits codec request before (.replied (.ok reply))
      (request.contents codec before)
  | failed {error} : Commits codec request before (.replied (.error error)) before
  | stoppedBefore : Commits codec request before .stopped before
  | stoppedAfter : Commits codec request before .stopped (request.contents codec before)

/-- The contents that a run of calls leads to. -/
inductive History (codec : VaultCodec) : Vault → VaultData → List (Request × List Bool) →
    VaultData → Prop
  | nil {vault contents} : History codec vault contents [] contents
  | cons {vault before call middle calls after} :
      Commits codec call.1 before (attend codec vault call.1 call.2).1 middle →
      History codec (step codec vault call) middle calls after →
      History codec vault before (call :: calls) after

variable {codec : VaultCodec} {vault : Vault} {data : VaultData} {request : Request}
  {pattern : List Bool}

def HasKey (codec : VaultCodec) (data : VaultData) (key : AgentMessageKey) : Prop :=
  ∃ record, data.agentMessageKey = some record ∧ record.decode codec = .ok key

/-- One call commits its contents or keeps those before. -/
theorem attend_holds (lawful : codec.Lawful) (holds : vault.Holds codec data)
    (keeps : vault.KeepsCopy codec request pattern) :
    ∃ after, Commits codec request data (attend codec vault request pattern).1 after ∧
      (attend codec vault request pattern).2.Holds codec after ∧
      (∀ error, (attend codec vault request pattern).1 = .replied (.error error) →
        request = .reopen ∨ (attend codec vault request pattern).2.data = vault.data) ∧
      ∀ key, (attend codec vault request pattern).1 = .replied (.ok (.key key)) →
        HasKey codec after key := by
  have meets := serve_settles lawful holds request keeps
  rw [attend]
  simp only [Meets] at meets
  cases ended : (serve codec request).run vault pattern with
  | returned result next rest =>
    rw [ended] at meets
    cases result with
    | ok reply =>
      refine ⟨_, .succeeded, meets.1, (by rintro _ ⟨⟩), ?_⟩
      rintro key ⟨⟩
      exact meets.2 key rfl
    | error error => exact ⟨data, .failed, meets.1, fun _ _ => meets.2, (by rintro _ ⟨⟩)⟩
  | stopped next =>
    rw [ended] at meets
    rcases meets with before | after
    · exact ⟨data, .stoppedBefore, ⟨before, (by rintro _ ⟨⟩)⟩, (by rintro _ ⟨⟩), (by rintro _ ⟨⟩)⟩
    · exact ⟨_, .stoppedAfter, ⟨after, (by rintro _ ⟨⟩)⟩, (by rintro _ ⟨⟩), (by rintro _ ⟨⟩)⟩

theorem history_holds (lawful : codec.Lawful) {calls : List (Request × List Bool)}
    (holds : vault.Holds codec data)
    (keeps : Along (step codec) (fun vault call => vault.KeepsCopy codec call.1 call.2) vault calls) :
    ∃ after, History codec vault data calls after ∧
      (run (step codec) vault calls).Holds codec after := by
  induction calls generalizing vault data with
  | nil => exact ⟨data, .nil, holds⟩
  | cons call calls ih =>
    obtain ⟨middle, commits, held, -⟩ := attend_holds lawful holds keeps.1
    obtain ⟨after, history, final⟩ := ih held keeps.2
    exact ⟨after, .cons commits history, final⟩

/-! ### The agent-message key -/

theorem contents_hasKey {key : AgentMessageKey} (has : HasKey codec data key) (request : Request) :
    HasKey codec (request.contents codec data) key := by
  obtain ⟨record, kept, decoded⟩ := has
  cases request with
  | reopen => exact ⟨record, kept, decoded⟩
  | save nonce secretRef secretValue =>
    refine ⟨record, ?_, decoded⟩
    simp only [Request.contents, Request.written]
    split
    next => exact kept
    next => exact kept
  | delete nonce secretRef =>
    refine ⟨record, ?_, decoded⟩
    simp only [Request.contents, Request.written]
    split
    next => exact kept
    next => exact kept
  | agentMessageKey nonce fresh =>
    refine ⟨record, ?_, decoded⟩
    simp [Request.contents, Request.written, kept]

theorem Commits.hasKey {attended : Attended} {after : VaultData} {key : AgentMessageKey}
    (commits : Commits codec request data attended after) (has : HasKey codec data key) :
    HasKey codec after key := by
  cases commits with
  | succeeded => exact contents_hasKey has request
  | failed => exact has
  | stoppedBefore => exact has
  | stoppedAfter => exact contents_hasKey has request

theorem History.hasKey {calls : List (Request × List Bool)} {after : VaultData}
    {key : AgentMessageKey} (history : History codec vault data calls after)
    (has : HasKey codec data key) : HasKey codec after key := by
  induction history with
  | nil => exact has
  | cons commits _ ih => exact ih (commits.hasKey has)

theorem HasKey.unique {first second : AgentMessageKey} (left : HasKey codec data first)
    (right : HasKey codec data second) : first = second := by
  obtain ⟨record, kept, decoded⟩ := left
  obtain ⟨other, same, decodedSame⟩ := right
  obtain rfl : record = other := Option.some.inj (kept.symm.trans same)
  rw [decoded] at decodedSame
  exact Except.ok.inj decodedSame

/-- The law of the vault: whole contents, failures without effect, one key. -/
structure Atomic (codec : VaultCodec) (start : Vault) (contents : VaultData)
    (calls : List (Request × List Bool)) : Prop where
  history : ∃ after, History codec start contents calls after ∧
    (run (step codec) start calls).Holds codec after
  failure : ∀ before request pattern error after,
    calls = before ++ (request, pattern) :: after → request ≠ .reopen →
    (attend codec (run (step codec) start before) request pattern).1 = .replied (.error error) →
    (run (step codec) start (before ++ [(request, pattern)])).data =
        (run (step codec) start before).data ∧
      (run (step codec) start (before ++ [(request, pattern)])).reopened codec =
        (run (step codec) start before).reopened codec
  one_key : ∀ before first firstPattern key between second secondPattern other after,
    calls = before ++ (first, firstPattern) :: between ++ (second, secondPattern) :: after →
    (attend codec (run (step codec) start before) first firstPattern).1 =
      .replied (.ok (.key key)) →
    (attend codec (run (step codec) start (before ++ (first, firstPattern) :: between)) second
      secondPattern).1 = .replied (.ok (.key other)) → other = key

/-- In every run that never loses a lone backup, the vault is atomic. -/
theorem vault_atomic_while_backup_kept (lawful : codec.Lawful) (start : Vault)
    (contents : VaultData) (holds : start.Holds codec contents)
    (calls : List (Request × List Bool))
    (keeps : Along (step codec) (fun vault call => vault.KeepsCopy codec call.1 call.2)
      start calls) : Atomic codec start contents calls where
  history := history_holds lawful holds keeps
  failure before request pattern error after whole own failed := by
    rw [whole, along_append] at keeps
    obtain ⟨middle, -, held⟩ := history_holds lawful holds keeps.1
    obtain ⟨last, commits, next, memory, -⟩ := attend_holds lawful held keeps.2.1
    rw [run_append, run_cons, run_nil]
    refine ⟨(memory error failed).resolve_left own, ?_⟩
    rw [failed] at commits
    cases commits
    exact next.reopened.trans held.reopened.symm
  one_key before first firstPattern key between second secondPattern other after whole given again := by
    rw [whole, List.append_assoc, List.cons_append, along_append] at keeps
    obtain ⟨keepsBefore, keepsFirst, keepsRest⟩ := keeps
    rw [along_append] at keepsRest
    obtain ⟨middle, -, held⟩ := history_holds lawful holds keepsBefore
    obtain ⟨fixed, -, heldFirst, -, keyed⟩ := attend_holds lawful held keepsFirst
    obtain ⟨later, history, heldLater⟩ := history_holds lawful heldFirst keepsRest.1
    obtain ⟨last, commits, -, -, keyedAgain⟩ := attend_holds lawful heldLater keepsRest.2.1
    rw [run_append, run_cons] at again
    have atSecond := keyedAgain other again
    have kept := history.hasKey (keyed key given)
    have committed : Commits codec second later (.replied (.ok (.key other))) last := by
      rw [← again]
      exact commits
    cases committed
    exact atSecond.unique (contents_hasKey kept second)

/-! ### The condition is exact -/

/-- A write that removes a lone backup and does not publish leaves nothing to reopen. -/
theorem unkept_write_loses_vault {new : VaultData} {nonce : Nonce} {bytes : Bytes}
    (encrypted : encryptData codec nonce new = .ok bytes) (lost : ¬vault.KeepsBackup pattern) :
    Meets (persist codec nonce new) vault pattern
      (fun result next _ => result ≠ .ok () ∧ next.kept = none) (fun next => next.kept = none) := by
  obtain ⟨path, backup, temporary, memory⟩ := vault
  obtain ⟨rfl, present, allowed, notNext⟩ : path = none ∧ backup.isSome ∧
      pattern.take 4 = [true, true, true, true] ∧ pattern[4]? ≠ some true := by
    simpa [KeepsBackup] using lost
  obtain ⟨backup, rfl⟩ := Option.isSome_iff_exists.mp present
  obtain ⟨rest, rfl, stuck⟩ : ∃ rest, pattern = true :: true :: true :: true :: rest ∧
      ∀ last, rest ≠ true :: last := by
    refine ⟨pattern.drop 4, ?_, fun last same => notNext ?_⟩
    · rw [← List.take_append_drop 4 pattern, allowed]
      simp
    · have whole := List.take_append_drop 4 pattern
      rw [allowed, same] at whole
      rw [← whole]
      rfl
  have replaced : Meets (replaceFile bytes) ⟨none, some backup, temporary, memory⟩
      (true :: true :: true :: true :: rest)
      (fun result next _ => result ≠ .ok () ∧ next.kept = none) (fun next => next.kept = none) := by
    refine Meets.bind (meets_fileOperation.mpr ⟨(by rintro ⟨⟩), ?_, (by rintro _ ⟨⟩)⟩)
    rintro _ ⟨⟩
    refine Meets.bind (meets_fileOperation.mpr ⟨(by rintro ⟨⟩), ?_, (by rintro _ ⟨⟩)⟩)
    rintro _ ⟨⟩
    refine Meets.bind (meets_fileOperation.mpr ⟨(by rintro ⟨⟩), ?_, (by rintro _ ⟨⟩)⟩)
    rintro _ ⟨⟩
    refine Meets.bind (removeBackup_meets.mpr ⟨(by rintro ⟨⟩), ?_, (by rintro _ ⟨⟩)⟩)
    rintro _ ⟨⟩
    refine Meets.bind (moveToBackup_meets.mpr ?_)
    refine Meets.bind ((meets_outcome _).mpr (meets_fileOperation.mpr
      ⟨fun _ => rfl, fun last same => absurd same (stuck last), fun last _ => ?_⟩))
    exact ⟨(by rintro ⟨⟩), rfl⟩
  rw [persist, encrypted]
  refine Meets.bind (Meets.bind ((meets_outcome _).mpr (replaced.mono ?_ fun _ gone => gone)))
  rintro (error | ⟨⟨⟩⟩) next rest ⟨failed, gone⟩
  · exact Meets.bind ((meets_outcome _).mpr (meets_fileOperation.mpr
      ⟨fun _ => gone, fun _ _ => ⟨(by rintro ⟨⟩), gone⟩, fun _ _ => ⟨(by rintro ⟨⟩), gone⟩⟩))
  · exact absurd rfl failed

/-! ### A vault with one secret -/

def oneSecret : VaultData := ⟨Std.ExtTreeMap.insert ∅ "a" "x", none⟩

def oneSecretJson : Bytes :=
  "\x7b\"values\":\x7b\"a\":\"x\"\x7d\x7d".toList.map fun character => UInt8.ofNat character.toNat

/-- A codec of the vault with the one secret; a tag of zeros stands for the real one. -/
def oneSecretCodec : VaultCodec where
  toJson data :=
    if data.secretsByRef.toList = [("a", "x")] ∧ data.agentMessageKey = none then some oneSecretJson
    else none
  fromJson bytes := if bytes = oneSecretJson then some oneSecret else none
  encrypt _ plaintext := some (plaintext ++ List.replicate tagBytes 0)
  decrypt _ ciphertext := some (ciphertext.take (ciphertext.length - tagBytes))
  encodeKey key := String.ofList (key.toList.map fun byte => Char.ofNat byte.toNat)
  decodeKey text := some (text.toList.map fun character => UInt8.ofNat character.toNat)

theorem oneSecretCodec_lawful : oneSecretCodec.Lawful where
  fromJson_toJson data json given := by
    obtain ⟨⟨entries, keyless⟩, same⟩ := Option.ite_none_right_eq_some.mp given
    cases same
    have whole : data.secretsByRef = oneSecret.secretsByRef := by
      apply Std.ExtTreeMap.ext_getElem?
      intro other
      apply Option.ext
      intro value
      rw [← BTreeMap.mem_toList_iff, ← BTreeMap.mem_toList_iff, entries]
      rfl
    obtain ⟨secrets, key⟩ := data
    obtain rfl : secrets = _ := whole
    obtain rfl : key = none := keyless
    rfl
  decrypt_encrypt nonce plaintext ciphertext given := by
    cases given
    simp [oneSecretCodec]
  decodeKey_encodeKey key := by
    have byte (value : UInt8) : UInt8.ofNat (Char.ofNat value.toNat).toNat = value := by
      have small := value.toNat_lt
      have valid : Nat.isValidChar value.toNat := Or.inl (by omega)
      have same : (Char.ofNat value.toNat).toNat = value.toNat := by
        rw [Char.ofNat, dif_pos valid]
        rfl
      rw [same, UInt8.ofNat_toNat]
    simp [oneSecretCodec, Function.comp_def, byte]

def oneNonce : Nonce := Vector.replicate nonceBytes 0

def oneSecretFile : Bytes :=
  vaultMagic ++ oneNonce.toList ++ (oneSecretJson ++ List.replicate tagBytes 0)

private theorem oneSecret_encrypted : encryptData oneSecretCodec oneNonce oneSecret = .ok oneSecretFile :=
  rfl

def oneSecretVault : Vault := ⟨some oneSecretFile, none, none, some oneSecret⟩

theorem oneSecretVault_holds : oneSecretVault.Holds oneSecretCodec oneSecret where
  reopened := by
    have valid : validateData oneSecretCodec oneSecret = .ok () := rfl
    exact readData_encryptData oneSecretCodec_lawful oneSecret_encrypted
      ((validateData_iff oneSecret).mp valid)
  memory := by
    rintro _ ⟨⟩
    rfl

/-- A save whose publishing rename fails, and the rename of the backup after it. -/
def failedRollback : Request × List Bool :=
  (.save oneNonce "a" "x", [true, true, true, true, false, false, true])

/-- A save that removes the backup before its publishing rename fails. -/
def removedBackup : Request × List Bool :=
  (.save oneNonce "a" "x", [true, true, true, true, false, true])

/-- A failed rollback alone keeps the vault. -/
theorem failed_rollback_keeps_vault :
    Atomic oneSecretCodec oneSecretVault oneSecret [failedRollback] := by
  refine vault_atomic_while_backup_kept oneSecretCodec_lawful oneSecretVault oneSecret
    oneSecretVault_holds [failedRollback] ⟨fun data nonce new bytes _ _ _ => ?_, trivial⟩
  intro missing
  cases missing

/-- After a failed rollback the next failing save leaves an empty vault. -/
theorem removed_backup_empties_vault :
    ∃ codec vault contents calls, VaultCodec.Lawful codec ∧ Holds codec vault contents ∧
      ¬Atomic codec vault contents calls := by
  refine ⟨oneSecretCodec, oneSecretVault, oneSecret, [failedRollback, removedBackup],
    oneSecretCodec_lawful, oneSecretVault_holds, fun atomic => ?_⟩
  have before : (run (step oneSecretCodec) oneSecretVault [failedRollback]).kept =
      some oneSecretFile := rfl
  have after : (run (step oneSecretCodec) oneSecretVault
      ([failedRollback] ++ [removedBackup])).kept = none := rfl
  have same := (atomic.failure [failedRollback] removedBackup.1 removedBackup.2 ioError [] rfl
    (by rintro ⟨⟩) rfl).2
  have held := oneSecretVault_holds.reopened
  have start : oneSecretVault.kept = some oneSecretFile := rfl
  rw [reopened, start] at held
  rw [reopened, reopened, before, held] at same
  have empty := readData_none_iff.mp (after ▸ same)
  have secret := congrArg (fun data => data.secretsByRef["a"]?) empty.2
  simp [VaultData.empty, oneSecret] at secret

end Vault

end ZenithRelay.Secrets
