import ZenithRelay.Secrets.KeyringProperties

/-!
# Manifests as JSON

Hexadecimal texts need no escape, so a manifest of them is read back from plain JSON.
-/

set_option autoImplicit false

namespace ZenithRelay.Secrets

namespace Keyring

/-- The JSON of a manifest whose texts need no escape. -/
def manifestJson (manifest : SecretManifest) : String :=
  "\x7b\"version\":" ++ String.ofList (Nat.toDigits 10 manifest.version) ++
    ",\"generation\":\"" ++ manifest.generation ++
    "\",\"count\":" ++ String.ofList (Nat.toDigits 10 manifest.count) ++
    ",\"sha256\":\"" ++ manifest.sha256 ++ "\"\x7d"

/-- What follows `literal`. -/
def expect (literal : String) (text : List Char) : Option (List Char) :=
  if text.take literal.toList.length = literal.toList then
    some (text.drop literal.toList.length)
  else none

def isTextChar (character : Char) : Bool := character != '"'

def readManifestJson (text : List Char) : Option SecretManifest := do
  let version ← expect "\x7b\"version\":" text
  let generation ← expect ",\"generation\":\"" (version.dropWhile Char.isDigit)
  let count ← expect "\",\"count\":" (generation.dropWhile isTextChar)
  let sha256 ← expect ",\"sha256\":\"" (count.dropWhile Char.isDigit)
  let rest ← expect "\"\x7d" (sha256.dropWhile isTextChar)
  if rest = [] then
    some ⟨Nat.ofDigitChars 10 (version.takeWhile Char.isDigit) 0,
      String.ofList (generation.takeWhile isTextChar),
      Nat.ofDigitChars 10 (count.takeWhile Char.isDigit) 0,
      String.ofList (sha256.takeWhile isTextChar)⟩
  else none

theorem expect_append (literal : String) (rest : List Char) :
    expect literal (literal.toList ++ rest) = some rest := by
  simp [expect]

theorem isTextChar_of_isHex {text : String} {length : Nat} (hex : isHex text length = true) :
    ∀ character ∈ text.toList, isTextChar character = true := by
  intro character member
  have digit := (List.all_eq_true.mp (Bool.and_eq_true_iff.mp hex).2) character member
  rw [isTextChar, bne_iff_ne]
  rintro rfl
  cases digit

theorem isDigit_toDigits (value : Nat) :
    ∀ character ∈ Nat.toDigits 10 value, character.isDigit = true :=
  fun _ member => Nat.isDigit_of_mem_toDigits (by decide) (by decide) member

theorem span_literal {accepts : Char → Bool} {word : List Char} (literal : String)
    (within : ∀ character ∈ word, accepts character = true)
    (stops : literal.toList.head?.map accepts = some false) (rest : List Char) :
    (word ++ (literal.toList ++ rest)).takeWhile accepts = word ∧
      (word ++ (literal.toList ++ rest)).dropWhile accepts = literal.toList ++ rest := by
  rw [List.takeWhile_append_of_pos within, List.dropWhile_append_of_pos within]
  cases start : literal.toList with
  | nil => simp [start] at stops
  | cons first others =>
    have halts : accepts first = false := by simpa [start] using stops
    simp [halts]

private theorem readManifestJson_manifestJson (manifest : SecretManifest)
    (generation : isHex manifest.generation 32 = true) (digest : isHex manifest.sha256 64 = true) :
    readManifestJson (manifestJson manifest).toList = some manifest := by
  have version := span_literal ",\"generation\":\""
    (isDigit_toDigits manifest.version) (by decide)
  have afterGeneration := span_literal "\",\"count\":"
    (isTextChar_of_isHex generation) (by decide)
  have count := span_literal ",\"sha256\":\""
    (isDigit_toDigits manifest.count) (by decide)
  have afterDigest := span_literal "\"\x7d" (isTextChar_of_isHex digest) (by decide) []
  have rest : expect "\"\x7d" "\"\x7d".toList = some [] := by
    simpa using expect_append "\"\x7d" []
  rw [List.append_nil] at afterDigest
  unfold manifestJson readManifestJson
  simp only [String.toList_append, List.append_assoc, String.toList_ofList, expect_append,
    Option.bind_eq_bind, Option.bind_some, (version _).1, (version _).2, (afterGeneration _).1,
    (afterGeneration _).2, (count _).1, (count _).2, afterDigest.1, afterDigest.2, rest, if_true,
    Nat.ofDigitChars_ten_toDigits, String.ofList_toList]

/-! ### A secret of two chunks -/

@[irreducible] def lettersOnly (count : Nat) : String := String.ofList (List.replicate count 'a')

theorem lettersOnly_units (count : Nat) : utf16Count (lettersOnly count).toList = count := by
  have unit : lenUtf16 'a' = 1 := by decide
  simp [lettersOnly, utf16Count, unit]

theorem lettersOnly_trimmed (count : Nat) : Text.trim (lettersOnly count) = lettersOnly count := by
  have letter : Text.isWhitespace 'a' = false := by decide
  rw [lettersOnly]
  cases count with
  | zero => rfl
  | succ count =>
    rw [Text.trim, String.toList_ofList, List.replicate_succ,
      List.dropWhile_cons_of_neg (by simp [letter]), ← List.replicate_succ, List.reverse_replicate,
      List.replicate_succ, List.dropWhile_cons_of_neg (by simp [letter]), ← List.replicate_succ,
      List.reverse_replicate]

theorem lettersOnly_plain (count : Nat) :
    Text.startsWith (lettersOnly count) manifestPrefix = false := by
  rw [lettersOnly]
  cases count with
  | zero => decide
  | succ count =>
    have other : ('_' == 'a') = false := by decide
    have first : manifestPrefix.toList = '_' :: manifestPrefix.toList.tail := by decide
    rw [Text.startsWith, String.toList_ofList, List.replicate_succ, first,
      List.isPrefixOf_cons_cons, other, Bool.false_and]

def longSecret : String := lettersOnly 1025

/-- The digest of `longSecret`, and one digest for every other text. -/
def longSecretDigest (text : String) : String :=
  if text = longSecret then "4a82297889eb505cf6b5cbdf69977afab4632d6557539782f657bd7dc78091a5"
  else "e3b0c44298fc1c149afbf4c8996fb92427ae41e4649b934ca495991b7852b855"

def longSecretCodec : ManifestCodec where
  toJson manifest := some (manifestJson manifest)
  fromJson json := readManifestJson json.toList
  sha256Hex := longSecretDigest

theorem longSecretCodec_lawful : Lawful longSecretCodec where
  json manifest generation digest :=
    ⟨manifestJson manifest, rfl, readManifestJson_manifestJson manifest generation digest⟩
  digest text := by
    change isHex (longSecretDigest text) 64 = true
    unfold longSecretDigest
    split
    next => decide
    next => decide

def zeroGeneration : String := String.ofList (List.replicate 32 '0')

end Keyring

end ZenithRelay.Secrets
