import ZenithRelay.Foundations.Text

/-!
# Laws of text

Trimming ignores the blanks around a text and commutes with ASCII case.
-/

set_option autoImplicit false

namespace ZenithRelay.Text

def trimChars (text : List Char) : List Char :=
  ((text.dropWhile isWhitespace).reverse.dropWhile isWhitespace).reverse

theorem toList_trim (text : String) : (trim text).toList = trimChars text.toList :=
  String.toList_ofList

private theorem dropWhile_blank {blanks : List Char}
    (blank : ∀ character ∈ blanks, isWhitespace character = true) :
    blanks.dropWhile isWhitespace = [] := by
  have dropped := @List.dropWhile_append_of_pos _ isWhitespace blanks [] blank
  rwa [List.append_nil] at dropped

theorem trimChars_prepend {blanks : List Char}
    (blank : ∀ character ∈ blanks, isWhitespace character = true) (text : List Char) :
    trimChars (blanks ++ text) = trimChars text := by
  rw [trimChars, List.dropWhile_append_of_pos blank, trimChars]

theorem trimChars_append {blanks : List Char}
    (blank : ∀ character ∈ blanks, isWhitespace character = true) (text : List Char) :
    trimChars (text ++ blanks) = trimChars text := by
  rw [trimChars, List.dropWhile_append]
  split
  next empty =>
    rw [dropWhile_blank blank, trimChars, List.isEmpty_iff.mp empty]
  next =>
    have reversed : ∀ character ∈ blanks.reverse, isWhitespace character = true :=
      fun character member => blank character (List.mem_reverse.mp member)
    rw [List.reverse_append, List.dropWhile_append_of_pos reversed, trimChars]

theorem toLower_cases (character : Char) :
    character.toLower = character ∨ 65 ≤ character.toNat ∧ character.toNat ≤ 90 ∧
      character.toLower.toNat = character.toNat + 32 := by
  unfold Char.toLower
  split
  next upper =>
    right
    have low : 65 ≤ character.val.toNat := UInt32.le_iff_toNat_le.mp upper.1
    have high : character.val.toNat ≤ 90 := UInt32.le_iff_toNat_le.mp upper.2
    refine ⟨low, high, ?_⟩
    change (character.val + 32).toNat = character.val.toNat + 32
    rw [UInt32.toNat_add]
    exact Nat.mod_eq_of_lt (by change character.val.toNat + 32 < 4294967296; omega)
  · exact .inl rfl

@[simp] theorem isWhitespace_toLower (character : Char) :
    isWhitespace character.toLower = isWhitespace character := by
  rcases toLower_cases character with same | ⟨low, high, lowered⟩
  · rw [same]
  · unfold isWhitespace
    rw [lowered]
    have outside : ∀ code, (65 ≤ code ∧ code ≤ 122) →
        ((decide (9 ≤ code) && decide (code ≤ 13)) || code == 32 || code == 133 || code == 160 ||
          code == 5760 || (decide (8192 ≤ code) && decide (code ≤ 8202)) || code == 8232 ||
          code == 8233 || code == 8239 || code == 8287 || code == 12288) = false := by
      intro code inside
      simp only [Bool.or_eq_false_iff, Bool.and_eq_false_iff, decide_eq_false_iff_not, beq_eq_false_iff_ne]
      omega
    rw [outside _ (by omega), outside _ (by omega)]

theorem toLower_eq_slash (character : Char) : (character.toLower == '/') = (character == '/') := by
  rcases toLower_cases character with same | ⟨low, high, lowered⟩
  · rw [same]
  · have first : character.toLower ≠ '/' := by
      intro equal
      rw [equal] at lowered
      have slash : '/'.toNat = 47 := rfl
      omega
    have second : character ≠ '/' := by
      rintro rfl
      have slash : '/'.toNat = 47 := rfl
      omega
    rw [beq_eq_false_iff_ne.mpr first, beq_eq_false_iff_ne.mpr second]

theorem trimChars_toLower (text : List Char) :
    (trimChars text).map Char.toLower = trimChars (text.map Char.toLower) := by
  have dropped : ∀ text : List Char, (text.map Char.toLower).dropWhile isWhitespace =
      (text.dropWhile isWhitespace).map Char.toLower := by
    intro text
    rw [List.dropWhile_map]
    congr 2
    funext character
    exact isWhitespace_toLower character
  rw [trimChars, trimChars, dropped, List.map_reverse, ← dropped, List.map_reverse]

theorem toList_toAsciiLowercase (text : String) :
    (toAsciiLowercase text).toList = text.toList.map Char.toLower := String.toList_ofList

theorem trimChars_of_visible {text : List Char}
    (visible : ∀ character ∈ text, isWhitespace character = false) : trimChars text = text := by
  have kept : ∀ {chars : List Char}, (∀ character ∈ chars, isWhitespace character = false) →
      chars.dropWhile isWhitespace = chars := by
    intro chars all
    cases chars with
    | nil => rfl
    | cons first rest =>
        rw [List.dropWhile_cons_of_neg (by simp [all first List.mem_cons_self])]
  rw [trimChars, kept visible, kept fun character member =>
    visible character (List.mem_reverse.mp member), List.reverse_reverse]

theorem utf8ByteSize_ofList_le (text : List Char) :
    (String.ofList text).utf8ByteSize ≤ 4 * text.length := by
  induction text with
  | nil => simp
  | cons first rest ih =>
      have split : String.ofList (first :: rest) = String.singleton first ++ String.ofList rest := by
        rw [← String.toList_inj]
        simp
      rw [split, String.utf8ByteSize_append, String.utf8ByteSize_singleton, List.length_cons]
      have small := Char.utf8Size_le_four first
      omega

end ZenithRelay.Text
