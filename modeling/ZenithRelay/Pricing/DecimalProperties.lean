import ZenithRelay.Pricing.Decimal

/-!
# The amount of a decimal text

A text denotes a rational number; the parsed amount is that number times the scale,
rounded half up. The accepted spellings are bounded in their digits and their exponent.
-/

set_option autoImplicit false

namespace ZenithRelay.Pricing

/-! ### Rounding -/

def roundHalfUp (amount : ℚ) : Nat := ⌊amount + 1 / 2⌋₊

theorem roundHalfUp_eq {amount : ℚ} {rounded : Nat} (low : (rounded : ℚ) ≤ amount + 1 / 2)
    (high : amount + 1 / 2 < rounded + 1) : roundHalfUp amount = rounded :=
  (Nat.floor_eq_iff (le_trans (Nat.cast_nonneg rounded) low)).mpr ⟨low, high⟩

theorem roundHalfUp_natCast (amount : Nat) : roundHalfUp amount = amount :=
  roundHalfUp_eq (by linarith) (by linarith)

private theorem roundHalfUp_small {amount : ℚ} (nonneg : 0 ≤ amount) (small : amount < 1 / 2) :
    roundHalfUp amount = 0 := roundHalfUp_eq (by push_cast; linarith) (by push_cast; linarith)

/-- Division with a test of the remainder rounds half up. -/
private theorem roundHalfUp_div (digits : Nat) {divisor : Nat} (positive : 0 < divisor) :
    roundHalfUp ((digits : ℚ) / divisor) =
      digits / divisor + if (divisor + 1) / 2 ≤ digits % divisor then 1 else 0 := by
  have divided : (digits : ℚ) = divisor * (digits / divisor : Nat) + (digits % divisor : Nat) := by
    exact_mod_cast (Nat.div_add_mod digits divisor).symm
  have small : digits % divisor < divisor := Nat.mod_lt _ positive
  have cast_positive : (0 : ℚ) < divisor := by exact_mod_cast positive
  generalize digits / divisor = quotient at divided ⊢
  generalize digits % divisor = remainder at divided small ⊢
  have amount : (digits : ℚ) / divisor = quotient + remainder / divisor := by
    rw [divided]
    field_simp
  rw [amount]
  split
  next large =>
    have half : (divisor : ℚ) ≤ 2 * remainder := by exact_mod_cast (by omega : divisor ≤ 2 * remainder)
    have below : (remainder : ℚ) / divisor < 1 := by
      rw [div_lt_one cast_positive]
      exact_mod_cast small
    have above : 1 / 2 ≤ (remainder : ℚ) / divisor := by
      rw [le_div_iff₀ cast_positive]
      linarith
    exact roundHalfUp_eq (by push_cast; linarith) (by push_cast; linarith)
  next low =>
    have half : 2 * (remainder : ℚ) < divisor := by exact_mod_cast (by omega : 2 * remainder < divisor)
    have below : (remainder : ℚ) / divisor < 1 / 2 := by
      rw [div_lt_iff₀ cast_positive]
      linarith
    have above : 0 ≤ (remainder : ℚ) / divisor := by positivity
    exact roundHalfUp_eq (by push_cast; linarith) (by push_cast; linarith)

/-! ### Digits -/

private theorem digit_lt {character : Char} (isDigit : character.isDigit = true) :
    character.toNat - '0'.toNat < 10 := by
  simp only [Char.isDigit, Bool.and_eq_true, decide_eq_true_eq, UInt32.le_iff_toNat_le] at isDigit
  have high := isDigit.2
  simp only [Char.toNat] at *
  change character.val.toNat ≤ 57 at high
  change character.val.toNat - 48 < 10
  omega

theorem digits_lt {digits : List Char} (areDigits : digits.all Char.isDigit = true) :
    Nat.ofDigitChars 10 digits 0 < 10 ^ digits.length := by
  induction digits with
  | nil => simp
  | cons digit digits ih =>
      obtain ⟨isDigit, areDigits⟩ := Bool.and_eq_true_iff.mp areDigits
      have rest := ih areDigits
      have head := digit_lt isDigit
      rw [Nat.ofDigitChars_cons, Nat.ofDigitChars_eq_ofDigitChars_zero, List.length_cons, pow_succ]
      generalize digit.toNat - '0'.toNat = value at head ⊢
      have bound : 10 ^ digits.length * value ≤ 10 ^ digits.length * 9 :=
        Nat.mul_le_mul_left _ (by omega)
      simp only [Nat.mul_zero, Nat.zero_add]
      omega

/-- Leading zeros do not count. -/
theorem dropZeros_value (digits : List Char) :
    Nat.ofDigitChars 10 (digits.dropWhile (· == '0')) 0 = Nat.ofDigitChars 10 digits 0 := by
  induction digits with
  | nil => rfl
  | cons digit digits ih =>
      rw [List.dropWhile_cons]
      split
      next zero =>
        rw [ih, beq_iff_eq.mp zero, Nat.ofDigitChars_cons]
        simp
      · rfl

theorem dropZeros_positive {digits : List Char} (areDigits : digits.all Char.isDigit = true)
    (some : digits.dropWhile (· == '0') ≠ []) : 0 < Nat.ofDigitChars 10 digits 0 := by
  induction digits with
  | nil => exact absurd rfl some
  | cons digit digits ih =>
      obtain ⟨isDigit, areDigits⟩ := Bool.and_eq_true_iff.mp areDigits
      rw [List.dropWhile_cons] at some
      rw [Nat.ofDigitChars_cons, Nat.ofDigitChars_eq_ofDigitChars_zero]
      split at some
      · exact Nat.add_pos_right _ (ih areDigits some)
      next nonzero =>
        refine Nat.add_pos_left (Nat.mul_pos (by positivity) ?_) _
        simp only [Char.isDigit, Bool.and_eq_true, decide_eq_true_eq, UInt32.le_iff_toNat_le] at isDigit
        have low := isDigit.1
        have other : digit.val.toNat ≠ 48 := by
          intro same
          refine nonzero (beq_iff_eq.mpr ?_)
          exact Char.ext (UInt32.toNat_inj.mp same)
        change 48 ≤ digit.val.toNat at low
        change 0 < 10 * 0 + (digit.val.toNat - 48)
        omega

theorem dropZeros_empty {digits : List Char} (none : digits.dropWhile (· == '0') = []) :
    Nat.ofDigitChars 10 digits 0 = 0 := by
  rw [← dropZeros_value, none]
  rfl

private theorem decimalDigits_pow (digits : Nat) : decimalDigits (10 ^ digits) = some digits := by
  induction digits with
  | zero =>
      rw [decimalDigits]
      simp
  | succ digits ih =>
      rw [decimalDigits, if_neg (by positivity), if_pos (by omega)]
      rw [pow_succ, Nat.mul_div_cancel _ (by omega), ih]
      rfl

/-! ### Scaling -/

/-- The amount denoted by digits and the power of ten of the last one. -/
def amountOf (digits : List Char) (power : Int) : ℚ :=
  (Nat.ofDigitChars 10 digits 0 : ℚ) * (10 : ℚ) ^ power

/-- The answer that the scaled amount asks for. -/
def outcome (scaled : ℚ) (allowZero : Bool) : Except PricingError Nat :=
  acceptAmount allowZero (roundHalfUp scaled)

theorem pow_le_u128 {power : Nat} (small : power ≤ 38) : 10 ^ power ≤ u128Max :=
  le_trans (Nat.pow_le_pow_right (by decide) small) (by decide)

private theorem shiftUp_spec {digits power : Nat} (positive : 0 < digits) (allowZero : Bool) :
    (shiftUp digits power).bind (acceptAmount allowZero) =
      acceptAmount allowZero (digits * 10 ^ power) := by
  have overflows : ∀ {amount : Nat}, u64Max < amount →
      acceptAmount allowZero amount = .error .overflow := fun large => if_pos large
  unfold shiftUp
  split
  next large =>
    have big : 10 ^ 39 ≤ digits * 10 ^ power :=
      le_trans (Nat.pow_le_pow_right (by decide) large) (Nat.le_mul_of_pos_left _ positive)
    rw [overflows (lt_of_lt_of_le (by decide) big)]
    rfl
  next small =>
    have fits : checkedU128 (10 ^ power) .overflow = .ok (10 ^ power) :=
      if_pos (pow_le_u128 (Nat.le_of_not_lt small))
    rw [fits]
    change (checkedU128 (digits * 10 ^ power) .overflow).bind _ = _
    unfold checkedU128
    split
    · rfl
    next large =>
      have big : u64Max < digits * 10 ^ power := lt_trans (by decide) (Nat.lt_of_not_le large)
      rw [overflows big]
      rfl

private theorem shiftDown_spec {digits power : Nat} (bounded : digits < 10 ^ 38) (small : power ≤ 38) :
    shiftDown digits power =
      .ok (digits / 10 ^ power + if (10 ^ power + 1) / 2 ≤ digits % 10 ^ power then 1 else 0) := by
  have fits : checkedU128 (10 ^ power) .overflow = .ok (10 ^ power) := if_pos (pow_le_u128 small)
  unfold shiftDown
  rw [fits]
  refine if_pos ?_
  have quotient : digits / 10 ^ power ≤ digits := Nat.div_le_self _ _
  have bound : (10 : Nat) ^ 38 ≤ u128Max := by decide
  split <;> omega

theorem zpow_neg_natAbs {shift : Int} (negative : shift < 0) :
    (10 : ℚ) ^ shift = 1 / ((10 ^ shift.natAbs : Nat) : ℚ) := by
  obtain ⟨power, rfl⟩ := Int.eq_negSucc_of_lt_zero negative
  rw [zpow_negSucc, Int.natAbs_negSucc, one_div]
  push_cast
  rfl

/-- A shift of less than −38 leaves less than half a unit. -/
private theorem roundHalfUp_tiny {digits : Nat} (bounded : digits < 10 ^ 38) {shift : Int}
    (tiny : shift < -38) : roundHalfUp ((digits : ℚ) * (10 : ℚ) ^ shift) = 0 := by
  have power : 39 ≤ shift.natAbs := by omega
  rw [zpow_neg_natAbs (by omega)]
  have large : (10 : ℚ) ^ 39 ≤ ((10 ^ shift.natAbs : Nat) : ℚ) := by
    exact_mod_cast Nat.pow_le_pow_right (by decide) power
  have digitsBound : (digits : ℚ) < 10 ^ 38 := by exact_mod_cast bounded
  have positive : (0 : ℚ) < ((10 ^ shift.natAbs : Nat) : ℚ) := lt_of_lt_of_le (by norm_num) large
  refine roundHalfUp_small (by positivity) ?_
  rw [mul_one_div, div_lt_iff₀ positive]
  linarith

/-- The answer for digits within the bounds; a nonzero amount that is shifted out of
sight is answered with zero whatever the policy. -/
theorem scaleDigits_spec {digits : List Char} (areDigits : digits.all Char.isDigit = true)
    {fractionalLength : Nat} {exponent : Int} (low : i32Min ≤ exponent) (high : exponent ≤ i32Max)
    {scaleDigitCount : Nat} (scaleFits : 10 ^ scaleDigitCount ≤ u128Max) (allowZero : Bool)
    (significant : (digits.dropWhile (· == '0')).length ≤ 38) (fraction : fractionalLength ≤ 38) :
    let shift := exponent + scaleDigitCount - fractionalLength
    scaleDigits digits fractionalLength exponent (10 ^ scaleDigitCount) allowZero =
      if Nat.ofDigitChars 10 digits 0 ≠ 0 ∧ shift < -38 then .ok 0
      else outcome ((Nat.ofDigitChars 10 digits 0 : ℚ) * (10 : ℚ) ^ shift) allowZero := by
  intro shift
  have count : scaleDigitCount ≤ 38 := by
    by_contra large
    have big : 10 ^ 39 ≤ 10 ^ scaleDigitCount := Nat.pow_le_pow_right (by decide) (by omega)
    exact absurd (le_trans big scaleFits) (by decide)
  unfold scaleDigits
  dsimp only
  split
  next none =>
    have visible : ¬((0 : Nat) ≠ 0 ∧ shift < -38) := fun holds => holds.1 rfl
    rw [dropZeros_empty none, if_neg visible, outcome]
    have rounded : roundHalfUp (((0 : Nat) : ℚ) * (10 : ℚ) ^ shift) = 0 := by
      rw [Nat.cast_zero, zero_mul]
      exact_mod_cast roundHalfUp_natCast 0
    rw [rounded]
    cases allowZero <;> rfl
  next some =>
    rw [if_neg (by omega), dropZeros_value]
    have positive := dropZeros_positive areDigits some
    have bounded : Nat.ofDigitChars 10 digits 0 < 10 ^ 38 := by
      rw [← dropZeros_value]
      refine lt_of_lt_of_le (digits_lt ?_) (Nat.pow_le_pow_right (by decide) significant)
      exact List.all_eq_true.mpr fun digit member =>
        List.all_eq_true.mp areDigits digit (List.dropWhile_subset _ member)
    generalize Nat.ofDigitChars 10 digits 0 = value at positive bounded ⊢
    have valueFits : checkedU128 value .invalidAmount = .ok value :=
      if_pos (le_of_lt (lt_of_lt_of_le bounded (by decide)))
    have bounds : i64Min ≤ exponent + scaleDigitCount ∧ exponent + scaleDigitCount ≤ i64Max ∧
        i64Min ≤ shift ∧ shift ≤ i64Max := by
      simp only [i32Min, i32Max, i64Min, i64Max] at *
      omega
    have first : checkedI64 (exponent + scaleDigitCount) .overflow =
        .ok (exponent + scaleDigitCount) := if_pos ⟨bounds.1, bounds.2.1⟩
    have second : checkedI64 (exponent + scaleDigitCount - fractionalLength) .overflow = .ok shift :=
      if_pos bounds.2.2
    rw [valueFits, decimalDigits_pow]
    change (checkedI64 (exponent + scaleDigitCount) .overflow >>= _) = _
    rw [first]
    change (checkedI64 (exponent + scaleDigitCount - fractionalLength) .overflow >>= _) = _
    rw [second]
    change (if 0 ≤ shift then (shiftUp value shift.toNat).bind (acceptAmount allowZero)
      else if 38 < shift.natAbs then .ok 0
      else (shiftDown value shift.natAbs).bind (acceptAmount allowZero)) = _
    clear_value shift
    split
    next up =>
      rw [if_neg (by omega), shiftUp_spec positive, outcome]
      have exact : (value : ℚ) * (10 : ℚ) ^ shift = ((value * 10 ^ shift.toNat : Nat) : ℚ) := by
        conv_lhs => rw [← Int.toNat_of_nonneg up, zpow_natCast]
        push_cast
        rfl
      rw [exact, roundHalfUp_natCast]
    next down =>
      split
      next tiny => rw [if_pos ⟨by omega, by omega⟩]
      next near =>
        rw [if_neg (by omega), shiftDown_spec bounded (by omega), outcome,
          zpow_neg_natAbs (by omega), mul_one_div, roundHalfUp_div _ (by positivity)]
        rfl

/-! ### Spellings -/

/-- A plain or scientific spelling of a non-negative number, in its parts. -/
structure Spelling where
  whole : List Char
  /-- The digits after a point. -/
  fraction : Option (List Char)
  /-- The marker and the text of an exponent. -/
  exponent : Option (Char × List Char)

namespace Spelling

variable (spelling : Spelling)

def mantissa : List Char := spelling.whole ++ spelling.fraction.elim [] ('.' :: ·)

def chars : List Char :=
  spelling.mantissa ++ spelling.exponent.elim [] fun exponent => exponent.1 :: exponent.2

def fractional : List Char := spelling.fraction.getD []

def digits : List Char := spelling.whole ++ spelling.fractional

/-- The exponent, of any size; a spelling without one has the exponent 0. -/
def exponentValue : Int := spelling.exponent.elim 0 fun exponent => (signedDigits exponent.2).getD 0

structure Valid : Prop where
  digits : spelling.digits.all Char.isDigit = true
  nonempty : spelling.digits ≠ []
  exponent : ∀ exponent, spelling.exponent = some exponent →
    (exponent.1 = 'e' ∨ exponent.1 = 'E') ∧ (signedDigits exponent.2).isSome = true

/-- The rational number. -/
def value : ℚ := amountOf spelling.digits (spelling.exponentValue - spelling.fractional.length)

/-- At most 38 significant and 38 fractional digits. -/
def InBounds : Prop :=
  (spelling.digits.dropWhile (· == '0')).length ≤ 38 ∧ spelling.fractional.length ≤ 38

/-- The exponent is written within the range of an `i32`. -/
def ExponentFits : Prop := i32Min ≤ spelling.exponentValue ∧ spelling.exponentValue ≤ i32Max

end Spelling

theorem splitOnce_append {separates : Char → Bool} {before after : List Char} {separator : Char}
    (none : before.all (fun character => !separates character) = true)
    (separating : separates separator = true) :
    splitOnce separates (before ++ separator :: after) = some (before, after) := by
  induction before with
  | nil => rw [List.nil_append, splitOnce, if_pos separating]
  | cons character before ih =>
      obtain ⟨first, none⟩ := Bool.and_eq_true_iff.mp none
      have other : ¬separates character = true := by
        rw [Bool.not_eq_true]
        exact Bool.not_eq_true' _ ▸ first
      rw [List.cons_append, splitOnce, if_neg other, ih none]
      rfl

theorem splitOnce_none {separates : Char → Bool} {text : List Char}
    (none : text.all (fun character => !separates character) = true) :
    splitOnce separates text = Option.none := by
  induction text with
  | nil => rfl
  | cons character text ih =>
      obtain ⟨first, none⟩ := Bool.and_eq_true_iff.mp none
      have other : ¬separates character = true := by
        rw [Bool.not_eq_true]
        exact Bool.not_eq_true' _ ▸ first
      rw [splitOnce, if_neg other, ih none]
      rfl

theorem splitOnce_some {separates : Char → Bool} {text before after : List Char}
    (split : splitOnce separates text = some (before, after)) :
    ∃ separator, separates separator = true ∧ text = before ++ separator :: after := by
  induction text generalizing before with
  | nil => cases split
  | cons character text ih =>
      unfold splitOnce at split
      split at split
      next separating =>
        cases split
        exact ⟨character, separating, rfl⟩
      · obtain ⟨⟨rest, _⟩, isRest, same⟩ := Option.map_eq_some_iff.mp split
        cases same
        obtain ⟨separator, separating, rfl⟩ := ih isRest
        exact ⟨separator, separating, rfl⟩

section

variable {spelling : Spelling}

theorem not_digit_point {character : Char} (isDigit : character.isDigit = true) :
    character ≠ '.' ∧ character ≠ 'e' ∧ character ≠ 'E' ∧ character ≠ '-' ∧ character ≠ '+' := by
  refine ⟨?_, ?_, ?_, ?_, ?_⟩ <;>
    · rintro rfl
      revert isDigit
      decide

theorem Spelling.Valid.parts (valid : spelling.Valid) :
    spelling.whole.all Char.isDigit = true ∧ spelling.fractional.all Char.isDigit = true := by
  have digits := valid.digits
  rw [Spelling.digits, List.all_append, Bool.and_eq_true] at digits
  exact digits

/-- A mantissa has digits and at most one point. -/
theorem Spelling.Valid.mem_mantissa (valid : spelling.Valid) {character : Char}
    (member : character ∈ spelling.mantissa) : character.isDigit = true ∨ character = '.' := by
  obtain ⟨whole, fractional⟩ := valid.parts
  rcases List.mem_append.mp member with member | member
  · exact .inl (List.all_eq_true.mp whole character member)
  · cases fraction : spelling.fraction with
    | none => simp [fraction] at member
    | some digits =>
        rw [Spelling.fractional, fraction] at fractional
        rw [fraction] at member
        rcases List.mem_cons.mp member with rfl | member
        · exact .inr rfl
        · exact .inl (List.all_eq_true.mp fractional character member)

private theorem Spelling.Valid.mantissa_ne_nil (valid : spelling.Valid) : spelling.mantissa ≠ [] := by
  intro empty
  obtain ⟨whole, fraction⟩ := List.append_eq_nil_iff.mp empty
  refine valid.nonempty ?_
  cases isFraction : spelling.fraction with
  | none => simp [Spelling.digits, Spelling.fractional, whole, isFraction]
  | some digits => simp [isFraction] at fraction

private theorem splitExponent_chars (valid : spelling.Valid) :
    splitExponent spelling.chars =
      if i32Min ≤ spelling.exponentValue ∧ spelling.exponentValue ≤ i32Max then
        some (spelling.mantissa, spelling.exponentValue)
      else none := by
  have plain : spelling.mantissa.all
      (fun character => !(character == 'e' || character == 'E')) = true := by
    refine List.all_eq_true.mpr fun character member => ?_
    rcases valid.mem_mantissa member with isDigit | rfl
    · obtain ⟨_, notLower, notUpper, _⟩ := not_digit_point isDigit
      simp [notLower, notUpper]
    · decide
  unfold splitExponent Spelling.chars Spelling.exponentValue
  cases isExponent : spelling.exponent with
  | none =>
      rw [Option.elim_none, Option.elim_none, List.append_nil, splitOnce_none plain]
      exact (if_pos (by decide)).symm
  | some exponent =>
      obtain ⟨marker, isInteger⟩ := valid.exponent exponent isExponent
      obtain ⟨value, isValue⟩ := Option.isSome_iff_exists.mp isInteger
      have marks : (fun character => character == 'e' || character == 'E') exponent.1 = true := by
        rcases marker with lower | upper
        · simp [lower]
        · simp [upper]
      rw [Option.elim_some, Option.elim_some, splitOnce_append plain marks, isValue]
      change (parseI32 exponent.2).map _ = _
      rw [parseI32, isValue, Option.getD_some]
      by_cases fits : i32Min ≤ value ∧ value ≤ i32Max
      · rw [if_pos fits, Option.filter_some, if_pos (by simp [fits])]
        rfl
      · rw [if_neg fits, Option.filter_some, if_neg (by simpa using fits)]
        rfl

private theorem splitOnce_mantissa (valid : spelling.Valid) :
    spelling.mantissa.count '.' ≤ 1 ∧ (splitOnce (· == '.') spelling.mantissa).getD
      (spelling.mantissa, []) = (spelling.whole, spelling.fractional) := by
  obtain ⟨whole, fractional⟩ := valid.parts
  have noPoint : ∀ digits : List Char, digits.all Char.isDigit = true → digits.count '.' = 0 := by
    intro digits areDigits
    refine List.count_eq_zero.mpr fun member => ?_
    exact (not_digit_point (List.all_eq_true.mp areDigits _ member)).1 rfl
  have unsplit : spelling.whole.all (fun character => !(character == '.')) = true := by
    refine List.all_eq_true.mpr fun character member => ?_
    simp [(not_digit_point (List.all_eq_true.mp whole character member)).1]
  unfold Spelling.mantissa Spelling.fractional at *
  cases isFraction : spelling.fraction with
  | none =>
      rw [Option.elim_none, List.append_nil, splitOnce_none unsplit, noPoint _ whole]
      exact ⟨Nat.zero_le _, rfl⟩
  | some digits =>
      rw [isFraction, Option.getD_some] at fractional
      rw [Option.elim_some, splitOnce_append unsplit (by decide), List.count_append,
        noPoint _ whole, List.count_cons_self, noPoint _ fractional]
      exact ⟨le_rfl, rfl⟩

theorem parse_chars {text : String} (valid : spelling.Valid)
    (spelled : (Text.trim text).toList = spelling.chars) (scale : Nat) (allowZero : Bool) :
    parseDecimalToScaled text scale allowZero =
      if i32Min ≤ spelling.exponentValue ∧ spelling.exponentValue ≤ i32Max then
        scaleDigits spelling.digits spelling.fractional.length spelling.exponentValue scale allowZero
      else .error .invalidAmount := by
  have begins : ¬(spelling.chars = [] ∨ spelling.chars.head? = some '-' ∨
      spelling.chars.head? = some '+') := by
    unfold Spelling.chars
    cases isMantissa : spelling.mantissa with
    | nil => exact absurd isMantissa valid.mantissa_ne_nil
    | cons first rest =>
        have member : first ∈ spelling.mantissa := isMantissa ▸ List.mem_cons_self
        rcases valid.mem_mantissa member with isDigit | rfl
        · obtain ⟨_, _, _, notMinus, notPlus⟩ := not_digit_point isDigit
          simp [notMinus, notPlus]
        · simp
  obtain ⟨count, split⟩ := splitOnce_mantissa valid
  obtain ⟨whole, fractional⟩ := valid.parts
  have present : ¬((spelling.whole = [] ∧ spelling.fractional = []) ∨
      ¬spelling.whole.all Char.isDigit ∨ ¬spelling.fractional.all Char.isDigit) := by
    rintro (⟨noWhole, noFraction⟩ | bad | bad)
    · exact valid.nonempty (by rw [Spelling.digits, noWhole, noFraction]; rfl)
    · exact bad whole
    · exact bad fractional
  unfold parseDecimalToScaled
  rw [spelled]
  dsimp only
  rw [if_neg begins, splitExponent_chars valid]
  by_cases fits : i32Min ≤ spelling.exponentValue ∧ spelling.exponentValue ≤ i32Max
  · rw [if_pos fits, if_pos fits]
    dsimp only
    rw [if_neg (Nat.not_lt_of_le count), split]
    dsimp only
    rw [if_neg present]
    rfl
  · rw [if_neg fits, if_neg fits]

end

private theorem splitExponent_some {text mantissa : List Char} {exponent : Int}
    (split : splitExponent text = some (mantissa, exponent)) :
    ∃ part : Option (Char × List Char),
      text = mantissa ++ part.elim [] (fun part => part.1 :: part.2) ∧
      (part.elim 0 fun part => (signedDigits part.2).getD 0) = exponent ∧
      (i32Min ≤ exponent ∧ exponent ≤ i32Max) ∧
      ∀ own, part = some own → (own.1 = 'e' ∨ own.1 = 'E') ∧ (signedDigits own.2).isSome = true := by
  unfold splitExponent at split
  split at split
  next before exponentText isSplit =>
    obtain ⟨value, isValue, same⟩ := Option.map_eq_some_iff.mp split
    cases same
    obtain ⟨isInteger, fits⟩ := Option.filter_eq_some_iff.mp isValue
    obtain ⟨marker, marks, rfl⟩ := splitOnce_some isSplit
    refine ⟨some (marker, exponentText), rfl, ?_, by simpa using fits, ?_⟩
    · rw [Option.elim_some, isInteger, Option.getD_some]
    · intro own same
      cases same
      exact ⟨by simpa using marks, by rw [isInteger]; rfl⟩
  next =>
    cases split
    exact ⟨none, (List.append_nil _).symm, rfl, by decide, nofun⟩

private theorem mantissa_parts (mantissa : List Char) :
    ∃ fraction : Option (List Char),
      let parts := (splitOnce (· == '.') mantissa).getD (mantissa, [])
      mantissa = parts.1 ++ fraction.elim [] ('.' :: ·) ∧ fraction.getD [] = parts.2 := by
  cases isSplit : splitOnce (· == '.') mantissa with
  | none => exact ⟨none, (List.append_nil _).symm, rfl⟩
  | some parts =>
      obtain ⟨separator, separates, same⟩ := splitOnce_some isSplit
      exact ⟨some parts.2, beq_iff_eq.mp separates ▸ same, rfl⟩

/-- A text that is no spelling, or one whose exponent does not fit, is an invalid amount. -/
theorem spelling_of_parse {text : String} {scale : Nat} {allowZero : Bool}
    (valid : parseDecimalToScaled text scale allowZero ≠ .error .invalidAmount) :
    ∃ spelling : Spelling, spelling.Valid ∧ (Text.trim text).toList = spelling.chars ∧
      spelling.ExponentFits := by
  unfold parseDecimalToScaled at valid
  dsimp only at valid
  split at valid
  · exact absurd rfl valid
  cases isExponent : splitExponent (Text.trim text).toList with
  | none =>
      rw [isExponent] at valid
      exact absurd rfl valid
  | some parts =>
      obtain ⟨mantissa, exponent⟩ := parts
      rw [isExponent] at valid
      dsimp only at valid
      split at valid
      · exact absurd rfl valid
      split at valid
      · exact absurd rfl valid
      next present =>
        obtain ⟨part, isText, isExponentValue, fits, marked⟩ := splitExponent_some isExponent
        obtain ⟨fraction, isMantissa, isFraction⟩ := mantissa_parts mantissa
        obtain ⟨nonempty, digits⟩ := not_or.mp present
        generalize (splitOnce (· == '.') mantissa).getD (mantissa, []) = parts at *
        have spelled : Spelling.Valid ⟨parts.1, fraction, part⟩ := by
          refine ⟨?_, fun empty => nonempty ?_, marked⟩
          · rw [Spelling.digits, Spelling.fractional, isFraction, List.all_append]
            simpa using digits
          · rw [Spelling.digits, Spelling.fractional, isFraction] at empty
            exact List.append_eq_nil_iff.mp empty
        refine ⟨_, spelled, isText.trans ?_, ?_⟩
        · rw [Spelling.chars, Spelling.mantissa, ← isMantissa]
        · rw [Spelling.ExponentFits, Spelling.exponentValue, isExponentValue]
          exact fits

/-! ### The parsed amount -/

namespace Spelling

/-- The place of the last digit, counted from the scaled unit. -/
def shift (spelling : Spelling) (scaleDigitCount : Nat) : Int :=
  spelling.exponentValue + scaleDigitCount - spelling.fractional.length

/-- The amount in scaled units. -/
def scaled (spelling : Spelling) (scaleDigitCount : Nat) : ℚ :=
  spelling.value * (10 ^ scaleDigitCount : Nat)

/-- A nonzero amount with its last digit out of sight is not checked against the policy. -/
def Unchecked (spelling : Spelling) (scaleDigitCount : Nat) (allowZero : Bool) : Prop :=
  allowZero = false ∧ spelling.value ≠ 0 ∧ spelling.shift scaleDigitCount < -38

theorem scaled_eq (spelling : Spelling) (scaleDigitCount : Nat) :
    spelling.scaled scaleDigitCount =
      (Nat.ofDigitChars 10 spelling.digits 0 : ℚ) * (10 : ℚ) ^ spelling.shift scaleDigitCount := by
  have powers : spelling.shift scaleDigitCount =
      (spelling.exponentValue - spelling.fractional.length) + (scaleDigitCount : Int) := by
    unfold shift
    omega
  rw [scaled, value, amountOf, powers, zpow_add₀ (by norm_num), zpow_natCast, mul_assoc]
  push_cast
  rfl

theorem value_eq_zero (spelling : Spelling) :
    spelling.value = 0 ↔ Nat.ofDigitChars 10 spelling.digits 0 = 0 := by
  have power : (10 : ℚ) ^ (spelling.exponentValue - (spelling.fractional.length : Int)) ≠ 0 :=
    zpow_ne_zero _ (by norm_num)
  rw [value, amountOf, mul_eq_zero, or_iff_left power, Nat.cast_eq_zero]

end Spelling

section

variable {text : String} {spelling : Spelling} {scaleDigitCount : Nat} {allowZero : Bool}

/-- An in-bounds spelling is answered as its value asks for. -/
theorem parse_inBounds (fits : 10 ^ scaleDigitCount ≤ u128Max) (valid : spelling.Valid)
    (spelled : (Text.trim text).toList = spelling.chars) (exponentFits : spelling.ExponentFits)
    (inBounds : spelling.InBounds) :
    parseDecimalToScaled text (10 ^ scaleDigitCount) allowZero =
        outcome (spelling.scaled scaleDigitCount) allowZero ∨
      spelling.Unchecked scaleDigitCount allowZero ∧
        parseDecimalToScaled text (10 ^ scaleDigitCount) allowZero = .ok 0 ∧
        roundHalfUp (spelling.scaled scaleDigitCount) = 0 := by
  have answer : parseDecimalToScaled text (10 ^ scaleDigitCount) allowZero =
      if Nat.ofDigitChars 10 spelling.digits 0 ≠ 0 ∧ spelling.shift scaleDigitCount < -38 then .ok 0
      else outcome (spelling.scaled scaleDigitCount) allowZero := by
    rw [parse_chars valid spelled, if_pos ⟨exponentFits.1, exponentFits.2⟩,
      scaleDigits_spec valid.digits exponentFits.1 exponentFits.2 fits allowZero inBounds.1
        inBounds.2, spelling.scaled_eq]
    rfl
  rw [answer]
  split
  next tiny =>
    have bounded : Nat.ofDigitChars 10 spelling.digits 0 < 10 ^ 38 := by
      rw [← dropZeros_value]
      refine lt_of_lt_of_le (digits_lt ?_) (Nat.pow_le_pow_right (by decide) inBounds.1)
      exact List.all_eq_true.mpr fun digit member =>
        List.all_eq_true.mp valid.digits digit (List.dropWhile_subset _ member)
    have rounded : roundHalfUp (spelling.scaled scaleDigitCount) = 0 := by
      rw [spelling.scaled_eq]
      exact roundHalfUp_tiny bounded tiny.2
    cases allowZero with
    | true =>
        left
        rw [outcome, rounded]
        rfl
    | false =>
        exact .inr ⟨⟨rfl, fun zero => tiny.1 (spelling.value_eq_zero.mp zero), tiny.2⟩, rfl, rounded⟩
  · exact .inl rfl

/-- Beyond the digit bounds only zero is an amount. -/
theorem parse_outOfBounds (valid : spelling.Valid)
    (spelled : (Text.trim text).toList = spelling.chars) (exponentFits : spelling.ExponentFits)
    (outOfBounds : ¬spelling.InBounds) (scale : Nat) :
    parseDecimalToScaled text scale allowZero =
      if spelling.value = 0 ∧ allowZero = true then .ok 0 else .error .invalidAmount := by
  rw [parse_chars valid spelled, if_pos ⟨exponentFits.1, exponentFits.2⟩]
  unfold scaleDigits
  dsimp only
  split
  next none =>
    have zero := spelling.value_eq_zero.mpr (dropZeros_empty none)
    simp [zero]
  next some =>
    have nonzero : ¬(spelling.value = 0 ∧ allowZero = true) := fun holds =>
      (dropZeros_positive valid.digits some).ne' (spelling.value_eq_zero.mp holds.1)
    rw [if_neg nonzero, if_pos (by unfold Spelling.InBounds at outOfBounds; omega)]

private theorem outcome_ok {scaled : ℚ} {amount : Nat} (accepted : outcome scaled allowZero = .ok amount) :
    amount = roundHalfUp scaled ∧ (allowZero = false → amount ≠ 0) := by
  unfold outcome acceptAmount at accepted
  split at accepted
  · cases accepted
  split at accepted
  next checked =>
    cases accepted
    refine ⟨rfl, fun strict zero => ?_⟩
    rcases checked with positive | allowed
    · exact absurd zero (Nat.ne_of_gt positive)
    · rw [strict] at allowed
      cases allowed
  · cases accepted

private theorem outcome_overflow {scaled : ℚ} (overflows : outcome scaled allowZero = .error .overflow) :
    u64Max < roundHalfUp scaled := by
  unfold outcome acceptAmount at overflows
  split at overflows
  next large => exact large
  split at overflows <;> cases overflows

private theorem roundHalfUp_zero : roundHalfUp 0 = 0 := by exact_mod_cast roundHalfUp_natCast 0

/-- The parsed amount is that of the text; in-bounds spellings of one value have one answer. -/
theorem parseDecimalToScaled_exact (fits : 10 ^ scaleDigitCount ≤ u128Max) (text : String)
    (allowZero : Bool) :
    (∀ amount, parseDecimalToScaled text (10 ^ scaleDigitCount) allowZero = .ok amount →
      ∃ spelling : Spelling, spelling.Valid ∧ (Text.trim text).toList = spelling.chars ∧
        amount = roundHalfUp (spelling.scaled scaleDigitCount) ∧
        (allowZero = false → amount = 0 → spelling.Unchecked scaleDigitCount allowZero)) ∧
    (parseDecimalToScaled text (10 ^ scaleDigitCount) allowZero = .error .overflow →
      ∃ spelling : Spelling, spelling.Valid ∧ (Text.trim text).toList = spelling.chars ∧
        u64Max < roundHalfUp (spelling.scaled scaleDigitCount)) ∧
    ∀ spelling : Spelling, spelling.Valid → (Text.trim text).toList = spelling.chars →
      spelling.ExponentFits →
      (spelling.InBounds → ¬spelling.Unchecked scaleDigitCount allowZero →
        parseDecimalToScaled text (10 ^ scaleDigitCount) allowZero =
            outcome (spelling.scaled scaleDigitCount) allowZero ∧
        ∀ (other : String) (same : Spelling), same.Valid → (Text.trim other).toList = same.chars →
          same.ExponentFits → same.InBounds → ¬same.Unchecked scaleDigitCount allowZero →
          same.value = spelling.value →
          parseDecimalToScaled other (10 ^ scaleDigitCount) allowZero =
            parseDecimalToScaled text (10 ^ scaleDigitCount) allowZero) ∧
      (¬spelling.InBounds → parseDecimalToScaled text (10 ^ scaleDigitCount) allowZero =
        if spelling.value = 0 ∧ allowZero = true then .ok 0 else .error .invalidAmount) := by
  have roundsZero : ∀ spelling : Spelling, spelling.value = 0 →
      roundHalfUp (spelling.scaled scaleDigitCount) = 0 := by
    intro spelling zero
    rw [Spelling.scaled, zero, zero_mul, roundHalfUp_zero]
  refine ⟨fun amount accepted => ?_, fun overflows => ?_, fun spelling valid spelled exponentFits =>
    ⟨fun inBounds checked => ?_, fun outOfBounds =>
      parse_outOfBounds valid spelled exponentFits outOfBounds _⟩⟩
  · obtain ⟨spelling, valid, spelled, exponentFits⟩ := spelling_of_parse
      (show parseDecimalToScaled text (10 ^ scaleDigitCount) allowZero ≠ _ by rw [accepted]; nofun)
    refine ⟨spelling, valid, spelled, ?_⟩
    by_cases inBounds : spelling.InBounds
    · rcases parse_inBounds fits valid spelled exponentFits inBounds with answer |
        ⟨unchecked, answer, zero⟩
      · obtain ⟨same, positive⟩ := outcome_ok (answer.symm.trans accepted)
        exact ⟨same, fun strict isZero => absurd isZero (positive strict)⟩
      · cases answer.symm.trans accepted
        exact ⟨zero.symm, fun _ _ => unchecked⟩
    · have answer : parseDecimalToScaled text (10 ^ scaleDigitCount) allowZero = _ :=
        parse_outOfBounds valid spelled exponentFits inBounds _
      rw [accepted] at answer
      split at answer
      next zero =>
        cases answer
        refine ⟨(roundsZero spelling zero.1).symm, fun strict _ => ?_⟩
        rw [strict] at zero
        cases zero.2
      · cases answer
  · obtain ⟨spelling, valid, spelled, exponentFits⟩ := spelling_of_parse
      (show parseDecimalToScaled text (10 ^ scaleDigitCount) allowZero ≠ _ by rw [overflows]; nofun)
    refine ⟨spelling, valid, spelled, ?_⟩
    by_cases inBounds : spelling.InBounds
    · rcases parse_inBounds fits valid spelled exponentFits inBounds with answer | ⟨_, answer, _⟩
      · exact outcome_overflow (answer.symm.trans overflows)
      · cases answer.symm.trans overflows
    · have answer : parseDecimalToScaled text (10 ^ scaleDigitCount) allowZero = _ :=
        parse_outOfBounds valid spelled exponentFits inBounds _
      rw [overflows] at answer
      split at answer <;> cases answer
  · have answered : ∀ {text : String} {spelling : Spelling}, spelling.Valid →
        (Text.trim text).toList = spelling.chars → spelling.ExponentFits → spelling.InBounds →
        ¬spelling.Unchecked scaleDigitCount allowZero →
        parseDecimalToScaled text (10 ^ scaleDigitCount) allowZero =
          outcome (spelling.scaled scaleDigitCount) allowZero := by
      intro text spelling valid spelled exponentFits inBounds checked
      exact (parse_inBounds fits valid spelled exponentFits inBounds).resolve_right
        fun unchecked => checked unchecked.1
    have answer := answered valid spelled exponentFits inBounds checked
    refine ⟨answer, fun other same sameValid otherSpelled sameFits sameInBounds sameChecked value => ?_⟩
    rw [answered sameValid otherSpelled sameFits sameInBounds sameChecked, answer,
      Spelling.scaled, Spelling.scaled, value]

end

/-- A published price per token, in micro-USD per million. -/
def tokenPrice : Spelling := ⟨['2'], some ['5'], some ('e', ['-', '6'])⟩

theorem parseDecimalToScaled_tokenPrice : 10 ^ 12 ≤ u128Max ∧
    parseDecimalToScaled "2.5e-6" (10 ^ 12) true = outcome (tokenPrice.scaled 12) true := by
  have valid : tokenPrice.Valid := by
    refine ⟨by decide, by decide, fun exponent isExponent => ?_⟩
    cases isExponent
    exact ⟨.inl rfl, by decide⟩
  have fits : 10 ^ 12 ≤ u128Max := by decide
  exact ⟨fits, (((parseDecimalToScaled_exact fits "2.5e-6" true).2.2 tokenPrice valid (by decide)
    ⟨by decide, by decide⟩).1 ⟨by decide, by decide⟩ fun unchecked => by cases unchecked.1).1⟩

/-- One value with its exponent at the end of the range, and beyond it. -/
def lastExponent : Spelling := ⟨['0'], some ['1'], some ('e', "-2147483648".toList)⟩

def nextExponent : Spelling := ⟨['1'], none, some ('e', "-2147483649".toList)⟩

theorem exponentRange_decides :
    lastExponent.Valid ∧ nextExponent.Valid ∧ lastExponent.InBounds ∧ nextExponent.InBounds ∧
      lastExponent.value = nextExponent.value ∧
      (Text.trim "0.1e-2147483648").toList = lastExponent.chars ∧
      (Text.trim "1e-2147483649").toList = nextExponent.chars ∧
      parseDecimalToScaled "0.1e-2147483648" (10 ^ 12) true = .ok 0 ∧
      parseDecimalToScaled "1e-2147483649" (10 ^ 12) true = .error .invalidAmount := by
  have validFirst : lastExponent.Valid := by
    refine ⟨by decide, by decide, fun exponent isExponent => ?_⟩
    cases isExponent
    exact ⟨.inl rfl, by decide⟩
  have validSecond : nextExponent.Valid := by
    refine ⟨by decide, by decide, fun exponent isExponent => ?_⟩
    cases isExponent
    exact ⟨.inl rfl, by decide⟩
  have first : (Text.trim "0.1e-2147483648").toList = lastExponent.chars := by decide
  have second : (Text.trim "1e-2147483649").toList = nextExponent.chars := by decide
  refine ⟨validFirst, validSecond, ⟨by decide, by decide⟩, ⟨by decide, by decide⟩, ?_, first, second,
    ?_, ?_⟩
  · have digits : Nat.ofDigitChars 10 lastExponent.digits 0 =
        Nat.ofDigitChars 10 nextExponent.digits 0 := by decide
    have powers : lastExponent.exponentValue - lastExponent.fractional.length =
        nextExponent.exponentValue - nextExponent.fractional.length := by decide
    rw [Spelling.value, Spelling.value, amountOf, amountOf, digits, powers]
  · rw [parse_chars validFirst first, if_pos (by decide),
      scaleDigits_spec validFirst.digits (by decide) (by decide) (by decide) true (by decide)
        (by decide), if_pos (by decide)]
  · rw [parse_chars validSecond second, if_neg (by decide)]

end ZenithRelay.Pricing
