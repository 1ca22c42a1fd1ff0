import ZenithRelay.Foundations.Integers
import ZenithRelay.Foundations.Text

/-!
# Decimal amounts

Non-negative decimal text, plain or scientific, as a whole number of scaled units. Only
integer arithmetic is used, and all of it is checked.
-/

set_option autoImplicit false

namespace ZenithRelay.Pricing

inductive PricingError
  | invalidAmount
  | overflow
  deriving DecidableEq, Repr

def u128Max : Nat := 2 ^ 128 - 1

/-- A `u128` or `i64` result, or the error that an overflow is reported as. -/
def checkedU128 (value : Nat) (error : PricingError) : Except PricingError Nat :=
  if value ≤ u128Max then .ok value else .error error

def checkedI64 (value : Int) (error : PricingError) : Except PricingError Int :=
  if i64Min ≤ value ∧ value ≤ i64Max then .ok value else .error error

def i32Min : Int := -2147483648
def i32Max : Int := 2147483647

/-- An integer of any size: a sign or none, then at least one digit. -/
def signedDigits (text : List Char) : Option Int :=
  let magnitude (digits : List Char) : Option Int :=
    if digits ≠ [] ∧ digits.all Char.isDigit then some (Nat.ofDigitChars 10 digits 0) else none
  match text with
  | '-' :: digits => (magnitude digits).map (- ·)
  | '+' :: digits => magnitude digits
  | digits => magnitude digits

/-- `str::parse::<i32>`. -/
def parseI32 (text : List Char) : Option Int :=
  (signedDigits text).filter fun value => i32Min ≤ value && value ≤ i32Max

/-- `str::split_once`. -/
def splitOnce (separates : Char → Bool) : List Char → Option (List Char × List Char)
  | [] => none
  | character :: text =>
    if separates character = true then some ([], text)
    else (splitOnce separates text).map fun parts => (character :: parts.1, parts.2)

/-- The exponent of ten, if the value is a power of ten. -/
def decimalDigits (decimalValue : Nat) : Option Nat :=
  if decimalValue = 0 then none
  else if decimalValue % 10 = 0 then (decimalDigits (decimalValue / 10)).map (· + 1)
  else if decimalValue = 1 then some 0 else none
termination_by decimalValue
decreasing_by omega

/-- The scaled amount where the shift is not negative. -/
def shiftUp (digits power : Nat) : Except PricingError Nat :=
  if 38 < power then .error .overflow
  else do
    let factor ← checkedU128 (10 ^ power) .overflow
    checkedU128 (digits * factor) .overflow

/-- The rounded amount where the shift is negative. -/
def shiftDown (digits power : Nat) : Except PricingError Nat := do
  let divisor ← checkedU128 (10 ^ power) .overflow
  let quotient := digits / divisor
  let remainder := digits % divisor
  checkedU128 (quotient + if (divisor + 1) / 2 ≤ remainder then 1 else 0) .overflow

/-- The `u64` result, and the policy for zero. -/
def acceptAmount (allowZero : Bool) (scaledAmount : Nat) : Except PricingError Nat :=
  if u64Max < scaledAmount then .error .overflow
  else if 0 < scaledAmount ∨ allowZero = true then .ok scaledAmount
  else .error .invalidAmount

/-- `parse_decimal_to_scaled` once the digits of the mantissa are found. -/
def scaleDigits (digits : List Char) (fractionalLength : Nat) (exponent : Int) (scale : Nat)
    (allowZero : Bool) : Except PricingError Nat :=
  let digits := digits.dropWhile (· == '0')
  if digits = [] then if allowZero = true then .ok 0 else .error .invalidAmount
  else if 38 < digits.length ∨ 38 < fractionalLength then .error .invalidAmount
  else do
    let digits ← checkedU128 (Nat.ofDigitChars 10 digits 0) .invalidAmount
    let scaleDigits ← (decimalDigits scale).elim (.error .invalidAmount) .ok
    let shift ← checkedI64 (exponent + scaleDigits) .overflow
    let shift ← checkedI64 (shift - fractionalLength) .overflow
    if 0 ≤ shift then
      let scaledAmount ← shiftUp digits shift.toNat
      acceptAmount allowZero scaledAmount
    else if 38 < shift.natAbs then .ok 0
    else
      let scaledAmount ← shiftDown digits shift.natAbs
      acceptAmount allowZero scaledAmount

/-- The mantissa and the exponent of the text. -/
def splitExponent (text : List Char) : Option (List Char × Int) :=
  match splitOnce (fun character => character == 'e' || character == 'E') text with
  | some (mantissa, exponent) => (parseI32 exponent).map fun exponent => (mantissa, exponent)
  | none => some (text, 0)

def parseDecimalToScaled (text : String) (scale : Nat) (allowZero : Bool) :
    Except PricingError Nat :=
  let text := (Text.trim text).toList
  if text = [] ∨ text.head? = some '-' ∨ text.head? = some '+' then .error .invalidAmount
  else
    match splitExponent text with
    | none => .error .invalidAmount
    | some (mantissa, exponent) =>
      if 1 < mantissa.count '.' then .error .invalidAmount
      else
        let (whole, fractional) := (splitOnce (· == '.') mantissa).getD (mantissa, [])
        if (whole = [] ∧ fractional = []) ∨ ¬whole.all Char.isDigit ∨ ¬fractional.all Char.isDigit then
          .error .invalidAmount
        else scaleDigits (whole ++ fractional) fractional.length exponent scale allowZero

end ZenithRelay.Pricing
