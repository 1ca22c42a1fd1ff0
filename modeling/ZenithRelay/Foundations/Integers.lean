import Mathlib

/-!
# Fixed-width integers

Machine integers are `Nat` and `Int` values; the operations whose result the
width limits are written out with their bound.
-/

set_option autoImplicit false

namespace ZenithRelay

def u8Max : Nat := 255
def u16Max : Nat := 65535
def u32Max : Nat := 4294967295
def u64Max : Nat := 18446744073709551615
/-- Of a 64-bit target. -/
def usizeMax : Nat := u64Max
def i64Max : Int := 9223372036854775807
def i64Min : Int := -9223372036854775808

/-- `saturating_add` of an unsigned width with maximum `bound`. -/
def saturatingAdd (bound left right : Nat) : Nat := min (left + right) bound

/-- `saturating_mul` of an unsigned width with maximum `bound`. -/
def saturatingMul (bound left right : Nat) : Nat := min (left * right) bound

/-- `saturating_pow` of an unsigned width with maximum `bound`. -/
def saturatingPow (bound base exponent : Nat) : Nat := min (base ^ exponent) bound

def saturatingAddI64 (left right : Int) : Int := max i64Min (min (left + right) i64Max)

def saturatingSubI64 (left right : Int) : Int := max i64Min (min (left - right) i64Max)

theorem saturatingAdd_eq {bound left right : Nat} (fits : left + right ≤ bound) :
    saturatingAdd bound left right = left + right := Nat.min_eq_left fits

theorem saturatingAdd_le (bound left right : Nat) : saturatingAdd bound left right ≤ bound :=
  Nat.min_le_right _ _

theorem le_saturatingAdd {bound left right : Nat} (fits : left ≤ bound) :
    left ≤ saturatingAdd bound left right :=
  Nat.le_min.mpr ⟨Nat.le_add_right _ _, fits⟩

theorem saturatingAddI64_eq {left right : Int} (low : i64Min ≤ left + right)
    (high : left + right ≤ i64Max) : saturatingAddI64 left right = left + right := by
  rw [saturatingAddI64, min_eq_left high, max_eq_right low]

theorem saturatingSubI64_eq {left right : Int} (low : i64Min ≤ left - right)
    (high : left - right ≤ i64Max) : saturatingSubI64 left right = left - right := by
  rw [saturatingSubI64, min_eq_left high, max_eq_right low]

end ZenithRelay
