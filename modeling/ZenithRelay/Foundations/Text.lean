import Mathlib

/-!
# Text

The parts of Rust's `str` and `char` that identifiers are checked with.
-/

set_option autoImplicit false

namespace ZenithRelay.Text

/-- `char::is_whitespace`: the Unicode `White_Space` property. -/
def isWhitespace (character : Char) : Bool :=
  let code := character.toNat
  (9 ≤ code && code ≤ 13) || code == 32 || code == 133 || code == 160 || code == 5760 ||
    (8192 ≤ code && code ≤ 8202) || code == 8232 || code == 8233 || code == 8239 ||
    code == 8287 || code == 12288

/-- `char::is_control`: the Unicode category `Cc`. -/
def isControl (character : Char) : Bool :=
  let code := character.toNat
  code ≤ 31 || (127 ≤ code && code ≤ 159)

def trim (text : String) : String :=
  String.ofList
    ((text.toList.dropWhile isWhitespace).reverse.dropWhile isWhitespace).reverse

/-- `str::eq_ignore_ascii_case`. -/
def eqIgnoreAsciiCase (left right : String) : Bool :=
  left.toList.map Char.toLower == right.toList.map Char.toLower

def toAsciiLowercase (text : String) : String := String.ofList (text.toList.map Char.toLower)

def startsWith (text start : String) : Bool := start.toList.isPrefixOf text.toList

def endsWith (text ending : String) : Bool := ending.toList.isSuffixOf text.toList

def stripSuffix (text ending : String) : Option String :=
  if endsWith text ending then
    some (String.ofList (text.toList.take (text.toList.length - ending.toList.length)))
  else none

@[simp] theorem eqIgnoreAsciiCase_refl (text : String) : eqIgnoreAsciiCase text text = true := by
  simp [eqIgnoreAsciiCase]

end ZenithRelay.Text
