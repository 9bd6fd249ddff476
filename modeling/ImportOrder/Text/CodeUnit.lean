import ImportOrder.Text.Basic

/-!
# Code units

Hexadecimal digits and surrogate pairs, which escapes in string literals and in JSON are written
with. A list of units may hold the two halves of a pair apart; `CodeUnit.joinPairs` puts halves that
meet together.

## Main definitions

- `CodeUnit.hexDigit?`, `CodeUnit.hexNumber?`
- `CodeUnit.isHalf`, `CodeUnit.joinPairs`
-/

namespace ImportOrder.CodeUnit

/-- The value of a hexadecimal digit. -/
def hexDigit? (c : Char) : Option Nat :=
  if c.isDigit then some (c.toNat - '0'.toNat)
  else if 'a' ≤ c ∧ c ≤ 'f' then some (c.toNat - 'a'.toNat + 10)
  else if 'A' ≤ c ∧ c ≤ 'F' then some (c.toNat - 'A'.toNat + 10)
  else none

/-- The number that hexadecimal digits write; there must be at least one. -/
def hexNumber? (digits : Text) : Option Nat :=
  if digits.isEmpty then none
  else digits.foldl (fun n c => do return 16 * (← n) + (← hexDigit? c)) (some 0)

/-- Is the unit the first half of a surrogate pair? -/
def isHighHalf (n : Nat) : Bool := 0xD800 ≤ n && n ≤ 0xDBFF

/-- Is the unit the second half of a surrogate pair? -/
def isLowHalf (n : Nat) : Bool := 0xDC00 ≤ n && n ≤ 0xDFFF

/-- Is the unit a half of a surrogate pair? -/
def isHalf (n : Nat) : Bool := isHighHalf n || isLowHalf n

/-- The code point of a surrogate pair. -/
def pairPoint (high low : Nat) : Nat :=
  0x10000 + 0x400 * (high - 0xD800) + (low - 0xDC00)

/-- Joins the halves of surrogate pairs that meet. -/
def joinPairs : List Nat → List Nat
  | high :: low :: units =>
    if isHighHalf high && isLowHalf low then pairPoint high low :: joinPairs units
    else high :: joinPairs (low :: units)
  | units => units

end ImportOrder.CodeUnit
