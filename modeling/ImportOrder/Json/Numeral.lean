import ImportOrder.Text.Basic

/-!
# Numbers in JSON

A numeral is read as its digits. Where a value is built of it, it must not exceed the range of
binary floating point numbers with 53 significant bits and exponents below 1024.

## Main definitions

- `Json.Numeral`, `Json.Numeral.read?`
- `Json.Numeral.inRange`: can the number be represented?

## Design notes

The value is computed as a significand below `2 ^ 64` times a power of ten. Digits that do not fit
the significand are dropped: those before the point raise the exponent, those after it do not count.
The significand and the power are rounded to 53 bits each, and so is their product, ties to even.
-/

namespace ImportOrder.Json

/-- A number as it is written, without its sign. -/
structure Numeral where
  /-- The digits before the point. -/
  whole : Text
  /-- The digits behind the point. -/
  fraction : Text
  /-- Is the exponent negative? -/
  shrinks : Bool
  /-- The digits of the exponent. -/
  exponent : Text
deriving DecidableEq, Repr, Inhabited

namespace Numeral

/-- The digits before the point: a zero alone, or digits that do not start with a zero. -/
def readWhole? (text : Text) : Option (Text × Text) :=
  match text.takeWhile Char.isDigit with
  | [] => none
  | '0' :: _ :: _ => none
  | digits => some (digits, text.dropWhile Char.isDigit)

/-- One digit or more. -/
def readDigits? (text : Text) : Option (Text × Text) :=
  match text.takeWhile Char.isDigit with
  | [] => none
  | digits => some (digits, text.dropWhile Char.isDigit)

/-- The point and the digits behind it, if there is a point. -/
def readFraction? : Text → Option (Text × Text)
  | '.' :: text => readDigits? text
  | text => some ([], text)

/-- The sign and the digits of the exponent, if there is one. -/
def readExponent? : Text → Option (Bool × Text × Text)
  | e :: text =>
    if e = 'e' ∨ e = 'E' then
      match text with
      | '+' :: rest => (readDigits? rest).map (false, ·)
      | '-' :: rest => (readDigits? rest).map (true, ·)
      | rest => (readDigits? rest).map (false, ·)
    else some (false, [], e :: text)
  | [] => some (false, [], [])

/-- The number at the front of a text, and what follows it. -/
def read? (text : Text) : Option (Numeral × Text) := do
  let unsigned := match text with
    | '-' :: rest => rest
    | rest => rest
  let (whole, rest) ← readWhole? unsigned
  let (fraction, rest) ← readFraction? rest
  let (shrinks, exponent, rest) ← readExponent? rest
  return (⟨whole, fraction, shrinks, exponent⟩, rest)

/-- The value of a digit. -/
def digit (c : Char) : Nat := c.toNat - '0'.toNat

/-- Can the significand take one more digit? -/
def fits (significand : Nat) (c : Char) : Bool :=
  10 * significand + digit c < Nat.pow 2 64

/-- The significand and exponent after the digits before the point, given those so far. Once a digit
does not fit, it and all after it raise the exponent. -/
def takeWhole : (significand : Nat) → Text → Nat × Nat
  | significand, [] => (significand, 0)
  | significand, c :: digits =>
    if fits significand c then takeWhole (10 * significand + digit c) digits
    else (significand, digits.length + 1)

/-- The significand after the digits behind the point, and how many of them it took. -/
def takeFraction : (significand : Nat) → Text → Nat × Nat
  | significand, [] => (significand, 0)
  | significand, c :: digits =>
    if fits significand c then
      let (total, taken) := takeFraction (10 * significand + digit c) digits
      (total, taken + 1)
    else (significand, 0)

/-- The number that decimal digits write. -/
def decimal (digits : Text) : Nat :=
  digits.foldl (fun n c => 10 * n + digit c) 0

/-- The nearest number with 53 significant bits; of two that are equally near, the one whose last
bit is zero. -/
def round53 (n : Nat) : Nat :=
  if n < Nat.pow 2 53 then n
  else
    let unit := Nat.pow 2 (n.log2 - 52)
    let down := n / unit
    let rest := n % unit
    if 2 * rest > unit ∨ (2 * rest = unit ∧ down % 2 = 1) then (down + 1) * unit else down * unit

/-- Does the number stay below the largest power of two that is out of range? -/
def inRange (numeral : Numeral) : Bool :=
  let (whole, dropped) := takeWhole 0 numeral.whole
  let (significand, taken) := takeFraction whole numeral.fraction
  let shift := decimal numeral.exponent
  let raised := dropped + if numeral.shrinks then 0 else shift
  let lowered := taken + if numeral.shrinks then shift else 0
  if significand = 0 ∨ raised ≤ lowered then true
  else if raised - lowered > 308 then false
  else round53 (round53 significand * round53 (Nat.pow 10 (raised - lowered))) <
    Nat.pow 2 1024

end Numeral

end ImportOrder.Json
