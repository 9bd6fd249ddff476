import ImportOrder.Text.CodeUnit

/-!
# String literals

A string literal is read in two steps: first its end is found, then the escapes of its body are
decoded. Escapes may name halves of a surrogate pair; two halves that meet form one character. A
half that stays alone cannot be a character, so the whole value is then written with the replacement
character as an escape: it comes before the four digits of the half, and before `fffd` where it
stands for itself.

## Main definitions

- `StringLiteral.body?`: the body of a literal and what follows its closing quote
- `StringLiteral.decode?`: the code points that a body stands for
- `StringLiteral.value?`: the value of a literal and what follows it
-/

namespace ImportOrder.StringLiteral

open CodeUnit

/-- The body up to the closing quote, and what follows the quote. A line break must be escaped. -/
def body? (quote : Char) : Text → Option (Text × Text)
  | [] => none
  | '\\' :: '\r' :: '\n' :: text =>
    (body? quote text).map fun (body, rest) => ('\\' :: '\r' :: '\n' :: body, rest)
  | '\\' :: c :: text => (body? quote text).map fun (body, rest) => ('\\' :: c :: body, rest)
  | c :: text =>
    if c = quote then some ([], text)
    else if c = '\n' ∨ c = '\r' then none
    else (body? quote text).map fun (body, rest) => (c :: body, rest)

/-- The character that a backslash and a letter stand for; other characters stand for themselves. -/
def simpleEscape (c : Char) : Nat :=
  match c with
  | 'n' => 10
  | 't' => 9
  | 'r' => 13
  | 'b' => 8
  | 'f' => 12
  | 'v' => 11
  | _ => c.toNat

/-- Is the character a digit of base eight? -/
def isOctalDigit (c : Char) : Bool :=
  '0' ≤ c && c ≤ '7'

/-- The digits of an octal escape: at most three, and at most two if the first is above three. -/
def octalDigits (text : Text) : Text :=
  let most := if text.head?.any (· ≤ '3') then 3 else 2
  (text.take most).takeWhile isOctalDigit

/-- The number that octal digits write. -/
def octalNumber (digits : Text) : Nat :=
  digits.foldl (fun n c => 8 * n + (c.toNat - '0'.toNat)) 0

/-- One escape behind its backslash: the code points that it stands for, and what follows it. -/
def escape? : Text → Option (List Nat × Text)
  | [] => none
  | '\r' :: '\n' :: text => some ([], text)
  | 'x' :: a :: b :: text => (hexNumber? [a, b]).map ([·], text)
  | 'x' :: _ => none
  | 'u' :: '{' :: text => do
    let digits := text.takeWhile (· != '}')
    let n ← hexNumber? digits
    match text.dropWhile (· != '}') with
    | _ :: rest => if n ≤ 0x10FFFF then some ([n], rest) else none
    | [] => none
  | 'u' :: a :: b :: c :: d :: text => (hexNumber? [a, b, c, d]).map ([·], text)
  | 'u' :: _ => none
  | c :: text =>
    if c = '\n' ∨ c = '\r' ∨ c = '\u2028' ∨ c = '\u2029' then some ([], text)
    else if isOctalDigit c then
      let digits := octalDigits (c :: text)
      some ([octalNumber digits], (c :: text).drop digits.length)
    else some ([simpleEscape c], text)

/-- The code points that a body stands for. One step uses up one unit of `fuel`. -/
def decodeIn : (fuel : Nat) → Text → Option (List Nat)
  | _, [] => some []
  | 0, _ :: _ => none
  | fuel + 1, '\\' :: text => do
    let (points, rest) ← escape? text
    return points ++ (← decodeIn fuel rest)
  | fuel + 1, c :: text => (decodeIn fuel text).map (c.toNat :: ·)

/-- The code points that a body stands for. -/
def decode? (body : Text) : Option (List Nat) :=
  decodeIn body.length body

/-- The four hexadecimal digits of a number below `0x10000`. -/
def fourDigits (n : Nat) : Text :=
  [n / 4096 % 16, n / 256 % 16, n / 16 % 16, n % 16].map Nat.digitChar

/-- The text of code points, with the halves that stand alone written out. -/
def spell (points : List Nat) : Text :=
  if points.any isHalf then
    points.flatMap fun n =>
      if isHalf n || n == 0xFFFD then '\uFFFD' :: fourDigits n
      else [Char.ofNat n]
  else points.map Char.ofNat

/-- The value of the literal behind an opening quote, and what follows it. -/
def value? (quote : Char) (text : Text) : Option (String × Text) := do
  let (body, rest) ← body? quote text
  let points ← decode? body
  return (String.ofList (spell (joinPairs points)), rest)

end ImportOrder.StringLiteral
