import ImportOrder.Character.Base
import ImportOrder.Character.Lowercase
import ImportOrder.Character.Numeric

/-!
# Natural collation

The order in which names are sorted: letters compare without case and accents, and runs of digits
compare by their value, so that `file2` comes before `file10`. Characters sort as white space, then
punctuation in a fixed order, then digits, then letters.

## Main definitions

- `Collation.CharClass`, `Collation.Key`, `Collation.key`: the sort key of a character
- `Collation.compareNumbers`: digit runs by value
- `Collation.compareBases`: base characters from left to right
- `Collation.natural`: the order on names

## Design notes

Digit runs may be longer than any machine number, so their values are compared on the digits:
without leading zeros the longer run is the larger number, and runs of one length compare digit by
digit.
-/

namespace ImportOrder.Collation

/-- The classes of characters, in the order in which they sort. -/
inductive CharClass where
  /-- White space. -/
  | whiteSpace
  /-- What belongs to no other class. -/
  | punctuation
  /-- The ten ASCII digits. -/
  | digit
  /-- Letters and the numbers of other scripts. -/
  | letter
deriving DecidableEq, Repr, Inhabited

/-- The place of a class in the order. -/
def CharClass.rank : CharClass → Nat
  | whiteSpace => 0
  | punctuation => 1
  | digit => 2
  | letter => 3

/-- The sort key of a character: its class and its place within the class. -/
structure Key where
  /-- The class. -/
  charClass : CharClass
  /-- The place within the class. -/
  place : Nat
deriving DecidableEq, Repr, Inhabited

/-- Keys compare by class, then by place. -/
def Key.compare (k l : Key) : Ordering :=
  (Ord.compare k.charClass.rank l.charClass.rank).then (Ord.compare k.place l.place)

/-- The punctuation characters that have a place of their own, in order. -/
def punctuation : List Char :=
  "_-,;:!?.'\"()[]\x7b\x7d@*/\\&#%`^+<=>|~$".toList

/-- The place of a punctuation character: its index in the list, or behind the list by code point.
-/
def punctuationPlace (c : Char) : Nat :=
  match punctuation.idxOf? c with
  | some i => i
  | none => punctuation.length + c.toNat

/-- The sort key of a character. -/
def key (c : Char) : Key :=
  if Character.isWhiteSpace c then ⟨.whiteSpace, c.toNat⟩
  else if c.isDigit then ⟨.digit, c.toNat⟩
  else if Character.isAlphanumeric c then ⟨.letter, (Character.lowercase c).toNat⟩
  else ⟨.punctuation, punctuationPlace c⟩

/-- Compares lists of characters of one length from left to right by code point. -/
def compareDigits : List Char → List Char → Ordering
  | c :: cs, d :: ds => (Ord.compare c.toNat d.toNat).then (compareDigits cs ds)
  | [], [] => .eq
  | [], _ :: _ => .lt
  | _ :: _, [] => .gt

/-- Compares two runs of digits by the numbers they write. -/
def compareNumbers (a b : List Char) : Ordering :=
  let a := a.dropWhile (· == '0')
  let b := b.dropWhile (· == '0')
  (Ord.compare a.length b.length).then (compareDigits a b)

/-- Compares base characters from left to right. Where both sides stand at a digit the whole runs
are compared. One step uses up one unit of `fuel`. -/
def compareBasesIn : (fuel : Nat) → List Char → List Char → Ordering
  | 0, _, _ => .eq
  | _ + 1, [], [] => .eq
  | _ + 1, [], _ :: _ => .lt
  | _ + 1, _ :: _, [] => .gt
  | fuel + 1, c :: cs, d :: ds =>
    if c.isDigit && d.isDigit then
      (compareNumbers ((c :: cs).takeWhile Char.isDigit) ((d :: ds).takeWhile Char.isDigit)).then
        (compareBasesIn fuel ((c :: cs).dropWhile Char.isDigit) ((d :: ds).dropWhile Char.isDigit))
    else ((key c).compare (key d)).then (compareBasesIn fuel cs ds)

/-- Compares base characters from left to right; a text that goes on is the larger one. -/
def compareBases (a b : List Char) : Ordering :=
  compareBasesIn (a.length + 1) a b

/-- The natural order on names. -/
def natural (a b : String) : Ordering :=
  compareBases (Character.baseText a.toList) (Character.baseText b.toList)

end ImportOrder.Collation
