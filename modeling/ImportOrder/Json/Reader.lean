import ImportOrder.Json.Numeral
import ImportOrder.Json.Value
import ImportOrder.Text.CodeUnit

/-!
# Reading JSON

JSON is read strictly: no comments, no trailing commas, nothing before or after the value but
blanks. A value can be built or only skipped. Where a value is built, arrays and objects nest at
most 127 deep, numbers are in range and no half of a surrogate pair stands alone; where it is
skipped, none of this is asked.

## Main definitions

- `Json.Reader`: a reader takes a piece off the front of a text
- `Json.value`: builds a value
- `Json.skipped`: skips a value
- `Json.parse?`: the value of a whole text
-/

namespace ImportOrder.Json

/-- A reader takes a piece off the front of a text. -/
abbrev Reader (α : Type) := Text → Option (α × Text)

/-- Is the character a blank between the pieces of JSON? -/
def isBlank (c : Char) : Bool :=
  c == ' ' || c == '\n' || c == '\t' || c == '\r'

/-- What follows the blanks at the front. -/
def skipBlanks (text : Text) : Text :=
  text.dropWhile isBlank

/-- The unit that a backslash and a character stand for. -/
def escapeUnit? (c : Char) : Option Nat :=
  match c with
  | '"' | '\\' | '/' => some c.toNat
  | 'b' => some 8
  | 'f' => some 12
  | 'n' => some 10
  | 'r' => some 13
  | 't' => some 9
  | _ => none

/-- The units of a string behind its opening quote, and what follows its closing quote. -/
def stringUnits : Reader (List Nat)
  | [] => none
  | '"' :: text => some ([], text)
  | '\\' :: 'u' :: a :: b :: c :: d :: text => do
    let unit ← CodeUnit.hexNumber? [a, b, c, d]
    let (units, rest) ← stringUnits text
    return (unit :: units, rest)
  | '\\' :: c :: text => do
    let unit ← escapeUnit? c
    let (units, rest) ← stringUnits text
    return (unit :: units, rest)
  | c :: text =>
    if c.toNat < 0x20 then none
    else (stringUnits text).map fun (units, rest) => (c.toNat :: units, rest)

/-- A string behind its opening quote. -/
def stringTail : Reader String := fun text => do
  let (units, rest) ← stringUnits text
  let points := CodeUnit.joinPairs units
  if points.any CodeUnit.isHalf then none
  else some (String.ofList (points.map Char.ofNat), rest)

/-- A string with its quotes. -/
def quoted : Reader String := fun text =>
  match skipBlanks text with
  | '"' :: rest => stringTail rest
  | _ => none

/-- Items with commas between them, at least one, up to a closing mark. One item uses up one unit of
`fuel`. -/
def itemsIn (item : Reader α) (close : Char) : (fuel : Nat) → Reader (List α)
  | 0, _ => none
  | fuel + 1, text => do
    let (first, rest) ← item text
    match skipBlanks rest with
    | c :: rest =>
      if c = ',' then (itemsIn item close fuel rest).map fun (items, rest) => (first :: items, rest)
      else if c = close then some ([first], rest)
      else none
    | [] => none

/-- Items with commas between them up to a closing mark, behind the opening mark. -/
def delimited (item : Reader α) (close : Char) : Reader (List α) := fun text =>
  match skipBlanks text with
  | c :: rest =>
    if c = close then some ([], rest) else itemsIn item close (rest.length + 1) (c :: rest)
  | [] => none

/-- The colon behind a key, and the piece behind the colon. -/
def behindColon (item : Reader α) : Reader α := fun text =>
  match skipBlanks text with
  | ':' :: rest => item rest
  | _ => none

/-- A member of an object. -/
def member (item : Reader α) : Reader (String × α) := fun text => do
  let (key, rest) ← quoted text
  let (value, rest) ← behindColon item rest
  return ((key, value), rest)

/-- Takes a word off the front. -/
def literal (word : String) (value : α) : Reader α := fun text =>
  if word.toList.isPrefixOf text then some (value, text.drop word.length) else none

/-- A number in range. -/
def numberValue : Reader Json := fun text => do
  let (numeral, rest) ← Numeral.read? text
  if numeral.inRange then some (.number, rest) else none

/-- A value that is neither an array nor an object, without blanks before it. -/
def scalar : Reader Json := fun text =>
  match text with
  | '"' :: rest => (stringTail rest).map fun (s, rest) => (.string s, rest)
  | 'n' :: _ => literal "null" .null text
  | 't' :: _ => literal "true" (.bool true) text
  | 'f' :: _ => literal "false" (.bool false) text
  | _ => numberValue text

/-- Builds a value in which arrays and objects nest at most `depth` deep. -/
def value : (depth : Nat) → Reader Json
  | 0, text => scalar (skipBlanks text)
  | depth + 1, text => match skipBlanks text with
    | '[' :: rest =>
      (delimited (value depth) ']' rest).map fun (elements, rest) => (.array elements, rest)
    | '{' :: rest =>
      (delimited (member (value depth)) '}' rest).map fun (members, rest) => (.object members, rest)
    | rest => scalar rest

/-- Skips a string with its quotes. -/
def skippedString : Reader Unit := fun text =>
  match skipBlanks text with
  | '"' :: rest => (stringUnits rest).map fun (_, rest) => ((), rest)
  | _ => none

/-- Skips a member of an object. -/
def skippedMember (item : Reader Unit) : Reader Unit := fun text => do
  let (_, rest) ← skippedString text
  behindColon item rest

/-- Skips a value that is neither an array nor an object, without blanks before it. -/
def skippedScalar : Reader Unit := fun text =>
  match text with
  | '"' :: rest => (stringUnits rest).map fun (_, rest) => ((), rest)
  | 'n' :: _ => literal "null" () text
  | 't' :: _ => literal "true" () text
  | 'f' :: _ => literal "false" () text
  | _ => (Numeral.read? text).map fun (_, rest) => ((), rest)

/-- Skips a value in which arrays and objects nest at most `depth` deep. -/
def skippedIn : (depth : Nat) → Reader Unit
  | 0, text => skippedScalar (skipBlanks text)
  | depth + 1, text => match skipBlanks text with
    | '[' :: rest => (delimited (skippedIn depth) ']' rest).map fun (_, rest) => ((), rest)
    | '{' :: rest =>
      (delimited (skippedMember (skippedIn depth)) '}' rest).map fun (_, rest) => ((), rest)
    | rest => skippedScalar rest

/-- Skips a value. A text cannot nest deeper than it is long. -/
def skipped : Reader Unit := fun text =>
  skippedIn text.length text

/-- How deep arrays and objects may nest in a value that is built. -/
def depthLimit : Nat := 127

/-- What a reader makes of a whole text, which may end in blanks. -/
def whole? (reader : Reader α) (text : Text) : Option α := do
  let (result, rest) ← reader text
  if (skipBlanks rest).isEmpty then some result else none

/-- The value of a whole text. -/
def parse? (text : Text) : Option Json :=
  whole? (value depthLimit) text

end ImportOrder.Json
