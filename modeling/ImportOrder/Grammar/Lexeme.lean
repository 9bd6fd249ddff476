import ImportOrder.Character.Identifier
import ImportOrder.Grammar.StringLiteral

/-!
# Lexemes

The words, numbers, strings and marks that a file is made of. Where the meaning of a character hangs
on its surroundings, the lexeme is the shortest piece that all readings share, and the grammar goes
on from there: a backquote opens a template, a slash may open a regular expression, and `>` is
always a mark of its own.

## Main definitions

- `Lexeme`, `Lexeme.read`
- `Lexeme.regularExpression?`: what follows a regular expression
- `Lexeme.templateChunk?`: what follows a stretch of a template
-/

namespace ImportOrder

/-- The smallest pieces of a file. -/
inductive Lexeme where
  /-- A name or a keyword. -/
  | word (name : String)
  /-- A name with a leading `#`. -/
  | privateName
  /-- A number. -/
  | number
  /-- A string with its value. -/
  | string (value : String)
  /-- The backquote that opens a template. -/
  | template
  /-- A punctuation mark. -/
  | mark (text : String)
  /-- The end of the file. -/
  | finish
  /-- No lexeme starts here. -/
  | invalid
deriving DecidableEq, Repr, Inhabited

namespace Lexeme

open Character

/-- Can the character start a word? -/
def isWordStart (c : Char) : Bool :=
  c == '$' || c == '_' || startsIdentifier c

/-- Can the character continue a word? -/
def isWordPart (c : Char) : Bool :=
  c == '$' || continuesIdentifier c || c == '\u200c' || c == '\u200d'

/-- The word at the front with its escapes decoded, and what follows it. One character uses up one
unit of `fuel`. -/
def decodeWord : (fuel : Nat) → Text → Option (Text × Text)
  | 0, text => some ([], text)
  | _, [] => some ([], [])
  | fuel + 1, '\\' :: 'u' :: text => do
    let (points, text) ← StringLiteral.escape? ('u' :: text)
    let (name, rest) ← decodeWord fuel text
    return (points.map Char.ofNat ++ name, rest)
  | fuel + 1, c :: text =>
    if c = '\\' then none
    else if isWordPart c then (decodeWord fuel text).map fun (name, rest) => (c :: name, rest)
    else some ([], c :: text)

/-- The word at the front, which may hold escapes that name a character by its number. -/
def readWord (text : Text) : Lexeme × Text :=
  match text.dropWhile isWordPart with
  | '\\' :: _ => match decodeWord text.length text with
    | some (name, rest) => (.word (String.ofList name), rest)
    | none => (.invalid, [])
  | rest => (.word (String.ofList (text.takeWhile isWordPart)), rest)

/-- The marks of more than one character, the longest first. -/
def longMarks : List String :=
  ["===", "!==", "**=", "<<=", "&&=", "||=", "??=", "...", "==", "!=", "<=", "=>", "++", "--", "**",
    "&&", "||", "??", "?.", "+=", "-=", "*=", "/=", "%=", "&=", "|=", "^=", "<<"]

/-- The marks of one character. -/
def shortMarks : List Char :=
  "\x7b\x7d()[];,<>+-*/%&|^!~?:=.@".toList

/-- Digits and the underscores between them. -/
def isDigitPart (c : Char) : Bool :=
  c.isDigit || c == '_'

/-- What follows the exponent of a number, if one stands here. -/
def afterExponent (text : Text) : Text :=
  match text with
  | e :: s :: rest =>
    if e == 'e' || e == 'E' then
      if s.isDigit then rest.dropWhile isDigitPart
      else if (s == '+' || s == '-') && rest.head?.any Char.isDigit then rest.dropWhile isDigitPart
      else text
    else text
  | _ => text

/-- What follows the fraction and the exponent of a number whose integral part has been read. -/
def afterFraction : Text → Text
  | '.' :: text => afterExponent (text.dropWhile isDigitPart)
  | 'n' :: text => text
  | text => afterExponent text

/-- The test for digits of the base that a letter behind a zero names. -/
def radixDigit? (c : Char) : Option (Char → Bool) :=
  match c with
  | 'x' | 'X' => some fun d => (CodeUnit.hexDigit? d).isSome
  | 'o' | 'O' => some StringLiteral.isOctalDigit
  | 'b' | 'B' => some fun d => d == '0' || d == '1'
  | _ => none

/-- What follows the digits of a number behind the letter that names their base. -/
def afterRadix? (isDigit : Char → Bool) (text : Text) : Option Text :=
  if text.head?.any isDigit then
    match text.dropWhile fun d => isDigit d || d == '_' with
    | 'n' :: rest => some rest
    | rest => some rest
  else none

/-- What follows the number at the front. -/
def afterNumber? : Text → Option Text
  | '0' :: c :: text => match radixDigit? c with
    | some isDigit => afterRadix? isDigit text
    | none => some (afterFraction ((c :: text).dropWhile isDigitPart))
  | text => some (afterFraction (text.dropWhile isDigitPart))

/-- The number at the front, which no word may follow directly. -/
def readNumber (text : Text) : Lexeme × Text :=
  match afterNumber? text with
  | some rest =>
    if rest.head?.any fun c => isWordStart c || c.isDigit then (.invalid, []) else (.number, rest)
  | none => (.invalid, [])

/-- The mark at the front. A `?.` before a digit is the question mark of a conditional. -/
def readMark (text : Text) : Lexeme × Text :=
  match longMarks.find? (·.toList.isPrefixOf text) with
  | some "?." =>
    if (text.drop 2).head?.any Char.isDigit then (.mark "?", text.drop 1)
    else (.mark "?.", text.drop 2)
  | some m => (.mark m, text.drop m.length)
  | none => match text with
    | c :: rest =>
      if shortMarks.contains c then (.mark (String.singleton c), rest) else (.invalid, [])
    | [] => (.finish, [])

/-- The lexeme at the front of a text that starts with no blank or comment, and what follows it. -/
def read : Text → Lexeme × Text
  | [] => (.finish, [])
  | c :: text =>
    if isWordStart c || c == '\\' then readWord (c :: text)
    else if c.isDigit || (c == '.' && text.head?.any Char.isDigit) then readNumber (c :: text)
    else if c == '"' || c == '\'' then
      match StringLiteral.value? c text with
      | some (value, rest) => (.string value, rest)
      | none => (.invalid, [])
    else if c == '`' then (.template, text)
    else if c == '#' then
      if text.head?.any isWordStart then (.privateName, text.dropWhile isWordPart)
      else (.invalid, [])
    else readMark (c :: text)

/-- Does the character end a line? -/
def isLineEnd (c : Char) : Bool :=
  isLineBreak c || c == '\u2028' || c == '\u2029'

/-- What follows the closing slash of a regular expression; a slash in brackets does not close it.
-/
def afterPattern : (inBrackets : Bool) → Text → Option Text
  | _, [] => none
  | inBrackets, '\\' :: c :: text =>
    if isLineEnd c then none else afterPattern inBrackets text
  | inBrackets, c :: text =>
    if isLineEnd c then none
    else if c = '/' ∧ !inBrackets then some text
    else if c = '[' then afterPattern true text
    else if c = ']' then afterPattern false text
    else afterPattern inBrackets text

/-- What follows the regular expression behind an opening slash: each flag may stand once. -/
def regularExpression? (text : Text) : Option Text := do
  let rest ← afterPattern false text
  let flags := rest.takeWhile isWordPart
  if flags.all "dgimsuvy".toList.contains && flags.eraseDups.length == flags.length then
    some (rest.dropWhile isWordPart)
  else none

/-- What follows a stretch of a template, and whether the template ends there; otherwise a hole
starts. -/
def templateChunk? : Text → Option (Bool × Text)
  | [] => none
  | '`' :: text => some (true, text)
  | '$' :: '{' :: text => some (false, text)
  | '\\' :: _ :: text => templateChunk? text
  | _ :: text => templateChunk? text

end Lexeme

end ImportOrder
