import ImportOrder.Grammar.Dialect
import ImportOrder.Grammar.Lexeme

/-!
# Cursors

A cursor stands at a lexeme of a file. It knows the lexeme, the text from it on and behind it,
whether a line ended before it, and the comments passed so far. The grammar is written as
recognisers: functions that answer with the cursor behind the piece they recognise, if it stands
there.

## Main definitions

- `Scope`: what the surroundings of a lexeme allow
- `Cursor`, `Cursor.moveTo`, `Cursor.advance`
- `Recogniser` and its combinators

## Design notes

A cursor keeps tails of the text rather than offsets. An offset is the length of the file less the
length of a tail, and is only computed where one is asked for.
-/

namespace ImportOrder

/-- What the surroundings of a lexeme allow. -/
structure Scope where
  /-- The dialect of the file. -/
  dialect : Dialect
  /-- The length of the file in bytes. -/
  length : Nat
  /-- May `return` stand here? -/
  inFunction : Bool
  /-- Is `await` an operator? -/
  awaits : Bool
  /-- Is `yield` an operator? -/
  yields : Bool
  /-- Are declarations only announced? -/
  ambient : Bool
  /-- Is `in` an operator? -/
  allowsIn : Bool
  /-- Is this the first branch of a conditional, where a colon may end an arrow function? -/
  inBranch : Bool
  /-- May a type be conditional? -/
  allowsConditional : Bool
deriving DecidableEq, Repr, Inhabited

namespace Scope

/-- The scope of the top level of a file. -/
def top (dialect : Dialect) (length : Nat) : Scope where
  dialect := dialect
  length := length
  inFunction := false
  awaits := dialect.isModule
  yields := false
  ambient := false
  allowsIn := true
  inBranch := false
  allowsConditional := true

/-- The scope of a function body. -/
def inBody (isAsync isGenerator : Bool) (scope : Scope) : Scope :=
  { scope with
    inFunction := true
    awaits := isAsync
    yields := isGenerator
    allowsIn := true
    inBranch := false }

/-- The scope inside brackets, where `in` is an operator again. -/
def bracketed (scope : Scope) : Scope :=
  { scope with allowsIn := true, inBranch := false, allowsConditional := true }

end Scope

/-- A place in a file. -/
structure Cursor where
  /-- What surrounds the place. -/
  scope : Scope
  /-- What follows the lexeme before. -/
  last : Text
  /-- What the file holds from the lexeme on. -/
  rest : Text
  /-- The lexeme. -/
  lexeme : Lexeme
  /-- What follows the lexeme. -/
  after : Text
  /-- Did a line end before the lexeme? -/
  newline : Bool
  /-- The comments passed so far, latest first. -/
  comments : List Span
deriving DecidableEq, Repr, Inhabited

/-- A piece of the grammar: where it ends if it starts at a cursor. -/
abbrev Recogniser := Cursor → Option Cursor

/-- Where a skipping step stands, with the offset at which the comment it is in started. -/
inductive Gap where
  /-- Outside of comments. -/
  | blank
  /-- In a comment that ends with its line. -/
  | line (start : Nat)
  /-- In a comment that ends with `*/`. -/
  | block (start : Nat)
deriving DecidableEq, Repr

namespace Cursor

/-- Blanks between lexemes, ends of lines apart. -/
def isSpace (c : Char) : Bool :=
  (Character.isBlank c || c == '\u200b') && !Lexeme.isLineEnd c

/-- The offset in a file of the given length at which a tail of it starts. -/
def offsetIn (length : Nat) (tail : Text) : Nat :=
  length - tail.byteLength

/-- The text behind blanks and comments, whether a line ended among them, and the comments, latest
first; none if a comment is not closed. -/
def skipGap (length : Nat) :
    Gap → (newline : Bool) → List Span → Text → Option (Text × Bool × List Span)
  | .blank, newline, comments, [] => some ([], newline, comments)
  | .line start, newline, comments, [] => some ([], newline, ⟨start, length⟩ :: comments)
  | .block _, _, _, [] => none
  | .blank, newline, comments, '/' :: '/' :: text =>
    skipGap length (.line (offsetIn length ('/' :: '/' :: text))) newline comments text
  | .blank, newline, comments, '/' :: '*' :: text =>
    skipGap length (.block (offsetIn length ('/' :: '*' :: text))) newline comments text
  | .blank, newline, comments, c :: text =>
    if Lexeme.isLineEnd c then skipGap length .blank true comments text
    else if isSpace c then skipGap length .blank newline comments text
    else some (c :: text, newline, comments)
  | .line start, newline, comments, c :: text =>
    if Lexeme.isLineEnd c then
      skipGap length .blank true (⟨start, offsetIn length (c :: text)⟩ :: comments) text
    else skipGap length (.line start) newline comments text
  | .block start, newline, comments, '*' :: '/' :: text =>
    skipGap length .blank newline (⟨start, offsetIn length text⟩ :: comments) text
  | .block start, newline, comments, c :: text =>
    skipGap length (.block start) (newline || Lexeme.isLineEnd c) comments text

/-- The cursor at the first lexeme of a tail of the file. -/
def moveTo (cursor : Cursor) (text : Text) : Cursor :=
  match skipGap cursor.scope.length .blank false cursor.comments text with
  | none =>
    { cursor with
      last := text
      rest := text
      lexeme := .invalid
      after := []
      newline := false }
  | some (rest, newline, comments) =>
    let (lexeme, after) := Lexeme.read rest
    { cursor with
      last := text
      rest := rest
      lexeme := lexeme
      after := after
      newline := newline
      comments := comments }

/-- The cursor at the first lexeme of a file. A first line that starts with `#!` is a comment. -/
def start (dialect : Dialect) (text : Text) : Cursor :=
  let scope := Scope.top dialect text.byteLength
  let blank : Cursor := ⟨scope, text, text, .invalid, [], false, []⟩
  match text with
  | '#' :: '!' :: rest =>
    let tail : Text := rest.dropWhile fun c => !Lexeme.isLineEnd c
    { blank with comments := [⟨0, offsetIn scope.length tail⟩] }.moveTo tail
  | _ => blank.moveTo text

/-- The cursor at the next lexeme. -/
def advance (cursor : Cursor) : Cursor :=
  cursor.moveTo cursor.after

/-- The offset of the lexeme. -/
def startOffset (cursor : Cursor) : Nat :=
  offsetIn cursor.scope.length cursor.rest

/-- The offset at which the lexeme before ends. -/
def lastStop (cursor : Cursor) : Nat :=
  offsetIn cursor.scope.length cursor.last

/-- May TypeScript be used here? -/
def typescript (cursor : Cursor) : Bool :=
  cursor.scope.dialect.typescript

/-- Does the cursor stand at the mark? -/
def is (cursor : Cursor) (mark : String) : Bool :=
  cursor.lexeme == .mark mark

/-- Does the cursor stand at one of the marks? -/
def isAnyOf (cursor : Cursor) (marks : List String) : Bool :=
  marks.any cursor.is

/-- Does the cursor stand at the word? -/
def isWord (cursor : Cursor) (name : String) : Bool :=
  cursor.lexeme == .word name

/-- The word at the cursor. -/
def word? (cursor : Cursor) : Option String :=
  match cursor.lexeme with
  | .word name => some name
  | _ => none

/-- Does the cursor stand at some word? -/
def isName (cursor : Cursor) : Bool :=
  cursor.word?.isSome

/-- The words that name nothing. -/
def reserved : List String :=
  ["break", "case", "catch", "class", "const", "continue", "debugger", "default", "delete", "do",
    "else", "enum", "export", "extends", "false", "finally", "for", "function", "if", "import",
    "in", "instanceof", "new", "null", "return", "super", "switch", "this", "throw", "true", "try",
    "typeof", "var", "void", "while", "with"]

/-- Does the cursor stand at a word that can be a name of its own? -/
def isIdentifier (cursor : Cursor) : Bool :=
  match cursor.word? with
  | some name =>
    !reserved.contains name && !(name == "await" && cursor.scope.awaits) &&
      !(name == "yield" && cursor.scope.yields)
  | none => false

/-- Does the cursor stand at a string? -/
def isString (cursor : Cursor) : Bool :=
  match cursor.lexeme with
  | .string _ => true
  | _ => false

/-- Does the cursor stand at something that can be the name of a member? -/
def isKey (cursor : Cursor) : Bool :=
  match cursor.lexeme with
  | .word _ | .string _ | .number | .privateName => true
  | .mark m => m == "["
  | _ => false

/-! ## Combinators -/

/-- Passes a mark that must stand here. -/
def expect (mark : String) : Recogniser := fun c =>
  if c.is mark then some c.advance else none

/-- Passes a word that must stand here. -/
def expectWord (name : String) : Recogniser := fun c =>
  if c.isWord name then some c.advance else none

/-- Passes a mark if it stands here. -/
def skip (mark : String) (c : Cursor) : Cursor :=
  if c.is mark then c.advance else c

/-- Passes a word if it stands here. -/
def skipWord (name : String) (c : Cursor) : Cursor :=
  if c.isWord name then c.advance else c

/-- Passes a name of its own. -/
def identifier : Recogniser := fun c =>
  if c.isIdentifier then some c.advance else none

/-- Passes some word. -/
def name : Recogniser := fun c =>
  if c.isName then some c.advance else none

/-- Passes a piece if the condition holds. -/
def whenever (condition : Cursor → Bool) (piece : Recogniser) : Recogniser := fun c =>
  if condition c then piece c else some c

/-- Passes a piece behind a mark, if the mark stands here. -/
def behind (mark : String) (piece : Recogniser) : Recogniser := fun c =>
  if c.is mark then piece c.advance else some c

/-- Passes a piece in a changed scope. -/
def within (change : Scope → Scope) (piece : Recogniser) : Recogniser := fun c =>
  (piece { c with scope := change c.scope }).map ({ · with scope := c.scope })

/-- Takes steps as long as they answer that more follows. One step uses up one unit of `fuel`. -/
def stepsIn (step : Cursor → Option (Bool × Cursor)) : (fuel : Nat) → Recogniser
  | 0, _ => none
  | fuel + 1, c => match step c with
    | none => none
    | some (true, d) => stepsIn step fuel d
    | some (false, d) => some d

/-- Takes steps as long as they answer that more follows. Every step but the last passes at least
one character of the file. -/
def steps (step : Cursor → Option (Bool × Cursor)) : Recogniser := fun c =>
  stepsIn step (c.rest.length + 2) c

/-- Passes pieces as long as the condition holds. -/
def many (condition : Cursor → Bool) (piece : Recogniser) : Recogniser :=
  steps fun c => if condition c then (piece c).map (true, ·) else some (false, c)

/-- Passes pieces with commas between them, and possibly behind the last, up to a closing mark. -/
def commaList (piece : Recogniser) (close : String) : Recogniser :=
  steps fun c =>
    if c.is close then some (false, c.advance)
    else do
      let c ← piece c
      if c.is "," then some (true, c.advance)
      else (expect close c).map (false, ·)

/-- Passes one piece or more with commas between them. -/
def separated (piece : Recogniser) (separator : String) : Recogniser :=
  steps fun c => do
    let c ← piece c
    if c.is separator then some (true, c.advance) else some (false, c)

/-- The end of a statement: a semicolon, or a place where one is understood, which is before a
closing brace, at the end of the file and after the end of a line. -/
def semicolon : Recogniser := fun c =>
  if c.is ";" then some c.advance
  else if c.is "\x7d" || c.lexeme == .finish || c.newline then some c
  else none

end Cursor

end ImportOrder
