import ImportOrder.Grammar.Expression

/-!
# Statements and declarations

## Main definitions

- `Declaration.startsHere`, `Declaration.declaration`
- `StatementForm.statement`
-/

namespace ImportOrder

open Cursor

namespace Declaration

/-- One declared name or pattern with its type and initial value. A constant and a pattern must have
an initial value, unless the declaration only announces them or a loop gives it. -/
def declarator (g : Grammar) (constant inLoop : Bool) : Recogniser := fun c => do
  let simple := c.isIdentifier
  let c ← g .binding c
  let c := if c.typescript && c.is "!" && !c.newline then c.advance else c
  let c ← TypeExpression.ascription g c
  let given := c.is "="
  let c ← Binding.initializer g c
  let looped := inLoop && (c.isWord "of" || c.isWord "in")
  if given || looped || c.scope.ambient || (simple && !constant) then some c else none

/-- Declared variables behind their keyword. -/
def declarators (g : Grammar) (constant inLoop : Bool) : Recogniser :=
  separated (declarator g constant inLoop) ","

/-- One member of an enumeration. -/
def enumMember (g : Grammar) : Recogniser := fun c => do
  let c ← TypeExpression.key g c
  Binding.initializer g c

/-- An enumeration behind its keyword. -/
def enumeration (g : Grammar) : Recogniser := fun c => do
  let c ← identifier c
  let c ← expect "\x7b" c
  within Scope.bracketed (commaList (enumMember g) "\x7d") c

/-- An interface behind its keyword. -/
def interface (g : Grammar) : Recogniser := fun c => do
  let c ← identifier c
  let c ← TypeExpression.optionalParameters g c
  let c ←
    if c.isWord "extends" then separated (TypeExpression.reference g) "," c.advance else some c
  TypeExpression.members g c

/-- A type alias behind its keyword. -/
def typeAlias (g : Grammar) : Recogniser := fun c => do
  let c ← identifier c
  let c ← TypeExpression.optionalParameters g c
  let c ← expect "=" c
  let c ← g .typeExpression c
  semicolon c

/-- The items of a namespace in braces. -/
def itemBlock (g : Grammar) : Recogniser := fun c => do
  let c ← expect "\x7b" c
  steps (fun c =>
    if c.is "\x7d" then some (false, c.advance) else (g .moduleItem c).map (true, ·)) c

/-- A namespace or a module behind its keyword. -/
def namespaceTail (g : Grammar) : Recogniser := fun c =>
  if c.isString then
    if c.advance.is "\x7b" then itemBlock g c.advance else semicolon c.advance
  else do
    let c ← separated identifier "." c
    itemBlock g c

/-- Does a word follow on the line that can be a name? -/
def nameFollows (c : Cursor) : Bool :=
  c.advance.isIdentifier && !c.advance.newline

/-- Does a declaration of resources start here? -/
def startsResources (c : Cursor) : Bool :=
  c.isWord "using" && nameFollows c && !c.advance.isWord "of"

/-- Does a declaration start here that needs no types? -/
def startsPlain (c : Cursor) : Bool :=
  let next := c.advance
  match c.word? with
  | some "var" | some "const" | some "function" | some "class" => true
  | some "let" => next.isIdentifier || next.is "[" || next.is "\x7b"
  | some "using" => startsResources c
  | some "await" => c.scope.awaits && startsResources next && !next.newline
  | some "async" => next.isWord "function" && !next.newline
  | _ => c.is "@"

/-- Does a declaration start here that only dialects with types have? -/
def startsTyped (c : Cursor) : Bool :=
  let next := c.advance
  c.typescript && match c.word? with
    | some "enum" => true
    | some "interface" | some "type" | some "namespace" => nameFollows c
    | some "module" => nameFollows c || (next.isString && !next.newline)
    | some "abstract" => next.isWord "class" && !next.newline
    | _ => false

/-- Does an announcement of a declaration start here? -/
def startsAmbient (c : Cursor) : Bool :=
  let next := c.advance
  c.typescript && c.isWord "declare" && !next.newline &&
    (startsPlain next || startsTyped next || (next.isWord "global" && next.advance.is "\x7b"))

/-- Does a declaration start here? -/
def startsHere (c : Cursor) : Bool :=
  startsPlain c || startsTyped c || startsAmbient c

/-- A declaration that starts with the given word. -/
def ofWord (g : Grammar) (word : String) : Recogniser := fun c =>
  let next := c.advance
  if word == "const" && c.typescript && next.isWord "enum" then enumeration g next.advance
  else if ["var", "let", "const", "using", "await"].contains word then do
    let names := if word == "await" then next.advance else next
    let c ← declarators g (word != "var" && word != "let") false names
    semicolon c
  else if word == "function" then Function.declaration g false true c
  else if word == "async" then Function.declaration g true true next
  else if word == "class" then g .classTail next
  else if word == "abstract" then g .classTail next.advance
  else if word == "enum" then enumeration g next
  else if word == "interface" then interface g next
  else if word == "type" then typeAlias g next
  else if word == "namespace" || word == "module" then namespaceTail g next
  else if word == "global" then itemBlock g next
  else none

/-- A declaration without announcement: decorated classes apart, its first word decides its form. -/
def unannounced (g : Grammar) : Recogniser := fun c =>
  if c.is "@" then do
    let c ← Function.decorators g c
    let c := c.skipWord "export"
    let c := c.skipWord "default"
    let c := c.skipWord "abstract"
    let c ← expectWord "class" c
    g .classTail c
  else do
    let word ← c.word?
    ofWord g word c

/-- A declaration. -/
def declaration (g : Grammar) : Recogniser := fun c =>
  if startsAmbient c then within ({ · with ambient := true }) (unannounced g) c.advance
  else if startsHere c then unannounced g c
  else none

end Declaration

namespace StatementForm

/-- An expression as a statement. -/
def expressionStatement (g : Grammar) : Recogniser := fun c => do
  let c ← g .expression c
  semicolon c

/-- Does a statement end here? -/
def endsHere (c : Cursor) : Bool :=
  (semicolon c).isSome

/-- A statement of a keyword and an expression that may be missing. -/
def withOptional (g : Grammar) : Recogniser := fun c =>
  if endsHere c then semicolon c else expressionStatement g c

/-- A condition and the statement that hangs on it, behind the keyword. -/
def guarded (g : Grammar) : Recogniser := fun c => do
  let c ← Expression.parenthesized g c
  g .statement c

/-- A conditional statement behind its keyword. -/
def conditional (g : Grammar) : Recogniser := fun c => do
  let c ← guarded g c
  if c.isWord "else" then g .statement c.advance else some c

/-- A loop that tests at its end, behind its keyword. Its semicolon may be missing anywhere. -/
def doLoop (g : Grammar) : Recogniser := fun c => do
  let c ← g .statement c
  let c ← expectWord "while" c
  let c ← Expression.parenthesized g c
  return c.skip ";"

/-- An expression that may be missing, up to a mark. -/
def optionalUpTo (g : Grammar) (mark : String) : Recogniser := fun c =>
  if c.is mark then some c.advance
  else do
    let c ← g .expression c
    expect mark c

/-- The head of a counting loop behind its first semicolon, and the body. -/
def countingTail (g : Grammar) : Recogniser := fun c => do
  let c ← optionalUpTo g ";" c
  let c ← optionalUpTo g ")" c
  g .statement c

/-- What a loop runs over, and its body. Only a loop over keys takes expressions with commas. -/
def overTail (g : Grammar) : Recogniser := fun c => do
  let c ← g (if c.isWord "of" then .assignment else .expression) c.advance
  let c ← expect ")" c
  g .statement c

/-- Does a loop run over what follows? -/
def runsOver (c : Cursor) : Bool :=
  c.isWord "of" || c.isWord "in"

/-- The first part of the head of a loop: declared variables or an expression. -/
def loopStart (g : Grammar) : Recogniser := fun c =>
  if Declaration.startsPlain c && !c.is "@" && !c.isWord "function" && !c.isWord "class" &&
      !c.isWord "async" then
    Declaration.declarators g (c.isWord "const") true ((c.skipWord "await").advance)
  else match g .leftHandSide c with
    | some d => if runsOver d then some d else g .expression c
    | none => g .expression c

/-- A loop behind its keyword. -/
def forLoop (g : Grammar) : Recogniser := fun c => do
  let c ← expect "(" (c.skipWord "await")
  if c.is ";" then countingTail g c.advance
  else
    let c ← within ({ · with allowsIn := false }) (loopStart g) c
    if runsOver c then overTail g c
    else
      let c ← expect ";" c
      countingTail g c

/-- Does a case of a choice start here? -/
def startsCase (c : Cursor) : Bool :=
  c.isWord "case" || c.isWord "default"

/-- The cases of a choice in braces. -/
def cases (g : Grammar) : Recogniser := fun c => do
  let c ← (expect "\x7b" c).filter fun c => startsCase c || c.is "\x7d"
  steps (fun c =>
    if c.is "\x7d" then some (false, c.advance)
    else if c.isWord "case" then do
      let c ← g .expression c.advance
      let c ← expect ":" c
      return (true, c)
    else if c.isWord "default" then (expect ":" c.advance).map (true, ·)
    else (g .statement c).map (true, ·)) c

/-- A choice behind its keyword. -/
def choice (g : Grammar) : Recogniser := fun c => do
  let c ← Expression.parenthesized g c
  cases g c

/-- The handler of an exception behind its keyword. -/
def handler (g : Grammar) : Recogniser := fun c => do
  let c ←
    if c.is "(" then do
      let c ← g .binding c.advance
      let c ← TypeExpression.ascription g c
      expect ")" c
    else some c
  Function.block g c

/-- A statement that handles exceptions, behind its keyword. -/
def attempt (g : Grammar) : Recogniser := fun c => do
  let c ← Function.block g c
  let handled := c.isWord "catch"
  let c ← if handled then handler g c.advance else some c
  if c.isWord "finally" then Function.block g c.advance
  else if handled then some c
  else none

/-- A jump behind its keyword, with a label if one stands on the line. -/
def jump : Recogniser := fun c =>
  if c.isIdentifier && !c.newline then semicolon c.advance else semicolon c

/-- A statement that starts with a keyword, or the word of a declaration, a label or an expression.
-/
def ofWord (g : Grammar) (word : String) : Recogniser := fun c =>
  let next := c.advance
  if Declaration.startsHere c then Declaration.declaration g c
  else match word with
    | "if" => conditional g next
    | "for" => forLoop g next
    | "while" => guarded g next
    | "do" => doLoop g next
    | "return" => if c.scope.inFunction then withOptional g next else none
    | "throw" => if next.newline then none else expressionStatement g next
    | "break" | "continue" => jump next
    | "switch" => choice g next
    | "try" => attempt g next
    | "debugger" => semicolon next
    | "with" => if c.scope.dialect.isModule then none else guarded g next
    | _ =>
      if c.isIdentifier && next.is ":" then g .statement next.advance
      else expressionStatement g c

/-- A statement. -/
def statement (g : Grammar) : Recogniser := fun c =>
  match c.lexeme with
  | .word word => ofWord g word c
  | .mark ";" => some c.advance
  | .mark "@" => Declaration.declaration g c
  | .mark m => if m == "\x7b" then Function.block g c else expressionStatement g c
  | _ => expressionStatement g c

end StatementForm

end ImportOrder
