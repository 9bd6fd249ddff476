import ImportOrder.Grammar.Function
import ImportOrder.Grammar.Markup

/-!
# Expressions

The grammar of expressions. Only what is an expression and where it ends matters, so the binary
operators are read as one chain without precedence.

An arrow function and an expression in parentheses may start alike; the arrow function is tried
first.

## Main definitions

- `Expression.assignment`, `Expression.unary`, `Expression.leftHandSide`
- `Expression.sequence`: expressions with commas between them
-/

namespace ImportOrder.Expression

open Cursor

/-- The arguments of a call. -/
def arguments (g : Grammar) : Recogniser := fun c => do
  let c ← expect "(" c
  within Scope.bracketed (commaList (fun c => g .assignment (c.skip "...")) ")") c

/-- An expression in parentheses. -/
def parenthesized (g : Grammar) : Recogniser := fun c => do
  let c ← expect "(" c
  let c ← within Scope.bracketed (g .expression) c
  expect ")" c

/-- One element of an array, which may be missing. -/
def element (g : Grammar) : Recogniser := fun c =>
  if c.is "," then some c else g .assignment (c.skip "...")

/-- Passes a word before a member of an object, if the member follows it. -/
def isMemberModifier (c : Cursor) : Bool :=
  let next := c.advance
  (c.isWord "get" || c.isWord "set" || (c.isWord "async" && !next.newline)) &&
    (next.isKey || (c.isWord "async" && next.is "*"))

/-- One member of an object. -/
def member (g : Grammar) : Recogniser := fun c =>
  if c.is "..." then g .assignment c.advance
  else do
    let modified := isMemberModifier c
    let isAsync := modified && c.isWord "async"
    let c := if modified then c.advance else c
    let isGenerator := c.is "*"
    let c := c.skip "*"
    let shorthand := c.isIdentifier && !modified && !isGenerator
    let c ← TypeExpression.key g c
    if c.is "(" || c.is "<" then
      within (Scope.inBody isAsync isGenerator) (Function.withBody g) c
    else if modified || isGenerator then none
    else if c.is ":" then g .assignment c.advance
    else if shorthand then Binding.initializer g c
    else none

/-- An import in an expression: of a module by its path, or of the data about this module. -/
def importCall (g : Grammar) : Recogniser := fun c =>
  if c.is "(" then arguments g c
  else do
    let c ← expect "." c
    if c.isWord "meta" then some c.advance
    else if c.isWord "source" || c.isWord "defer" then arguments g c.advance
    else none

/-- A regular expression, whose slash the cursor stands at. -/
def regularExpression : Recogniser := fun c => do
  let rest ← Lexeme.regularExpression? (c.rest.drop 1)
  return c.moveTo rest

/-- An expression that starts with a word. -/
def wordPrimary (g : Grammar) (name : String) : Recogniser := fun c =>
  let next := c.advance
  if ["this", "super", "null", "true", "false"].contains name then some next
  else if name == "function" then Function.expression g false c
  else if name == "async" && next.isWord "function" && !next.newline then
    Function.expression g true next
  else if name == "class" then g .classTail next
  else if name == "new" then
    if next.is "." then expectWord "target" next.advance else g .leftHandSide next
  else if name == "import" then importCall g next
  else identifier c

/-- An expression without operators, accesses and calls. -/
def primary (g : Grammar) : Recogniser := fun c =>
  match c.lexeme with
  | .word name => wordPrimary g name c
  | .number | .string _ => some c.advance
  | .privateName => if c.advance.isWord "in" && c.scope.allowsIn then some c.advance else none
  | .template => templateTail (g .expression) c
  | .mark "(" => parenthesized g c
  | .mark "[" => within Scope.bracketed (commaList (element g) "]") c.advance
  | .mark "/" | .mark "/=" => regularExpression c
  | .mark "<" => if c.scope.dialect.jsx then (g .markup c).map Cursor.advance else none
  | .mark "@" => do
    let c ← Function.decorators g c
    let c ← expectWord "class" c
    g .classTail c
  | .mark m =>
    if m == "\x7b" then within Scope.bracketed (commaList (member g) "\x7d") c.advance else none
  | _ => none

/-- Can a binary operator stand here? -/
def isBinaryWord (c : Cursor) : Bool :=
  c.isWord "instanceof" || (c.isWord "in" && c.scope.allowsIn)

/-- The marks that are binary operators. -/
def binaryMarks : List String :=
  ["||", "&&", "??", "|", "^", "&", "==", "!=", "===", "!==", "<", "<=", "<<", "+", "-", "*", "/",
    "%", "**"]

/-- The operators that start with `>`, the longest first. -/
def greaterMarks : List String :=
  [">>>", ">>", ">=", ">"]

/-- The assignment operators that start with `>`. -/
def greaterAssignments : List String :=
  [">>>=", ">>="]

/-- The assignment operators. -/
def assignmentMarks : List String :=
  ["=", "+=", "-=", "*=", "/=", "%=", "**=", "<<=", "&=", "|=", "^=", "&&=", "||=", "??="]

/-- Passes the first of some spellings with which the rest of the file starts. -/
def passSpelling (spellings : List String) : Recogniser := fun c => do
  let s ← spellings.find? (·.toList.isPrefixOf c.rest)
  return c.moveTo (c.rest.drop s.length)

/-- An assignment operator. -/
def assignmentOperator : Recogniser := fun c =>
  if c.isAnyOf assignmentMarks then some c.advance
  else passSpelling greaterAssignments c

/-- A binary operator. -/
def binaryOperator : Recogniser := fun c =>
  if c.isAnyOf binaryMarks || isBinaryWord c then some c.advance
  else if c.is ">" && (assignmentOperator c).isNone then passSpelling greaterMarks c
  else none

/-- Can an expression start here? -/
def startsExpression (c : Cursor) : Bool :=
  match c.lexeme with
  | .word name => !Cursor.reserved.contains name ||
      ["this", "super", "null", "true", "false", "function", "class", "new", "import", "typeof",
        "void", "delete"].contains name
  | .number | .string _ | .privateName | .template => true
  | .mark m => ["(", "[", "\x7b", "/", "/=", "<", "@", "+", "-", "!", "~", "++", "--"].contains m
  | _ => false

/-- Do the angle brackets before the cursor hold type arguments rather than compare? -/
def mayFollowTypeArguments (c : Cursor) : Bool :=
  if c.is "(" || c.lexeme == .template then true
  else if c.isAnyOf ["<", ">", "+", "-"] then false
  else c.newline || (binaryOperator c).isSome || !startsExpression c

/-- Type arguments of a call or of an expression, up to but without the last bracket. -/
def typeArguments? (g : Grammar) (c : Cursor) : Option Cursor :=
  if c.typescript && c.is "<" then do
    let c ← TypeExpression.arguments g c
    if mayFollowTypeArguments c then some c else none
  else none

/-- One access or call behind an expression, and whether there was one. -/
def accessStep (g : Grammar) (c : Cursor) : Option (Bool × Cursor) :=
  match c.lexeme with
  | .mark "." =>
    let c := c.advance
    if c.isName || c.lexeme == .privateName then some (true, c.advance) else none
  | .mark "?." =>
    let c := c.advance
    if c.isName || c.lexeme == .privateName then some (true, c.advance)
    else if c.isAnyOf ["(", "[", "<"] || c.lexeme == .template then some (true, c)
    else none
  | .mark "[" => do
    let c ← within Scope.bracketed (g .expression) c.advance
    let c ← expect "]" c
    return (true, c)
  | .mark "(" => (arguments g c).map (true, ·)
  | .template => (templateTail (g .expression) c).map (true, ·)
  | .mark "!" => if c.typescript && !c.newline then some (true, c.advance) else some (false, c)
  | .mark "<" => match typeArguments? g c with
    | some d => some (true, d)
    | none => some (false, c)
  | _ => some (false, c)

/-- A primary expression with its accesses and calls. -/
def leftHandSide (g : Grammar) : Recogniser := fun c => do
  let c ← primary g c
  steps (accessStep g) c

/-- Does a prefix operator stand here? -/
def isPrefixOperator (c : Cursor) : Bool :=
  c.isAnyOf ["+", "-", "!", "~", "++", "--"] ||
    c.isWord "typeof" || c.isWord "void" || c.isWord "delete" ||
    (c.isWord "await" && c.scope.awaits)

/-- Does a type in angle brackets stand here, before the expression that it types? -/
def isTypeAssertion (c : Cursor) : Bool :=
  c.typescript && !c.scope.dialect.jsx && c.is "<"

/-- The type in angle brackets before the expression that it types; `const` stands for the
narrowest. -/
def assertedType (g : Grammar) : Recogniser := fun c =>
  if c.advance.isWord "const" then expect ">" c.advance.advance
  else TypeExpression.arguments g c

/-- An increment or decrement behind an expression, on its line. -/
def skipIncrement (c : Cursor) : Cursor :=
  if (c.is "++" || c.is "--") && !c.newline then c.advance else c

/-- A prefix operator with its operand. Its result cannot be the base of a power. -/
def prefixed (g : Grammar) : Recogniser := fun c => do
  let d ← g .unary c.advance
  if d.is "**" && !c.isAnyOf ["++", "--"] then none else some d

/-- An operand of a binary operator. -/
def unary (g : Grammar) : Recogniser := fun c =>
  if isPrefixOperator c then prefixed g c
  else if isTypeAssertion c then do
    let c ← assertedType g c
    g .unary c
  else do
    let c ← g .leftHandSide c
    return skipIncrement c

/-- One binary operator with its right operand, or a type that the expression is taken as. -/
def binaryStep (g : Grammar) (c : Cursor) : Option (Bool × Cursor) :=
  if c.typescript && (c.isWord "as" || c.isWord "satisfies") && !c.newline then
    if c.advance.isWord "const" then some (true, c.advance.advance)
    else (g .typeExpression c.advance).map (true, ·)
  else match binaryOperator c with
    | some d => (g .unary d).map (true, ·)
    | none => some (false, c)

/-- The branches of a conditional expression, if one stands here. -/
def conditionalTail (g : Grammar) : Recogniser := fun c =>
  if c.is "?" then do
    let c ← within ({ · with allowsIn := true, inBranch := true }) (g .assignment) c.advance
    let c ← expect ":" c
    within ({ · with inBranch := false }) (g .assignment) c
  else some c

/-- The body of an arrow function, behind the arrow. -/
def arrowBody (g : Grammar) (isAsync : Bool) : Recogniser := fun c =>
  if c.is "\x7b" then within (Scope.inBody isAsync false) (Function.block g) c
  else
    within (fun s => { s with awaits := isAsync || s.awaits, inFunction := true }) (g .assignment) c

/-- An arrow on the line of what precedes it. -/
def arrow : Recogniser := fun c =>
  if c.newline then none else expect "=>" c

/-- An arrow function from its parameters on. In the first branch of a conditional, a result type is
only taken for one if the colon of the conditional follows the body. -/
def arrowFunction (g : Grammar) (isAsync : Bool) : Recogniser := fun c => do
  let c ← TypeExpression.optionalParameters g c
  let c ← Function.parameters g c
  let typed := c.typescript && c.is ":"
  let c ← TypeExpression.resultAscription g c
  let c ← arrow c
  let c ← arrowBody g isAsync c
  if typed && c.scope.inBranch && !c.is ":" then none else some c

/-- An arrow function whose only parameter is a name. -/
def shortArrowFunction (g : Grammar) (isAsync : Bool) : Recogniser := fun c => do
  let c ← identifier c
  let c ← arrow c
  arrowBody g isAsync c

/-- Can type parameters stand here? Where markup is allowed, what follows the first name must rule
out that it is a tag. -/
def mayStartParameters (c : Cursor) : Bool :=
  let first := c.advance.skipWord "const"
  c.typescript && c.is "<" &&
    (!c.scope.dialect.jsx || first.advance.isAnyOf [",", "="] || first.advance.isWord "extends")

/-- The arrow function that starts here, if there is one. -/
def arrowFunction? (g : Grammar) (c : Cursor) : Option Cursor :=
  let next := c.advance
  if c.is "(" || mayStartParameters c then arrowFunction g false c
  else if c.isWord "async" && !next.newline && (next.is "(" || next.is "<") then
    arrowFunction g true next
  else if c.isWord "async" && !next.newline && next.isIdentifier then shortArrowFunction g true next
  else if c.isIdentifier && next.is "=>" then shortArrowFunction g false c
  else none

/-- The expression behind `yield`, if there is one. -/
def yieldTail (g : Grammar) : Recogniser := fun c =>
  if c.newline then some c
  else if c.is "*" then g .assignment c.advance
  else if startsExpression c then g .assignment c
  else some c

/-- An expression from its first operand on. -/
def operation (g : Grammar) : Recogniser := fun c => do
  let c ← steps (binaryStep g) c
  conditionalTail g c

/-- One expression without commas. -/
def assignment (g : Grammar) : Recogniser := fun c =>
  match arrowFunction? g c with
  | some d => some d
  | none =>
    if c.isWord "yield" && c.scope.yields then yieldTail g c.advance
    else if isPrefixOperator c || isTypeAssertion c then do
      let c ← g .unary c
      operation g c
    else do
      let c ← g .leftHandSide c
      match assignmentOperator c with
      | some d => g .assignment d
      | none => operation g (skipIncrement c)

/-- Expressions with commas between them. -/
def sequence (g : Grammar) : Recogniser :=
  separated (g .assignment) ","

end ImportOrder.Expression
