import ImportOrder.Grammar.TypeExpression

/-!
# Bindings, functions and classes

## Main definitions

- `Binding.pattern`: a name or a destructuring pattern
- `Function.tail`: parameters, result type and body
- `Class.tail`: a class behind its keyword
-/

namespace ImportOrder

open Cursor

namespace Binding

/-- The initial value behind an equals sign, if one stands here. -/
def initializer (g : Grammar) : Recogniser :=
  behind "=" (g .assignment)

/-- One element of an array pattern, which may be missing. -/
def element (g : Grammar) : Recogniser := fun c =>
  if c.is "," || c.is "]" then some c
  else do
    let c ← g .binding (c.skip "...")
    initializer g c

/-- One property of an object pattern. -/
def property (g : Grammar) : Recogniser := fun c =>
  if c.is "..." then g .binding c.advance
  else if c.isIdentifier && !c.advance.is ":" then initializer g c.advance
  else do
    let c ← TypeExpression.key g c
    let c ← expect ":" c
    let c ← g .binding c
    initializer g c

/-- A name, an array pattern or an object pattern. -/
def pattern (g : Grammar) : Recogniser := fun c =>
  if c.is "[" then within Scope.bracketed (commaList (element g) "]") c.advance
  else if c.is "\x7b" then within Scope.bracketed (commaList (property g) "\x7d") c.advance
  else identifier c

end Binding

namespace Function

/-- A decorator. -/
def decorator (g : Grammar) : Recogniser := fun c => do
  let c ← expect "@" c
  g .leftHandSide c

/-- Any number of decorators. -/
def decorators (g : Grammar) : Recogniser :=
  many (·.is "@") (decorator g)

/-- Words that may stand before a parameter. -/
def parameterModifiers : List String :=
  ["public", "private", "protected", "readonly", "override"]

/-- Passes a modifier of a parameter, if the parameter follows it. -/
def skipModifier (c : Cursor) : Cursor :=
  let next := c.advance
  if c.typescript && c.word?.any parameterModifiers.contains &&
      (next.isIdentifier || next.is "[" || next.is "\x7b") then next
  else c

/-- One parameter. -/
def parameter (g : Grammar) : Recogniser := fun c => do
  let c ← decorators g c
  let c := skipModifier (skipModifier c)
  let c := c.skip "..."
  let c ← if c.typescript && c.isWord "this" then some c.advance else g .binding c
  let c := if c.typescript then c.skip "?" else c
  let c ← TypeExpression.ascription g c
  Binding.initializer g c

/-- The parameters in parentheses. -/
def parameters (g : Grammar) : Recogniser := fun c => do
  let c ← expect "(" c
  within Scope.bracketed (commaList (parameter g) ")") c

/-- Statements up to a closing brace. -/
def block (g : Grammar) : Recogniser := fun c => do
  let c ← expect "\x7b" c
  steps (fun c =>
    if c.is "\x7d" then some (false, c.advance) else (g .statement c).map (true, ·)) c

/-- Type parameters, parameters and result type. -/
def head (g : Grammar) : Recogniser := fun c => do
  let c ← TypeExpression.optionalParameters g c
  let c ← parameters g c
  TypeExpression.resultAscription g c

/-- The rest of a function behind its name. In a dialect with types the body may be missing. -/
def tail (g : Grammar) : Recogniser := fun c => do
  let c ← head g c
  if c.is "\x7b" then block g c else if c.typescript then semicolon c else none

/-- The rest of a function that must have a body. -/
def withBody (g : Grammar) : Recogniser := fun c => do
  let c ← head g c
  block g c

/-- A function from its keyword on, with or without a name. -/
def expression (g : Grammar) (isAsync : Bool) : Recogniser := fun c => do
  let c ← expectWord "function" c
  let isGenerator := c.is "*"
  within (Scope.inBody isAsync isGenerator)
    (fun c => do
      let c ← whenever Cursor.isName identifier c
      withBody g c) (c.skip "*")

/-- A function declaration from its keyword on. -/
def declaration (g : Grammar) (isAsync named : Bool) : Recogniser := fun c => do
  let c ← expectWord "function" c
  let isGenerator := c.is "*"
  let c := c.skip "*"
  let c ← if named then identifier c else whenever Cursor.isName identifier c
  within (Scope.inBody isAsync isGenerator) (g .functionTail) c

end Function

namespace Class

/-- Words that may stand before a member. -/
def modifiers : List String :=
  ["static", "async", "get", "set", "accessor"]

/-- Words that may stand before a member in a dialect with types. -/
def typeModifiers : List String :=
  ["public", "private", "protected", "abstract", "override", "readonly", "declare"]

/-- Is the word at the cursor a modifier rather than the name of the member? -/
def isModifier (c : Cursor) : Bool :=
  let next := c.advance
  (c.word?.any modifiers.contains || (c.typescript && c.word?.any typeModifiers.contains)) &&
    (next.isKey || next.is "*") &&
    (!next.newline || c.word?.any ["static", "get", "set"].contains)

/-- The body of a static block. -/
def isStaticBlock (c : Cursor) : Bool :=
  c.isWord "static" && c.advance.is "\x7b"

/-- A method or a property from its name on. -/
def memberTail (g : Grammar) : Recogniser := fun c => do
  let c ← TypeExpression.key g c
  let c := if c.typescript && (c.is "?" || c.is "!") then c.advance else c
  if c.is "(" || c.is "<" then g .functionTail c
  else
    let c ← TypeExpression.ascription g c
    let c ← within Scope.bracketed (Binding.initializer g) c
    semicolon c

/-- Modifiers before a member: whether one of them is `async`, and where they end. -/
def skipModifiers : (fuel : Nat) → (isAsync : Bool) → Cursor → Bool × Cursor
  | 0, isAsync, c => (isAsync, c)
  | fuel + 1, isAsync, c =>
    if isModifier c then skipModifiers fuel (isAsync || c.isWord "async") c.advance
    else (isAsync, c)

/-- One member of a class. -/
def member (g : Grammar) : Recogniser := fun c => do
  let c ← Function.decorators g c
  if isStaticBlock c then within (Scope.inBody false false) (Function.block g) c.advance
  else
    let (isAsync, c) := skipModifiers 8 false c
    if c.typescript && TypeExpression.isIndexSignature c then
      let c ← TypeExpression.indexSignature g c
      semicolon c
    else
      let isGenerator := c.is "*"
      within (Scope.inBody isAsync isGenerator) (memberTail g) (c.skip "*")

/-- The members of a class in braces. -/
def body (g : Grammar) : Recogniser := fun c => do
  let c ← expect "\x7b" c
  within Scope.bracketed
    (steps fun c =>
      if c.is "\x7d" then some (false, c.advance)
      else if c.is ";" then some (true, c.advance)
      else (member g c).map (true, ·)) c

/-- The class that another one extends. -/
def heritage (g : Grammar) : Recogniser := fun c =>
  if c.isWord "extends" then do
    let c ← g .leftHandSide c.advance
    if c.typescript && c.is "<" then TypeExpression.arguments g c else some c
  else some c

/-- The rest of a class behind its keyword. -/
def tail (g : Grammar) : Recogniser := fun c => do
  let c ← whenever (fun c => c.isIdentifier && !c.isWord "implements") identifier c
  let c ← TypeExpression.optionalParameters g c
  let c ← heritage g c
  let c ←
    if c.typescript && c.isWord "implements" then separated (g .typeExpression) "," c.advance
    else some c
  body g c

end Class

end ImportOrder
