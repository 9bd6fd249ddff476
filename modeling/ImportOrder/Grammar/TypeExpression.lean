import ImportOrder.Grammar.Goal

/-!
# Types

The grammar of types, of type parameters and of type arguments.

## Main definitions

- `TypeExpression.type`: a type
- `TypeExpression.parameters`, `TypeExpression.arguments`: the lists in angle brackets
- `TypeExpression.ascription`, `TypeExpression.resultAscription`
- `TypeExpression.members`: the body of an object type
-/

namespace ImportOrder.TypeExpression

open Cursor

/-- Words that stand before a type parameter. -/
def parameterModifiers : List String := ["const", "in", "out"]

/-- Passes a word as a modifier if another word follows it. -/
def skipModifier (modifiers : List String) (c : Cursor) : Cursor :=
  if c.word?.any modifiers.contains && c.advance.isName then c.advance else c

/-- One type parameter. -/
def parameter (g : Grammar) : Recogniser := fun c => do
  let c := skipModifier parameterModifiers (skipModifier parameterModifiers c)
  let c ← identifier c
  let c ← if c.isWord "extends" then g .typeExpression c.advance else some c
  behind "=" (g .typeExpression) c

/-- A list of type parameters in angle brackets. -/
def parameters (g : Grammar) : Recogniser := fun c => do
  let c ← expect "<" c
  within Scope.bracketed (commaList (parameter g) ">") c

/-- A list of type arguments in angle brackets, up to but without the last bracket. -/
def argumentsOpen (g : Grammar) : Recogniser := fun c => do
  let c ← expect "<" c
  let c ← within Scope.bracketed (separated (g .typeExpression) ",") c
  if c.is ">" then some c else none

/-- A list of type arguments in angle brackets. -/
def arguments (g : Grammar) : Recogniser := fun c => do
  let c ← argumentsOpen g c
  return c.advance

/-- Type parameters, if some stand here in a dialect with types. -/
def optionalParameters (g : Grammar) : Recogniser :=
  whenever (fun c => c.typescript && c.is "<") (parameters g)

/-- The type behind a colon, if one stands here in a dialect with types. -/
def ascription (g : Grammar) : Recogniser := fun c =>
  if c.typescript && c.is ":" then g .typeExpression c.advance else some c

/-- The type of a result: a type, or an assertion about a parameter. -/
def result (g : Grammar) : Recogniser := fun c =>
  let next := c.advance
  if c.isWord "asserts" && next.isName && !next.newline then
    let subject := next.advance
    if subject.isWord "is" && !subject.newline then g .typeExpression subject.advance
    else some subject
  else if c.isName && next.isWord "is" && !next.newline then g .typeExpression next.advance
  else g .typeExpression c

/-- The result type behind a colon, if one stands here in a dialect with types. -/
def resultAscription (g : Grammar) : Recogniser := fun c =>
  if c.typescript && c.is ":" then result g c.advance else some c

/-- One parameter of a function type. -/
def functionParameter (g : Grammar) : Recogniser := fun c => do
  let c := c.skip "..."
  let c ← if c.isWord "this" then some c.advance else g .binding c
  ascription g (c.skip "?")

/-- The parameters of a function type. -/
def functionParameters (g : Grammar) : Recogniser := fun c => do
  let c ← expect "(" c
  within Scope.bracketed (commaList (functionParameter g) ")") c

/-- A function type. -/
def functionType (g : Grammar) : Recogniser := fun c => do
  let c ← optionalParameters g c
  let c ← functionParameters g c
  let c ← expect "=>" c
  result g c

/-- The name of a member in brackets, in quotes or as a word. -/
def key (g : Grammar) : Recogniser := fun c =>
  if c.is "[" then do
    let c ← within Scope.bracketed (g .expression) c.advance
    expect "]" c
  else if c.isKey then some c.advance
  else none

/-- Does the cursor stand at the brackets of an index signature? -/
def isIndexSignature (c : Cursor) : Bool :=
  c.is "[" && c.advance.isName && c.advance.advance.is ":"

/-- Does the cursor stand at the brackets of a mapped type? -/
def isMapped (c : Cursor) : Bool :=
  c.is "[" && c.advance.isName && c.advance.advance.isWord "in"

/-- An index signature. -/
def indexSignature (g : Grammar) : Recogniser := fun c => do
  let c ← within Scope.bracketed (g .typeExpression) c.advance.advance.advance
  let c ← expect "]" c
  ascription g c

/-- The brackets and the type of a mapped type. -/
def mapped (g : Grammar) : Recogniser := fun c => do
  let c ← within Scope.bracketed (g .typeExpression) c.advance.advance.advance
  let c ← if c.isWord "as" then within Scope.bracketed (g .typeExpression) c.advance else some c
  let c ← expect "]" c
  let c := if c.is "+" || c.is "-" then c.advance else c
  ascription g (c.skip "?")

/-- The parameters and the result of a method or call signature. -/
def signature (g : Grammar) : Recogniser := fun c => do
  let c ← optionalParameters g c
  let c ← functionParameters g c
  resultAscription g c

/-- Passes a word that modifies a member, if the name of the member follows. -/
def skipMemberModifier (modifiers : List String) (c : Cursor) : Cursor :=
  if c.word?.any modifiers.contains && c.advance.isKey && !c.advance.newline then c.advance else c

/-- One member of an object type. -/
def member (g : Grammar) : Recogniser := fun c => do
  let c := if (c.is "+" || c.is "-") && c.advance.isWord "readonly" then c.advance else c
  let c := skipMemberModifier ["get", "set"] (skipMemberModifier ["readonly"] c)
  if c.is "(" || c.is "<" then signature g c
  else if c.isWord "new" && (c.advance.is "(" || c.advance.is "<") then signature g c.advance
  else if isIndexSignature c then indexSignature g c
  else if isMapped c then mapped g c
  else
    let c ← key g c
    let c := c.skip "?"
    if c.is "(" || c.is "<" then signature g c else ascription g c

/-- The body of an object type, in braces. Members end with a semicolon, a comma or a line. -/
def members (g : Grammar) : Recogniser := fun c => do
  let c ← expect "\x7b" c
  within Scope.bracketed
    (steps fun c =>
      if c.is "\x7d" then some (false, c.advance)
      else do
        let c ← member g c
        let c ← if c.is "," then some c.advance else semicolon c
        return (true, c)) c

/-- One element of a tuple type, possibly with a name. -/
def element (g : Grammar) : Recogniser := fun c => do
  let c := c.skip "..."
  let next := c.advance
  let c :=
    if c.isName && next.is ":" then next.advance
    else if c.isName && next.is "?" && next.advance.is ":" then next.advance.advance
    else c
  let c ← g .typeExpression c
  return c.skip "?"

/-- Names with dots between them, then type arguments if some follow on the line. -/
def reference (g : Grammar) : Recogniser := fun c => do
  let c ← separated name "." c
  if c.is "<" && !c.newline then arguments g c else some c

/-- The type of an imported module or of one of its members. -/
def importType (g : Grammar) : Recogniser := fun c => do
  let c ← expect "(" c
  let c ← within Scope.bracketed (commaList (g .assignment) ")") c
  if c.is "." then reference g c.advance
  else if c.is "<" && !c.newline then arguments g c
  else some c

/-- Words that start an expression or a statement and no type. -/
def isTypeName (c : Cursor) : Bool :=
  c.isIdentifier || c.word?.any ["this", "void", "null", "true", "false", "await", "yield"].contains

/-- A type without operators. -/
def primary (g : Grammar) : Recogniser := fun c =>
  match c.lexeme with
  | .string _ | .number => some c.advance
  | .template => templateTail (g .typeExpression) c
  | .word "typeof" =>
    let c := c.advance
    if c.isWord "import" then importType g c.advance else reference g c
  | .word "import" => importType g c.advance
  | .word _ => if isTypeName c then reference g c else none
  | .mark "-" => if c.advance.lexeme == .number then some c.advance.advance else none
  | .mark "(" => do
    let c ← within Scope.bracketed (g .typeExpression) c.advance
    expect ")" c
  | .mark "[" => within Scope.bracketed (commaList (element g) "]") c.advance
  | .mark m => if m == "\x7b" then members g c else none
  | _ => none

/-- A primary type with the brackets of arrays and of indexed access. -/
def postfixed (g : Grammar) : Recogniser := fun c => do
  let c ← primary g c
  many (fun c => c.is "[" && !c.newline)
    (fun c =>
      if c.advance.is "]" then some c.advance.advance
      else do
        let c ← within Scope.bracketed (g .typeExpression) c.advance
        expect "]" c) c

/-- The constraint behind an inferred name. A constraint that a question mark follows belongs to the
conditional type around it instead. -/
def inferConstraint (g : Grammar) : Recogniser := fun c =>
  if c.isWord "extends" then
    match within ({ · with allowsConditional := false }) (g .typeExpression) c.advance with
    | some d => if d.is "?" && c.scope.allowsConditional then some c else some d
    | none => some c
  else some c

/-- Can a type start here? -/
def startsType (c : Cursor) : Bool :=
  match c.lexeme with
  | .word _ => isTypeName c || c.isWord "typeof" || c.isWord "import" || c.isWord "new"
  | .string _ | .number | .template => true
  | .mark m => ["(", "[", "\x7b", "-", "<"].contains m
  | _ => false

/-- An operand of a union or an intersection: type operators before a type. -/
def operand (g : Grammar) : Recogniser := fun c => do
  let c ← many
    (fun c => c.word?.any ["keyof", "unique", "readonly"].contains && startsType c.advance)
    (fun c => some c.advance) c
  if c.isWord "infer" && c.advance.isName then inferConstraint g c.advance.advance
  else postfixed g c

/-- Operands with `|` and `&` between them, and possibly before the first. -/
def union (g : Grammar) : Recogniser := fun c => do
  let c := if c.is "|" || c.is "&" then c.advance else c
  steps (fun c => do
    let c ← operand g c
    if c.is "|" || c.is "&" then some (true, c.advance) else some (false, c)) c

/-- The branches of a conditional type, if one stands here. -/
def conditionalTail (g : Grammar) : Recogniser := fun c =>
  if c.scope.allowsConditional && c.isWord "extends" && !c.newline then do
    let c ← within ({ · with allowsConditional := false }) (g .typeExpression) c.advance
    let c ← expect "?" c
    let c ← within ({ · with allowsConditional := true }) (g .typeExpression) c
    let c ← expect ":" c
    within ({ · with allowsConditional := true }) (g .typeExpression) c
  else some c

/-- A type. -/
def type (g : Grammar) : Recogniser := fun c =>
  if c.is "<" then functionType g c
  else if c.isWord "new" then functionType g c.advance
  else if c.isWord "abstract" && c.advance.isWord "new" then functionType g c.advance.advance
  else
    match if c.is "(" then functionType g c else none with
    | some d => some d
    | none => do
      let c ← union g c
      conditionalTail g c

end ImportOrder.TypeExpression
