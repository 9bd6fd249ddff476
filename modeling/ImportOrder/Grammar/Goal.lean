import ImportOrder.Grammar.Cursor

/-!
# The goals of the grammar

The rules of the grammar refer to one another in circles. Each rule that closes a circle has a name
here, and every rule is written over a `Grammar` that says how the named rules are recognised. The
circle is closed in one place, where the grammar is built by recursion.

## Main definitions

- `Goal`, `Grammar`
-/

namespace ImportOrder

/-- The rules of the grammar that other rules refer to. -/
inductive Goal where
  /-- Expressions with commas between them. -/
  | expression
  /-- One expression without commas. -/
  | assignment
  /-- An operand of a binary operator. -/
  | unary
  /-- A primary expression with its accesses and calls. -/
  | leftHandSide
  /-- A type. -/
  | typeExpression
  /-- A name or a pattern that is bound. -/
  | binding
  /-- The parameters, the result type and the body of a function. -/
  | functionTail
  /-- The rest of a class behind its keyword. -/
  | classTail
  /-- Markup, up to but without its last `>`. -/
  | markup
  /-- A statement. -/
  | statement
  /-- A statement, an import or an export. -/
  | moduleItem
deriving DecidableEq, Repr, Inhabited

/-- A recogniser for every goal. -/
abbrev Grammar := Goal → Recogniser

namespace Cursor

/-- The pieces of a template behind its backquote or behind the brace that closes a hole. -/
def templateTail (hole : Recogniser) : Recogniser :=
  steps fun c => do
    let (closed, rest) ← Lexeme.templateChunk? c.after
    if closed then some (false, c.moveTo rest)
    else
      let c ← within Scope.bracketed hole (c.moveTo rest)
      if c.is "\x7d" then some (true, c) else none

end Cursor

end ImportOrder
