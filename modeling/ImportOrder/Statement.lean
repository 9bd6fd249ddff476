import ImportOrder.Text.Basic

/-!
# Top-level statements

The flat view of a file on which the rules work: what a statement is as far as ordering cares, and
where it stands.

## Main definitions

- `StatementKind`, `Statement`
- `Statement.path?`: the module path that a statement refers to
-/

namespace ImportOrder

/-- The form of a top-level statement. -/
inductive StatementKind where
  /-- An import declaration. -/
  | importDecl
  /-- A list of exported names, local or from another module. -/
  | exportList
  /-- An export together with the declaration of what it exports. -/
  | exportDecl
  /-- An export of all names of another module. -/
  | exportAll
  /-- Anything else. -/
  | other
deriving DecidableEq, Repr, Inhabited

/-- A top-level statement. -/
structure Statement where
  /-- The form of the statement. -/
  kind : StatementKind
  /-- The number of names that it binds or exports. -/
  specifiers : Nat
  /-- Does it carry the `type` modifier? -/
  typeOnly : Bool
  /-- The path of the module that it names. -/
  modulePath : Option String
  /-- Its place, without surrounding blanks and comments. -/
  span : Span
deriving DecidableEq, Repr, Inhabited

namespace Statement

/-- A statement that is neither an import nor an export. -/
def plain (span : Span) : Statement :=
  ⟨.other, 0, false, none, span⟩

/-- The module path that an import or export refers to. -/
def path? (statement : Statement) : Option String :=
  match statement.kind with
  | .other => none
  | _ => statement.modulePath

end Statement

end ImportOrder
