import ImportOrder.Grammar.StatementForm
import ImportOrder.Statement

/-!
# Imports and exports

The items of a module: statements, imports and exports. Of each it is noted what the ordering of
imports has to know.

## Main definitions

- `Outline`: a statement without its place
- `ModuleItem.importItem`, `ModuleItem.exportItem`, `ModuleItem.item`

## Design notes

`type` is a modifier or an ordinary name, depending on what follows. In braces both readings of an
entry are tried, and the one that reaches the end of the entry is taken.
-/

namespace ImportOrder

/-- What is known of a statement besides its place. -/
structure Outline where
  /-- The form of the statement. -/
  kind : StatementKind
  /-- The number of names that it binds or exports. -/
  specifiers : Nat
  /-- Does it carry the `type` modifier? -/
  typeOnly : Bool
  /-- The path of the module that it names. -/
  modulePath : Option String
deriving DecidableEq, Repr, Inhabited

/-- A statement that is neither an import nor an export. -/
def Outline.plain : Outline := ⟨.other, 0, false, none⟩

/-- The statement with an outline at a place. -/
def Outline.at (outline : Outline) (span : Span) : Statement :=
  ⟨outline.kind, outline.specifiers, outline.typeOnly, outline.modulePath, span⟩

namespace ModuleItem

open Cursor

/-- A name or a quoted name. -/
def exportName : Recogniser := fun c =>
  if c.isName || c.isString then some c.advance else none

/-- Does an entry in braces end here? -/
def entryEnds (c : Cursor) : Bool :=
  c.is "," || c.is "\x7d"

/-- An imported name, possibly bound to another one. -/
def importName : Recogniser := fun c => do
  let next ← exportName c
  if next.isWord "as" then identifier next.advance
  else if c.isIdentifier then some next
  else none

/-- An exported name, possibly under another one. -/
def exportedName : Recogniser := fun c => do
  let c ← exportName c
  if c.isWord "as" then exportName c.advance else some c

/-- An entry in braces, and the cursor at its first name. A `type` modifier may come before it,
unless the whole statement carries one. -/
def entry (typeOnly : Bool) (single : Recogniser) (c : Cursor) : Option (Cursor × Cursor) :=
  match (single c).filter entryEnds with
  | some d => some (c, d)
  | none =>
    if c.typescript && c.isWord "type" && !typeOnly then
      ((single c.advance).filter entryEnds).map (c.advance, ·)
    else none

/-- Entries with commas between them up to a closing brace: their number, and whether each first
name can name a local binding. One entry uses up one unit of `fuel`. -/
def entriesIn (typeOnly : Bool) (single : Recogniser) :
    (fuel : Nat) → (count : Nat) → (isLocal : Bool) → Cursor → Option (Nat × Bool × Cursor)
  | 0, _, _, _ => none
  | fuel + 1, count, isLocal, c =>
    if c.is "\x7d" then some (count, isLocal, c.advance)
    else do
      let (first, c) ← entry typeOnly single c
      entriesIn typeOnly single fuel (count + 1) (isLocal && first.isIdentifier) (c.skip ",")

/-- A list of entries in braces: their number, and whether each first name can name a local binding.
-/
def entries (typeOnly : Bool) (single : Recogniser) (c : Cursor) :
    Option (Nat × Bool × Cursor) := do
  let c ← expect "\x7b" c
  entriesIn typeOnly single (c.rest.length + 1) 0 true c

/-- One attribute of an imported module. -/
def moduleAttribute : Recogniser := fun c => do
  let c ← exportName c
  let c ← expect ":" c
  if c.isString then some c.advance else none

/-- The attributes of an imported module, if some stand here. -/
def moduleAttributes : Recogniser := fun c =>
  if c.isWord "with" || (c.isWord "assert" && !c.newline) then do
    let c ← expect "\x7b" c.advance
    commaList moduleAttribute "\x7d" c
  else some c

/-- The path of a module, with its attributes and the end of the statement. -/
def modulePath (c : Cursor) : Option (String × Cursor) :=
  match c.lexeme with
  | .string path => do
    let c ← moduleAttributes c.advance
    let c ← semicolon c
    return (path, c)
  | _ => none

/-- The word `from` and the path of a module. -/
def fromModule (c : Cursor) : Option (String × Cursor) := do
  let c ← expectWord "from" c
  modulePath c

/-- The names that an import binds besides the default: all under one name, or a list. -/
def namedBindings (typeOnly : Bool) (c : Cursor) : Option (Nat × Cursor) :=
  if c.is "*" then do
    let c ← expectWord "as" c.advance
    let c ← identifier c
    return (1, c)
  else do
    let (count, _, c) ← entries typeOnly importName c
    return (count, c)

/-- All names that an import binds. -/
def bindings (typeOnly : Bool) (c : Cursor) : Option (Nat × Cursor) :=
  if c.isIdentifier then
    let next := c.advance
    if next.is "," then (namedBindings typeOnly next.advance).map fun (n, d) => (n + 1, d)
    else some (1, next)
  else namedBindings typeOnly c

/-- An import that binds names. -/
def bindingImport (typeOnly : Bool) (c : Cursor) : Option (Outline × Cursor) := do
  let (count, c) ← bindings typeOnly c
  let (path, c) ← fromModule c
  return (⟨.importDecl, count, typeOnly, some path⟩, c)

/-- An import of a namespace or of a module under a name, from the name on. -/
def importAlias : Recogniser := fun c =>
  if c.typescript then do
    let c ← identifier c
    let c ← expect "=" c
    if c.isWord "require" && c.advance.is "(" then
      let c := c.advance.advance
      if c.isString then
        let c ← expect ")" c.advance
        semicolon c
      else none
    else
      let c ← separated name "." c
      semicolon c
  else none

/-- Is the word `type` at the cursor a modifier of the import? -/
def isTypeModifier (c : Cursor) : Bool :=
  let next := c.advance
  let third := next.advance
  c.typescript && c.isWord "type" &&
    (!next.isWord "from" || third.isWord "from" || third.is "=") &&
    (next.isIdentifier || next.is "*" || next.is "\x7b")

/-- Is the word at the cursor a phase of the import? -/
def isPhase (c : Cursor) : Bool :=
  let next := c.advance
  (c.isWord "defer" && next.is "*") ||
    (c.isWord "source" && next.isIdentifier && (!next.isWord "from" || next.advance.isWord "from"))

/-- An import with names, or an alias if an equals sign follows the first of them. -/
def importClause (typeOnly : Bool) (c : Cursor) : Option (Outline × Cursor) :=
  if c.isIdentifier && c.advance.is "=" then (importAlias c).map (Outline.plain, ·)
  else bindingImport typeOnly c

/-- An import declaration behind its keyword. -/
def importDeclaration (c : Cursor) : Option (Outline × Cursor) :=
  if c.isString then (modulePath c).map fun (path, d) => (⟨.importDecl, 0, false, some path⟩, d)
  else if isTypeModifier c then importClause true c.advance
  else if isPhase c then bindingImport false c.advance
  else importClause false c

/-- An item that starts with `import`. -/
def importItem (g : Grammar) (c : Cursor) : Option (Outline × Cursor) :=
  if c.advance.is "(" || c.advance.is "." then
    (StatementForm.statement g c).map (Outline.plain, ·)
  else importDeclaration c.advance

/-- A list of exported names, local or from a module. -/
def exportList (typeOnly : Bool) (c : Cursor) : Option (Outline × Cursor) := do
  let (count, isLocal, c) ← entries typeOnly exportedName c
  if c.isWord "from" then
    let (path, c) ← fromModule c
    return (⟨.exportList, count, typeOnly, some path⟩, c)
  else if isLocal then
    let c ← semicolon c
    return (⟨.exportList, count, typeOnly, none⟩, c)
  else none

/-- An export of all names of a module, behind the star. -/
def exportAll (typeOnly : Bool) (c : Cursor) : Option (Outline × Cursor) := do
  let c ← if c.isWord "as" then exportName c.advance else some c
  let (path, c) ← fromModule c
  return (⟨.exportAll, 0, typeOnly, some path⟩, c)

/-- What a default export exports. -/
def exportDefault (g : Grammar) : Recogniser := fun c =>
  let next := c.advance
  if c.isWord "function" then Function.declaration g false false c
  else if c.isWord "async" && next.isWord "function" && !next.newline then
    Function.declaration g true false next
  else if c.isWord "class" then g .classTail next
  else if c.is "@" then Declaration.declaration g c
  else if c.typescript && c.isWord "abstract" && next.isWord "class" && !next.newline then
    g .classTail next.advance
  else if c.typescript && c.isWord "interface" && Declaration.nameFollows c then
    Declaration.interface g next
  else do
    let c ← g .assignment c
    semicolon c

/-- An export of a declaration. Interfaces, type aliases and announcements export types. -/
def exportDeclaration (g : Grammar) (c : Cursor) : Option (Outline × Cursor) := do
  let typeOnly := c.isWord "interface" || c.isWord "type" || c.isWord "declare"
  let c ← Declaration.declaration g c
  return (⟨.exportDecl, 0, typeOnly, none⟩, c)

/-- An export that only dialects with types have. -/
def typedExport (g : Grammar) (c : Cursor) : Option (Outline × Cursor) :=
  let next := c.advance
  if c.is "=" then (StatementForm.expressionStatement g next).map (Outline.plain, ·)
  else if c.isWord "as" then do
    let c ← expectWord "namespace" next
    let c ← identifier c
    let c ← semicolon c
    return (Outline.plain, c)
  else if c.isWord "import" then do
    let c ← importAlias (if isTypeModifier next then next.advance else next)
    return (⟨.exportDecl, 0, false, none⟩, c)
  else if c.isWord "type" && next.is "\x7b" then exportList true next
  else if c.isWord "type" && next.is "*" then exportAll true next.advance
  else exportDeclaration g c

/-- An item that starts with `export`. -/
def exportItem (g : Grammar) (c : Cursor) : Option (Outline × Cursor) :=
  let c := c.advance
  if c.is "*" then exportAll false c.advance
  else if c.is "\x7b" then exportList false c
  else if c.isWord "default" then (exportDefault g c.advance).map (Outline.plain, ·)
  else if c.typescript then typedExport g c
  else exportDeclaration g c

/-- An item of a module. -/
def item (g : Grammar) (c : Cursor) : Option (Outline × Cursor) :=
  if c.isWord "import" then importItem g c
  else if c.isWord "export" then exportItem g c
  else (StatementForm.statement g c).map (Outline.plain, ·)

end ModuleItem

end ImportOrder
