import ImportOrder.Source

/-!
# Categories of statements

Every top-level statement falls into one of eight categories, and a well-ordered file lists them by
increasing rank:

| Rank | Category        | Example                       |
|------|-----------------|-------------------------------|
| 0    | `moduleImport`  | `import 'polyfill';`          |
| 1    | `typeImport`    | `import type { A } from 'a';` |
| 2    | `valueImport`   | `import { a } from 'a';`      |
| 3    | `typeReexport`  | `export type { A } from 'a';` |
| 4    | `valueReexport` | `export * from 'a';`          |
| 5    | `typeExport`    | `export type { A };`          |
| 6    | `valueExport`   | `export { a };`               |
| 7    | `plain`         | anything else                 |

## Main definitions

- `Category`, `Category.rank`
- `Source.classify`: the category of a statement
-/

namespace ImportOrder

/-- The categories, by increasing rank. -/
inductive Category where
  /-- An import for its side effects only. -/
  | moduleImport
  /-- An import of types. -/
  | typeImport
  /-- An import of values. -/
  | valueImport
  /-- An export of types from another module. -/
  | typeReexport
  /-- An export of values from another module. -/
  | valueReexport
  /-- An export of local types. -/
  | typeExport
  /-- An export of local values. -/
  | valueExport
  /-- Any other statement. -/
  | plain
deriving DecidableEq, Repr, Inhabited

namespace Category

/-- All categories by increasing rank. -/
def all : List Category :=
  [moduleImport, typeImport, valueImport, typeReexport, valueReexport, typeExport, valueExport,
    plain]

/-- The place of a category in a well-ordered file. -/
def rank : Category → Nat
  | moduleImport => 0
  | typeImport => 1
  | valueImport => 2
  | typeReexport => 3
  | valueReexport => 4
  | typeExport => 5
  | valueExport => 6
  | plain => 7

/-- Is it a category of imports? -/
def isImport : Category → Bool
  | moduleImport | typeImport | valueImport => true
  | _ => false

/-- Is it a category of exports of local names? -/
def isExport : Category → Bool
  | typeExport | valueExport => true
  | _ => false

/-- Is it a category of exports from another module? -/
def isReexport : Category → Bool
  | typeReexport | valueReexport => true
  | _ => false

/-- Is it a category of exports of either sort? -/
def isAnyExport (category : Category) : Bool :=
  category.isExport || category.isReexport

end Category

namespace Source

/-- Is an import made for side effects only? It then binds nothing and has no braces, which only the
token after `import` or `import type` gives away. -/
def isModuleImport (source : Source) (statement : Statement) : Checked Bool :=
  if statement.specifiers > 0 then .ok false
  else do
    let kind ← source.text.tokenKind statement.span (if statement.typeOnly then 2 else 1)
    return kind != some .punctuator

/-- The category of a list of exports. -/
def exportCategory (reexport typeOnly : Bool) : Category :=
  match reexport, typeOnly with
  | true, true => .typeReexport
  | true, false => .valueReexport
  | false, true => .typeExport
  | false, false => .valueExport

/-- The category of a statement. -/
def classify (source : Source) (statement : Statement) : Checked Category :=
  match statement.kind with
  | .importDecl => do
    if ← source.isModuleImport statement then return .moduleImport
    else return if statement.typeOnly then .typeImport else .valueImport
  | .exportList | .exportAll =>
    .ok (exportCategory statement.modulePath.isSome statement.typeOnly)
  | .exportDecl | .other => .ok .plain

end Source

end ImportOrder
