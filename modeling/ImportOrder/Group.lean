import ImportOrder.Category
import ImportOrder.Rule.Basic

/-!
# Groups of imports and exports

Groups are the blocks that blank lines separate. Types and values share a group, and known packages
stand apart from other modules.

## Main definitions

- `Group`, `Group.of?`
-/

namespace ImportOrder

/-- The blocks of imports and exports. -/
inductive Group where
  /-- Imports for side effects. -/
  | moduleImport
  /-- Imports from known packages. -/
  | packageImport
  /-- Other imports. -/
  | otherImport
  /-- Exports from known packages. -/
  | packageReexport
  /-- Exports from other modules. -/
  | otherReexport
  /-- Exports of local names. -/
  | localExport
deriving DecidableEq, Repr, Inhabited

namespace Group

/-- The group of a statement of a category that names a module; plain statements have none. -/
def of? (packages : Packages) (category : Category) (path : Option String) : Option Group :=
  let known := path.any packages.contains
  match category with
  | .plain => none
  | .moduleImport => some moduleImport
  | .typeImport | .valueImport => some (if known then packageImport else otherImport)
  | .typeReexport | .valueReexport => some (if known then packageReexport else otherReexport)
  | .typeExport | .valueExport => some localExport

end Group

/-- The group of a statement of a source. -/
def Source.group? (source : Source) (packages : Packages) (statement : Statement) :
    Checked (Option Group) :=
  (Group.of? packages · statement.path?) <$> source.classify statement

end ImportOrder
