import ImportOrder.Category

/-!
# Violations of the order of categories

Which pairs of neighbouring categories are out of order, and what is said about each.

## Main definitions

- `Violation`, `Violation.between`
- `Violation.id`, `Violation.message`
-/

namespace ImportOrder

/-- The ways in which a statement may break the order. -/
inductive Violation where
  /-- An import comes after the code. -/
  | importAfterStatement
  /-- An import comes after an export. -/
  | importAfterExport
  /-- A type import comes after a value import. -/
  | typeImportAfterValueImport
  /-- An import for side effects comes after an import of names. -/
  | moduleImportAfterOtherImport
  /-- An export comes after the code. -/
  | exportAfterStatement
  /-- An export from another module comes after an export of local names. -/
  | reexportAfterExport
  /-- An export of types comes after an export of values. -/
  | typeExportAfterValueExport
  /-- An export of types from a module comes after an export of values from a module. -/
  | typeReexportAfterValueReexport
deriving DecidableEq, Repr, Inhabited

namespace Violation

/-- The violation that `next` commits directly after `last`; the first that applies is taken. -/
def between (last next : Category) : Option Violation :=
  if last = .plain ∧ next.isImport then some .importAfterStatement
  else if last.isAnyExport ∧ next.isImport then some .importAfterExport
  else if last = .valueImport ∧ next = .typeImport then some .typeImportAfterValueImport
  else if last.isImport ∧ last ≠ .moduleImport ∧ next = .moduleImport then
    some .moduleImportAfterOtherImport
  else if last = .plain ∧ next.isAnyExport then some .exportAfterStatement
  else if last.isExport ∧ next.isReexport then some .reexportAfterExport
  else if last = .valueExport ∧ next = .typeExport then some .typeExportAfterValueExport
  else if last = .valueReexport ∧ next = .typeReexport then some .typeReexportAfterValueReexport
  else none

/-- The identifier of a violation. -/
def id : Violation → String
  | importAfterStatement => "importAfterStatement"
  | importAfterExport => "importAfterExport"
  | typeImportAfterValueImport => "importTypeAfterImport"
  | moduleImportAfterOtherImport => "importModuleAfterImport"
  | exportAfterStatement => "exportAfterStatement"
  | reexportAfterExport => "reexportAfterExport"
  | typeExportAfterValueExport => "exportTypeAfterExport"
  | typeReexportAfterValueReexport => "reexportTypeAfterReexport"

/-- A violation in words. -/
def message : Violation → String
  | importAfterStatement => "Imports should come before the code"
  | importAfterExport => "Imports should come before exports"
  | typeImportAfterValueImport => "Types should be imported before values"
  | moduleImportAfterOtherImport => "Modules with side effects should be imported first"
  | exportAfterStatement => "Exports should come before the code"
  | reexportAfterExport => "Re-exports should come before exports"
  | typeExportAfterValueExport => "Types should be exported before values"
  | typeReexportAfterValueReexport => "Types should be re-exported before values"

end Violation

end ImportOrder
