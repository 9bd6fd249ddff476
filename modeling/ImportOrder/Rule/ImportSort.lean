import ImportOrder.AttachedRange
import ImportOrder.Category
import ImportOrder.ModulePath

/-!
# The rule on the order of module paths

Neighbouring statements of one category form a run, and the statements of a run that name a module
are expected in the order of their paths. The first statement that is out of place in a run is
reported, with a fix that moves it to its place.

## Main definitions

- `ImportSort.runs`: the maximal runs of statements of one category
- `ImportSort.misplaced?`: the first place where a run differs from its sorted form
- `ImportSort.rule`
-/

namespace ImportOrder.ImportSort

/-- The name of the rule. -/
def name : String := "import-sort"

/-- The identifier of its reports. -/
def wrongOrder : String := "wrongOrder"

/-- The message of its reports. -/
def wrongOrderMessage : String := "Imports and exports should be sorted by path"

/-- The maximal runs of neighbouring statements of one category. -/
def runs (statements : List (Category × Statement)) : List (List (Category × Statement)) :=
  statements.splitBy fun s t => s.1 = t.1

/-- The statements of a run that name a module, as the path and the span of each. -/
def entries (run : List (Category × Statement)) : List (String × Span) :=
  run.filterMap fun (_, statement) => statement.path?.map (·, statement.span)

/-- The entries in the order of their paths; entries whose paths compare equal keep their order. -/
def sorted (packages : Packages) (entries : List (String × Span)) : List (String × Span) :=
  entries.mergeSort fun a b => ModulePath.compare packages a.1 b.1 != .gt

/-- The first place where the sorted entries differ: the span that stands there and the span that
should. -/
def misplaced? (packages : Packages) (entries : List (String × Span)) : Option (Span × Span) :=
  ((entries.zip (sorted packages entries)).find? fun (a, b) => a.2 ≠ b.2).map
    fun (a, b) => (a.2, b.2)

/-- The report about a run, if it is out of order. -/
def checkRun (source : Source) (packages : Packages) (entries : List (String × Span)) :
    Checked (List Diagnostic) :=
  match misplaced? packages entries with
  | none => .ok []
  | some (actual, expected) => do
    let range := (← source.attachedRange expected).full
    let target := (← source.attachedRange actual).full.start
    let fix ← Fix.relocate source.text range target
    return [Diagnostic.make source name wrongOrder wrongOrderMessage range (some fix)]

/-- Reports the first statement of each run that is out of the order of paths. -/
def rule : Rule where
  name := name
  check source packages := do
    let statements ← source.statements.mapM fun s => (·, s) <$> source.classify s
    let reports ← (runs statements).mapM (checkRun source packages ∘ entries)
    return reports.flatten

end ImportOrder.ImportSort
