import ImportOrder.AttachedRange
import ImportOrder.Rule.Basic
import ImportOrder.Rule.Violation

/-!
# The rule on the order of statements

Statements are expected by increasing rank of their categories. Each one that breaks the order with
the statement right before it is reported, with a fix that moves it behind the last statement that
it may follow.

## Main definitions

- `StatementOrder.insertionPoint`: where a statement is moved
- `StatementOrder.rule`
-/

namespace ImportOrder.StatementOrder

/-- The name of the rule. -/
def name : String := "statement-order"

/-- The end of the last statement seen so far whose rank is at most that of `category`; if there is
none, the start of the file, which is the line after the `#!` line when there is one. The statements
seen come latest first. -/
def insertionPoint (source : Source) (seen : List (Category × Span)) (category : Category) :
    Checked Nat :=
  match seen.find? (·.1.rank ≤ category.rank) with
  | some (_, span) => (·.full.stop) <$> source.attachedRange span
  | none => do
    match ← source.hashbang? with
    | some hashbang => source.afterLineBreak hashbang.stop
    | none => return 0

/-- The report about a statement that commits a violation after those seen. -/
def report (source : Source) (seen : List (Category × Span)) (category : Category) (span : Span)
    (violation : Violation) : Checked Diagnostic := do
  let range := (← source.attachedRange span).full
  let target ← insertionPoint source seen category
  let fix ← Fix.relocate source.text range target
  return Diagnostic.make source name violation.id violation.message range (some fix)

/-- The report about a statement after those seen, if it breaks the order with the latest of them.
-/
def reportAfter (source : Source) (seen : List (Category × Span)) (category : Category)
    (span : Span) : Checked (List Diagnostic) :=
  match seen.head?.bind (Violation.between ·.1 category) with
  | some violation => (fun d => [d]) <$> report source seen category span violation
  | none => .ok []

/-- The reports about the remaining statements, given those seen, latest first. -/
def checkFrom (source : Source) :
    (seen : List (Category × Span)) → List Statement → Checked (List Diagnostic)
  | _, [] => .ok []
  | seen, statement :: statements => do
    let category ← source.classify statement
    let here ← reportAfter source seen category statement.span
    let later ← checkFrom source ((category, statement.span) :: seen) statements
    return here ++ later

/-- Reports the statements that come right after one of a higher category. -/
def rule : Rule where
  name := name
  check source _ := checkFrom source [] source.statements

end ImportOrder.StatementOrder
