import ImportOrder.Edit
import ImportOrder.Source

/-!
# Diagnostics

What a rule reports: where, why, and how to mend it.

## Main definitions

- `Diagnostic`, `Diagnostic.make`
- `Diagnostic.precedes`: document order
-/

namespace ImportOrder

/-- A report of a rule about a span of a file. -/
structure Diagnostic where
  /-- The name of the rule. -/
  rule : String
  /-- The identifier of the kind of problem. -/
  id : String
  /-- The problem in words. -/
  message : String
  /-- The reported span. -/
  span : Span
  /-- The position of its start. -/
  start : Position
  /-- The position of its end. -/
  stop : Position
  /-- The fix, if there is one. -/
  fix : Option Fix
deriving DecidableEq, Repr, Inhabited

namespace Diagnostic

/-- The report about a span of a source. -/
def make (source : Source) (rule id message : String) (span : Span) (fix : Option Fix) :
    Diagnostic :=
  let (start, stop) := source.location span
  ⟨rule, id, message, span, start, stop, fix⟩

/-- Does the report carry a fix? -/
def isFixable (diagnostic : Diagnostic) : Bool :=
  diagnostic.fix.isSome

/-- Document order: by the start of the span, and at one start by its end. -/
def precedes (d e : Diagnostic) : Bool :=
  d.span.start < e.span.start || (d.span.start == e.span.start && d.span.stop ≤ e.span.stop)

end Diagnostic

end ImportOrder
