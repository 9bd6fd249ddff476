import ImportOrder.Diagnostic

/-!
# Rules

A rule looks at one source, knowing which packages are declared, and reports what is out of order.

## Main definitions

- `Packages`: the known packages
- `Rule`
- `Source.check`: the reports of several rules in document order
-/

namespace ImportOrder

/-- The names of the known packages: builtins, declared packages and dependencies. -/
abbrev Packages := List String

/-- A rule with its name. -/
structure Rule where
  /-- The name under which the rule reports. -/
  name : String
  /-- The reports of the rule about a source. -/
  check : Source → Packages → Checked (List Diagnostic)

namespace Source

/-- The reports of all rules, rule by rule. -/
def diagnostics (source : Source) (rules : List Rule) (packages : Packages) :
    Checked (List Diagnostic) := do
  let reports ← rules.mapM (·.check source packages)
  return reports.flatten

/-- The reports of all rules in document order; those about one span stay in the order of the
rules. -/
def check (source : Source) (rules : List Rule) (packages : Packages) :
    Checked (List Diagnostic) := do
  let reports ← source.diagnostics rules packages
  return reports.mergeSort Diagnostic.precedes

end Source

end ImportOrder
