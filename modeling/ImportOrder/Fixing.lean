import ImportOrder.Rule.Basic

/-!
# Applying fixes

Several fixes are applied to a text in one pass: each is merged into one edit, and an edit that
starts at or before the end of the one applied before it is left for the next pass. Passes are
repeated until nothing applies. Rules settle one at a time, in the order given: a pass applies the
fixes of the first rule that has one to apply.

## Main definitions

- `Text.applyFixes`: one pass
- `Fixing.leading?`: the outcome for the first rule with a fix to apply
- `Fixing.untilStable`: passes up to a cap

## Design notes

The reader of texts and the rules are parameters of `Fixing.untilStable`, which recurses on the
number of passes that are left.
-/

namespace ImportOrder

/-- The result of one pass. -/
structure FixOutcome where
  /-- The text after the pass. -/
  output : Text
  /-- The number of fixes applied. -/
  applied : Nat
  /-- The number of fixes left out. -/
  skipped : Nat
deriving DecidableEq, Repr, Inhabited

namespace Text

/-- Applies edits in order to the text from `cursor` on, leaving out every edit that starts at or
before `last`, the end of the edit applied before it. -/
def applyEdits (text : Text) : (cursor : Nat) → (last : Option Nat) → List Edit → Checked FixOutcome
  | cursor, _, [] => do
    let rest ← text.sliceFrom cursor
    return ⟨rest, 0, 0⟩
  | cursor, last, edit :: edits =>
    if last.any (edit.span.start ≤ ·) then do
      let outcome ← text.applyEdits cursor last edits
      return { outcome with skipped := outcome.skipped + 1 }
    else do
      let kept ← text.slice ⟨cursor, edit.span.start⟩
      let outcome ← text.applyEdits edit.span.stop (some edit.span.stop) edits
      return { outcome with
        output := kept ++ edit.text ++ outcome.output
        applied := outcome.applied + 1 }

/-- Applies the fixes of the reports that do not conflict with one another. -/
def applyFixes (text : Text) (diagnostics : List Diagnostic) : Checked FixOutcome := do
  let fixes := diagnostics.filterMap (·.fix)
  let merged ← fixes.mapM (·.merged text)
  let edits := merged.filterMap id
  let outcome ← text.applyEdits 0 none (edits.mergeSort Edit.precedes)
  return { outcome with skipped := outcome.skipped + (fixes.length - edits.length) }

end Text

/-- Why a fixing run stops without a result. -/
inductive FixError where
  /-- A text of the run does not parse. -/
  | unreadable
  /-- A rule or a fix cut a text where it cannot be cut. -/
  | badSlice (cut : BadSlice)
deriving DecidableEq, Repr, Inhabited

/-- The result of a fixing run. -/
structure FixRun where
  /-- The final text. -/
  output : Text
  /-- The number of passes that were made. -/
  passes : Nat
  /-- The reports about the final text, rule by rule. -/
  remaining : List Diagnostic
deriving DecidableEq, Repr, Inhabited

namespace Fixing

/-- The outcome of the pass for the first rule that has a fix to apply. -/
def leading? (text : Text) (diagnostics : List Diagnostic) : List Rule → Checked (Option FixOutcome)
  | [] => .ok none
  | rule :: rules => do
    let outcome ← text.applyFixes (diagnostics.filter (·.rule = rule.name))
    if outcome.applied > 0 then return some outcome else leading? text diagnostics rules

/-- The reports of the rules about a text. -/
def diagnose (parse : Text → Option Source) (rules : List Rule) (packages : Packages)
    (text : Text) : Except FixError (List Diagnostic) :=
  match parse text with
  | none => .error .unreadable
  | some source => (source.diagnostics rules packages).mapError .badSlice

/-- Makes passes until no fix applies or `cap` passes have been made. -/
def untilStable (parse : Text → Option Source) (rules : List Rule) (packages : Packages) :
    (cap : Nat) → Text → Except FixError FixRun
  | 0, text => do
    let diagnostics ← diagnose parse rules packages text
    return ⟨text, 0, diagnostics⟩
  | cap + 1, text => do
    let diagnostics ← diagnose parse rules packages text
    if diagnostics.all (·.fix.isNone) then return ⟨text, 0, diagnostics⟩
    else match ← (leading? text diagnostics rules).mapError .badSlice with
      | none => return ⟨text, 0, diagnostics⟩
      | some outcome => do
        let run ← untilStable parse rules packages cap outcome.output
        return { run with passes := run.passes + 1 }

/-- The passes that a run makes unless told otherwise. -/
def defaultCap : Nat := 10

end Fixing

end ImportOrder
