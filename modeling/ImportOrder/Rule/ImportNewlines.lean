import ImportOrder.AttachedRange
import ImportOrder.Group

/-!
# The rule on blank lines

Neighbouring statements of one group stand on consecutive lines, and statements of different groups
are separated by at least one blank line. Lines with comments do not count as blank.

## Main definitions

- `Source.blankLinesBetween`: the blank lines between two spans
- `Source.lineBreak`: the line terminator to insert
- `ImportNewlines.removalFix`, `ImportNewlines.insertionFix`
- `ImportNewlines.rule`
-/

namespace ImportOrder

namespace Source

/-- The blank lines from line `line` on: those between it and the first comment, those between one
comment and the next, and those before the line `last`. -/
def blankLinesFrom (source : Source) (last : Nat) : (line : Nat) → List Span → Nat
  | line, [] => last - (line + 1)
  | line, comment :: comments =>
    source.lineOf comment.start - (line + 1) +
      source.blankLinesFrom last (source.lineOf comment.stop) comments

/-- The number of blank lines between the end of one span and the start of another. -/
def blankLinesBetween (source : Source) (left right : Span) : Nat :=
  let line := source.lineOf left.stop
  let last := source.lineOf right.start
  if last ≤ line + 1 then 0
  else source.blankLinesFrom last line (source.commentsBetween left right)

/-- The space between two spans, if it holds no comment. -/
def gap? (source : Source) (left right : Span) : Option Span :=
  if left.stop ≤ right.start ∧ source.commentsBetween left right = [] then
    some ⟨left.stop, right.start⟩
  else none

/-- Does the first line feed of a text follow a carriage return? -/
def firstBreakIsPair : Text → Bool
  | [] => false
  | '\r' :: '\n' :: _ => true
  | c :: text => if c = '\n' then false else firstBreakIsPair text

/-- The line terminator in use: that of the gap, or else the first one of the file. -/
def lineBreak (source : Source) (gap : Span) : Checked Text := do
  let inGap ← source.slice gap
  let sample := if inGap.contains '\n' then inGap else source.text
  return if firstBreakIsPair sample then ['\r', '\n'] else ['\n']

end Source

namespace ImportNewlines

/-- The name of the rule. -/
def name : String := "import-newlines"

/-- The fix that leaves one line break between two spans and keeps the indentation of the second. -/
def removalFix (source : Source) (left right : Span) : Checked (Option Fix) :=
  match source.gap? left right with
  | none => .ok none
  | some gap => do
    let lineStart := max (source.text.lineStart right.start) gap.start
    let indentation ← source.slice ⟨lineStart, right.start⟩
    let lineBreak ← source.lineBreak gap
    return some ⟨[⟨gap, lineBreak ++ indentation⟩]⟩

/-- The fix that puts a blank line between two spans: before the line of the second, or in place of
the gap if the two share a line. -/
def insertionFix (source : Source) (left right : Span) : Checked (Option Fix) :=
  match source.gap? left right with
  | none => .ok none
  | some gap => do
    let lineStart := source.text.lineStart right.start
    let lineBreak ← source.lineBreak gap
    return some ⟨[if lineStart > gap.start then Edit.insertAt lineStart lineBreak
      else ⟨gap, lineBreak ++ lineBreak⟩]⟩

/-- A statement as the rule sees it: its group and its range with comments. -/
structure Item where
  /-- The group, if the statement is an import or an export. -/
  group : Option Group
  /-- The range of the statement with its comments. -/
  range : Span
deriving DecidableEq, Repr, Inhabited

/-- What the rule sees of a statement. -/
def item (source : Source) (packages : Packages) (statement : Statement) : Checked Item := do
  let group ← source.group? packages statement
  let range ← source.attachedRange statement.span
  return ⟨group, range.bare⟩

/-- The report about a statement, at the start of its range. -/
def report (source : Source) (id message : String) (range : Span) (fix : Option Fix) : Diagnostic :=
  Diagnostic.make source name id message (Span.at range.start) fix

/-- The report about the second of two neighbouring statements, if both belong to groups and the
blank lines between them are wrong. -/
def checkPair (source : Source) (previous next : Item) : Checked (List Diagnostic) :=
  match previous.group, next.group with
  | some g, some h =>
    let blank := source.blankLinesBetween previous.range next.range
    if g = h ∧ 1 ≤ blank then do
      let fix ← removalFix source previous.range next.range
      return [report source "removeNewline" "Remove the extra newline between imports"
        next.range fix]
    else if g ≠ h ∧ blank = 0 then do
      let fix ← insertionFix source previous.range next.range
      return [report source "insertNewline" "Add the missing newline between imports"
        next.range fix]
    else .ok []
  | _, _ => .ok []

/-- Reports missing blank lines between groups and extra ones within a group. -/
def rule : Rule where
  name := name
  check source packages := do
    let items ← source.statements.mapM (item source packages)
    let reports ← (items.zip items.tail).mapM fun (previous, next) => checkPair source previous next
    return reports.flatten

end ImportNewlines

end ImportOrder
