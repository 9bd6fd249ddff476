import ImportOrder.Source

/-!
# Statements with their comments

A statement moves together with the comments attached to it: those above it with no blank line in
between, and those that follow it on its last line. A comment never attaches across the line of a
neighbouring statement, and the `#!` line attaches to nothing.

## Main definitions

- `AttachedRange`: the two ranges of a statement
- `Source.attachedStart`, `Source.attachedStop`: how far the comments on either side reach
- `Source.attachedRange`
-/

namespace ImportOrder

/-- The range of a statement with its attached comments. -/
structure AttachedRange where
  /-- The range together with the blanks that follow on the line and one line terminator, so that
  whoever moves it moves the end of its line along. -/
  full : Span
  /-- The range itself. -/
  bare : Span
deriving DecidableEq, Repr, Inhabited

namespace Source

/-- The start of the outermost comment attached above: comments are taken closest first, as long as
each starts below the line `limit` and ends on the line before the item it precedes or later. The
item so far starts at offset `start` on line `line`. -/
def attachedStart (source : Source) (hashbang : Option Span) (limit : Nat) :
    (line start : Nat) → List Span → Nat
  | _, start, [] => start
  | line, start, comment :: comments =>
    if some comment = hashbang ∨ source.lineOf comment.start ≤ limit ∨
        source.lineOf comment.stop < line - 1 then start
    else source.attachedStart hashbang limit (source.lineOf comment.start) comment.start comments

/-- The end of the last comment attached behind: comments are taken in order, as long as each starts
on the line `line` and ends above the line `limit`, if there is one. -/
def attachedStop (source : Source) (limit : Option Nat) (line : Nat) :
    (stop : Nat) → List Span → Nat
  | stop, [] => stop
  | stop, comment :: comments =>
    if limit.any (· ≤ source.lineOf comment.stop) ∨ source.lineOf comment.start ≠ line then stop
    else source.attachedStop limit line comment.stop comments

/-- The range of a statement with the comments attached to it. -/
def attachedRange (source : Source) (span : Span) : Checked AttachedRange := do
  let above := (source.statementBefore? span).elim 0 (source.lineOf ·.stop)
  let below := (source.statementAfter? span).map (source.lineOf ·.start)
  let hashbang ← source.hashbang?
  let start := source.attachedStart hashbang above (source.lineOf span.start) span.start
    (source.commentsBefore span)
  let stop := source.attachedStop below (source.lineOf span.stop) span.stop
    (source.commentsAfter span)
  let rest ← source.text.sliceFrom stop
  let blanks : Text := rest.takeWhile Character.isInlineBlank
  let after : Text := rest.dropWhile Character.isInlineBlank
  return ⟨⟨start, stop + blanks.byteLength + after.lineBreakLength⟩, ⟨start, stop⟩⟩

end Source

end ImportOrder
