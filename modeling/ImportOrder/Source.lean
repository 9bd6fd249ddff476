import ImportOrder.Statement
import ImportOrder.Text.Lines
import ImportOrder.Token

/-!
# Parsed files

A source is a text together with its top-level statements and its comments. The rules ask it for
neighbouring statements, for the comments between them and for positions.

## Main definitions

- `Source`, `Source.ofParts`
- `Source.hashbang?`, `Source.afterLineBreak`
- `Source.statementBefore?`, `Source.statementAfter?`
- `Source.commentsBefore`, `Source.commentsAfter`, `Source.commentsBetween`

## Design notes

Nothing forces the spans of a source to fit its text, so the operations that cut the text are
checked. Statements are in document order: their starts and their ends do not decrease.
-/

namespace ImportOrder

/-- A file with its statements and comments. -/
structure Source where
  /-- The text of the file. -/
  text : Text
  /-- The top-level statements in document order. -/
  statements : List Statement
  /-- The comments by increasing start, a leading `#!` line among them. -/
  comments : List Span
deriving DecidableEq, Repr, Inhabited

namespace Source

/-- The source with the given statements and with the comments put in order. -/
def ofParts (text : Text) (statements : List Statement) (comments : List Span) : Source :=
  ⟨text, statements, comments.mergeSort fun c d => c.start ≤ d.start⟩

/-- The text of a span. -/
def slice (source : Source) (span : Span) : Checked Text :=
  source.text.slice span

/-- The line of an offset. -/
def lineOf (source : Source) (offset : Nat) : Nat :=
  source.text.lineOf offset

/-- The leading `#!` line without its terminator. -/
def hashbang? (source : Source) : Checked (Option Span) :=
  match source.comments with
  | [] => .ok none
  | comment :: _ =>
    if comment.start = 0 then do
      let text ← source.slice comment
      return if "#!".toList.isPrefixOf text then some comment else none
    else .ok none

/-- The offset past the line terminator at an offset, or the offset itself if none stands there. -/
def afterLineBreak (source : Source) (offset : Nat) : Checked Nat := do
  let rest ← source.text.sliceFrom offset
  return offset + rest.lineBreakLength

/-- The spans of the statements. -/
def spans (source : Source) : List Span :=
  source.statements.map (·.span)

/-- The last statement that ends at or before the start of a span. -/
def statementBefore? (source : Source) (span : Span) : Option Span :=
  (source.spans.takeWhile (·.stop ≤ span.start)).getLast?

/-- The first statement that starts at or after the end of a span. -/
def statementAfter? (source : Source) (span : Span) : Option Span :=
  source.spans.find? (span.stop ≤ ·.start)

/-- The comments between the statement before a span and the span, the closest first. -/
def commentsBefore (source : Source) (span : Span) : List Span :=
  let lower := (source.statementBefore? span).elim 0 (·.stop)
  source.comments.reverse.filter fun c => c.stop ≤ span.start && lower ≤ c.start

/-- The comments between a span and the statement after it, in document order. -/
def commentsAfter (source : Source) (span : Span) : List Span :=
  source.comments.filter fun c =>
    span.stop ≤ c.start && (source.statementAfter? span).all (c.stop ≤ ·.start)

/-- The comments that lie between two spans. -/
def commentsBetween (source : Source) (left right : Span) : List Span :=
  source.comments.filter fun c => left.stop ≤ c.start && c.stop ≤ right.start

/-- The positions of the two ends of a span. -/
def location (source : Source) (span : Span) : Position × Position :=
  (source.text.position span.start, source.text.position span.stop)

end Source

end ImportOrder
