import ImportOrder.Text.Basic

/-!
# Edits and fixes

An edit replaces a span of a text. A fix is a list of edits that belong together: they are merged
into one replacement before they are applied, and edits that overlap do not merge.

## Main definitions

- `Edit`, `Fix`
- `Fix.relocate`: cut a span out and paste it elsewhere
- `Fix.merged`: the one edit that does the work of all
-/

namespace ImportOrder

/-- A replacement of the text of a span. -/
structure Edit where
  /-- The replaced span. -/
  span : Span
  /-- The text that takes its place. -/
  text : Text
deriving DecidableEq, Repr, Inhabited

namespace Edit

/-- The edit that removes a span. -/
def remove (span : Span) : Edit := ⟨span, []⟩

/-- The edit that inserts a text at an offset. -/
def insertAt (offset : Nat) (text : Text) : Edit := ⟨Span.at offset, text⟩

/-- The order in which edits are made: by start, and at one start by end. -/
def precedes (e f : Edit) : Bool :=
  e.span.start < f.span.start || (e.span.start == f.span.start && e.span.stop ≤ f.span.stop)

end Edit

/-- A list of edits that are applied together. -/
structure Fix where
  /-- The edits, in the order in which they were made. -/
  edits : List Edit
deriving DecidableEq, Repr, Inhabited

namespace Fix

/-- Cuts the text of `range` out and pastes it at an offset. -/
def relocate (text : Text) (range : Span) (offset : Nat) : Checked Fix := do
  let moved ← text.slice range
  return ⟨[Edit.remove range, Edit.insertAt offset moved]⟩

/-- The replacement that edits in order make of the text from `cursor` on, up to `stop`; none if an
edit starts before the one in front of it ends. -/
def splice (text : Text) (stop : Nat) : (cursor : Nat) → List Edit → Checked (Option Text)
  | cursor, [] => do
    let kept ← text.slice ⟨cursor, stop⟩
    return some kept
  | cursor, edit :: edits =>
    if edit.span.start < cursor then .ok none
    else do
      let kept ← text.slice ⟨cursor, edit.span.start⟩
      let rest ← splice text stop edit.span.stop edits
      return rest.map (kept ++ edit.text ++ ·)

/-- The end of the edit that reaches furthest. -/
def furthest (edits : List Edit) : Nat :=
  edits.foldl (fun stop edit => max stop edit.span.stop) 0

/-- The one edit that does the work of all, if there is an edit and no two overlap. -/
def merged (fix : Fix) (text : Text) : Checked (Option Edit) :=
  match fix.edits.mergeSort Edit.precedes with
  | [] => .ok none
  | first :: edits => do
    let start := first.span.start
    let stop := furthest (first :: edits)
    let replacement ← splice text stop start (first :: edits)
    return replacement.map (⟨⟨start, stop⟩, ·⟩)

end Fix

end ImportOrder
