import ImportOrder.Text.Basic

/-!
# Lines and positions

A line ends with `\n`, with `\r\n` or with a lone `\r`. Offsets convert to positions by counting the
terminators that end at or before them, so the offset between `\r` and `\n` still belongs to the
line that they end.

## Main definitions

- `Position`: a line and a column, both counted from one
- `Text.lineEnds`: the offsets just past the line terminators
- `Text.lineOf`, `Text.lineStart`, `Text.columnOf`, `Text.position`
-/

namespace ImportOrder

/-- A line and a column, both counted from one in 32 bits; columns count characters. -/
structure Position where
  /-- The line. -/
  line : UInt32
  /-- The column. -/
  column : UInt32
deriving DecidableEq, Repr, Inhabited

namespace Text

/-- The offsets just past the line terminators of a text that starts at offset `offset`. -/
def lineEndsFrom : Nat → Text → List Nat
  | _, [] => []
  | offset, '\r' :: '\n' :: text => (offset + 2) :: lineEndsFrom (offset + 2) text
  | offset, c :: text =>
    if c = '\n' ∨ c = '\r' then (offset + 1) :: lineEndsFrom (offset + 1) text
    else lineEndsFrom (offset + c.utf8Size) text

/-- The offsets just past the line terminators. -/
def lineEnds (text : Text) : List Nat :=
  lineEndsFrom 0 text

/-- The number of lines: one more than there are terminators. -/
def lineCount (text : Text) : Nat :=
  text.lineEnds.length + 1

/-- The line of an offset, counted from one. -/
def lineOf (text : Text) (offset : Nat) : Nat :=
  text.lineEnds.countP (· ≤ offset) + 1

/-- The offset where the line of an offset starts. -/
def lineStart (text : Text) (offset : Nat) : Nat :=
  (text.lineEnds.filter (· ≤ offset)).getLastD 0

/-- The column of an offset, counted from one. Inside a character it is one. -/
def columnOf (text : Text) (offset : Nat) : Nat :=
  match text.slice? ⟨text.lineStart offset, offset⟩ with
  | some before => before.length + 1
  | none => 1

/-- The position of an offset, which is first clamped to the text. Counts that do not fit into 32
bits start again from zero. -/
def position (text : Text) (offset : Nat) : Position :=
  let place := min offset text.byteLength
  ⟨UInt32.ofNat (text.lineOf place), UInt32.ofNat (text.columnOf place)⟩

end Text

end ImportOrder
