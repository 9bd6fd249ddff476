/-!
# Character properties as tables of ranges

A property of characters is given by the list of the closed ranges of code points that have it. The
modules beside this one hold one property each, named for what it says.

## Main definitions

- `Character.inRanges`: membership in a table
- `Character.isWhiteSpace`: the property `White_Space`, which is small enough to need no table
-/

namespace ImportOrder.Character

/-- Does one of the closed ranges contain the code point? -/
def inRanges (ranges : List (Nat × Nat)) (n : Nat) : Bool :=
  ranges.any fun r => r.1 ≤ n && n ≤ r.2

/-- The property `White_Space`: the ASCII blanks and line ends, and the spaces of other scripts. -/
def isWhiteSpace (c : Char) : Bool :=
  let n := c.toNat
  if n < 0x80 then n == 0x20 || (9 ≤ n && n ≤ 13)
  else n == 0x85 || n == 0xA0 || n == 0x1680 || (0x2000 ≤ n && n ≤ 0x200A) ||
    n == 0x2028 || n == 0x2029 || n == 0x202F || n == 0x205F || n == 0x3000

/-- The byte order mark, which counts as a blank wherever blanks are skipped. -/
def byteOrderMark : Char := '\uFEFF'

/-- A blank is white space or a byte order mark. -/
def isBlank (c : Char) : Bool :=
  isWhiteSpace c || c == byteOrderMark

/-- Is the character one of the two that form line terminators? -/
def isLineBreak (c : Char) : Bool :=
  c == '\n' || c == '\r'

/-- A blank that does not end a line. -/
def isInlineBlank (c : Char) : Bool :=
  isBlank c && !isLineBreak c

end ImportOrder.Character
