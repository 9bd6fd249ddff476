import ImportOrder.Text.Basic

/-!
# Splitting texts

## Main definitions

- `Text.splitAt`: the pieces between the occurrences of a character
- `Text.joinWith`: pieces put together again
-/

namespace ImportOrder.Text

/-- The pieces between the occurrences of a character; there is always at least one. -/
def splitAt (separator : Char) : Text → List Text
  | [] => [[]]
  | c :: text =>
    if c = separator then [] :: splitAt separator text
    else match splitAt separator text with
      | piece :: pieces => (c :: piece) :: pieces
      | [] => [[c]]

/-- Pieces with a character between them. -/
def joinWith (separator : Char) : List Text → Text
  | [] => []
  | [piece] => piece
  | piece :: next :: pieces => piece ++ separator :: joinWith separator (next :: pieces)

theorem splitAt_ne_nil (separator : Char) (text : Text) : splitAt separator text ≠ [] := by
  cases text with
  | nil => simp [splitAt]
  | cons c text =>
    rw [splitAt]
    split
    · simp
    · split <;> simp

end ImportOrder.Text
