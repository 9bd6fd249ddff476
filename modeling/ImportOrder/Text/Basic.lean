/-!
# Texts and byte offsets

A text is the list of its characters. Places in a text are byte offsets into its UTF-8 form, so a
character is as wide as its encoding, and an offset may fall inside a character or past the end.
Cutting a text at offsets is therefore a checked operation: `Text.slice` answers with a `BadSlice`
unless both ends lie on character boundaries of the text and in order.

## Main definitions

- `Text`, `Span`, `BadSlice`, `Checked`
- `Text.byteLength`: the length in bytes
- `Text.take?`, `Text.drop?`: the first bytes of a text, and what follows them
- `Text.slice`, `Text.sliceFrom`: the checked cuts
- `Text.find?`: the first occurrence of a text in another

## Main statements

- `Text.drop?_eq_some_iff`, `Text.take?_eq_some_iff`: a cut succeeds exactly at the places where the
  text is the concatenation of two texts
- `Text.slice_eq_ok_iff`: a slice is the middle one of three texts
-/

namespace ImportOrder

/-- A text is its list of characters. -/
abbrev Text := List Char

/-- A half-open range of byte offsets. -/
structure Span where
  /-- The offset of the first byte. -/
  start : Nat
  /-- The offset just past the last byte. -/
  stop : Nat
deriving DecidableEq, Repr, Inhabited

/-- A cut of a text that is out of range, reversed or off the character boundaries. -/
structure BadSlice where
  /-- The offsets at which the text was to be cut. -/
  span : Span
deriving DecidableEq, Repr, Inhabited

/-- The result of a computation that cuts texts. -/
abbrev Checked := Except BadSlice

/-- The empty range at an offset. -/
def Span.at (offset : Nat) : Span := ⟨offset, offset⟩

namespace Text

/-- The number of bytes of the UTF-8 form. -/
def byteLength : Text → Nat
  | [] => 0
  | c :: text => c.utf8Size + byteLength text

/-- What follows the first `n` bytes, if a character starts or the text ends there. -/
def drop? : Text → Nat → Option Text
  | text, 0 => some text
  | [], _ + 1 => none
  | c :: text, n + 1 => if c.utf8Size ≤ n + 1 then drop? text (n + 1 - c.utf8Size) else none

/-- The first `n` bytes, if a character starts or the text ends after them. -/
def take? : Text → Nat → Option Text
  | _, 0 => some []
  | [], _ + 1 => none
  | c :: text, n + 1 =>
    if c.utf8Size ≤ n + 1 then (take? text (n + 1 - c.utf8Size)).map (c :: ·) else none

/-- The text between two offsets, if they are in order and on character boundaries. -/
def slice? (text : Text) (span : Span) : Option Text :=
  if span.start ≤ span.stop then
    (text.drop? span.start).bind (take? · (span.stop - span.start))
  else none

/-- The text of a span. -/
def slice (text : Text) (span : Span) : Checked Text :=
  match text.slice? span with
  | some part => .ok part
  | none => .error ⟨span⟩

/-- The text from an offset to the end. -/
def sliceFrom (text : Text) (offset : Nat) : Checked Text :=
  match text.drop? offset with
  | some rest => .ok rest
  | none => .error ⟨⟨offset, text.byteLength⟩⟩

/-- The offset of the first occurrence of a text in another that starts at offset `offset`. -/
def findFrom (pattern : Text) : Nat → Text → Option Nat
  | offset, [] => if pattern.isEmpty then some offset else none
  | offset, c :: text =>
    if pattern.isPrefixOf (c :: text) then some offset
    else findFrom pattern (offset + c.utf8Size) text

/-- The offset of the first occurrence of a text in another. -/
def find? (text pattern : Text) : Option Nat :=
  findFrom pattern 0 text

/-- The length in bytes of the line terminator with which the text begins, zero if there is none. -/
def lineBreakLength : Text → Nat
  | '\r' :: '\n' :: _ => 2
  | '\n' :: _ => 1
  | '\r' :: _ => 1
  | _ => 0

/-! ## Lengths -/

@[simp]
theorem byteLength_nil : byteLength [] = 0 := rfl

@[simp]
theorem byteLength_cons (c : Char) (text : Text) :
    byteLength (c :: text) = c.utf8Size + byteLength text := rfl

@[simp]
theorem byteLength_append (s t : Text) : byteLength (s ++ t) = byteLength s + byteLength t := by
  induction s with
  | nil => simp
  | cons c s ih => simp [ih, Nat.add_assoc]

/-- Only the empty text has no bytes. -/
theorem byteLength_eq_zero_iff (text : Text) : byteLength text = 0 ↔ text = [] := by
  cases text with
  | nil => simp
  | cons c text => simp [Nat.ne_of_gt c.utf8Size_pos]

/-! ## Cuts -/

@[simp]
theorem drop?_zero (text : Text) : drop? text 0 = some text := by
  cases text <;> rfl

@[simp]
theorem take?_zero (text : Text) : take? text 0 = some [] := by
  cases text <;> rfl

/-- A cut after the bytes of a text in front leaves the rest. -/
@[simp]
theorem drop?_append (s t : Text) : drop? (s ++ t) (byteLength s) = some t := by
  induction s with
  | nil => simp
  | cons c s ih =>
    obtain ⟨n, hn⟩ : ∃ n, c.utf8Size + byteLength s = n + 1 :=
      ⟨c.utf8Size + byteLength s - 1, by have := c.utf8Size_pos; omega⟩
    have hsub : n + 1 - c.utf8Size = byteLength s := by omega
    have hle : c.utf8Size ≤ n + 1 := by omega
    simp only [List.cons_append, byteLength_cons, hn, drop?, hle, if_true, hsub, ih]

/-- The bytes of a text in front are that text. -/
@[simp]
theorem take?_append (s t : Text) : take? (s ++ t) (byteLength s) = some s := by
  induction s with
  | nil => simp
  | cons c s ih =>
    obtain ⟨n, hn⟩ : ∃ n, c.utf8Size + byteLength s = n + 1 :=
      ⟨c.utf8Size + byteLength s - 1, by have := c.utf8Size_pos; omega⟩
    have hsub : n + 1 - c.utf8Size = byteLength s := by omega
    have hle : c.utf8Size ≤ n + 1 := by omega
    simp only [List.cons_append, byteLength_cons, hn, take?, hle, if_true, hsub, ih,
      Option.map_some]

/-- The rest after a cut is preceded by a text of that many bytes. -/
theorem exists_append_of_drop? {text rest : Text} {n : Nat} (h : drop? text n = some rest) :
    ∃ front, text = front ++ rest ∧ byteLength front = n := by
  induction text generalizing n with
  | nil =>
    cases n with
    | zero => exact ⟨[], by simpa [drop?] using h, rfl⟩
    | succ n => simp [drop?] at h
  | cons c text ih =>
    cases n with
    | zero => exact ⟨[], by simpa using h, rfl⟩
    | succ n =>
      rw [drop?] at h
      split at h
      · next hle =>
        obtain ⟨front, rfl, hlen⟩ := ih h
        exact ⟨c :: front, rfl, by simp only [byteLength_cons]; omega⟩
      · simp at h

/-- The first bytes of a text are a text in front of it of that many bytes. -/
theorem exists_append_of_take? {text front : Text} {n : Nat} (h : take? text n = some front) :
    ∃ rest, text = front ++ rest ∧ byteLength front = n := by
  induction text generalizing n front with
  | nil =>
    cases n with
    | zero =>
      simp only [take?_zero, Option.some.injEq] at h
      exact ⟨[], by simp [← h], by simp [← h]⟩
    | succ n => simp [take?] at h
  | cons c text ih =>
    cases n with
    | zero =>
      simp only [take?_zero, Option.some.injEq] at h
      exact ⟨c :: text, by simp [← h], by simp [← h]⟩
    | succ n =>
      rw [take?] at h
      split at h
      · next hle =>
        obtain ⟨front', h', rfl⟩ := Option.map_eq_some_iff.1 h
        obtain ⟨rest, rfl, hlen⟩ := ih h'
        exact ⟨rest, rfl, by simp only [byteLength_cons]; omega⟩
      · simp at h

/-- A text can be cut exactly at the offsets where it is a concatenation. -/
theorem drop?_eq_some_iff {text rest : Text} {n : Nat} :
    drop? text n = some rest ↔ ∃ front, text = front ++ rest ∧ byteLength front = n :=
  ⟨exists_append_of_drop?, fun ⟨front, h, hn⟩ => by rw [h, ← hn, drop?_append]⟩

/-- The first bytes exist exactly at the offsets where the text is a concatenation. -/
theorem take?_eq_some_iff {text front : Text} {n : Nat} :
    take? text n = some front ↔ ∃ rest, text = front ++ rest ∧ byteLength front = n :=
  ⟨exists_append_of_take?, fun ⟨rest, h, hn⟩ => by rw [h, ← hn, take?_append]⟩

/-- A slice is the middle one of three texts that make up the whole. -/
theorem slice?_eq_some_iff {text part : Text} {span : Span} :
    slice? text span = some part ↔
      ∃ front rest, text = front ++ part ++ rest ∧
        byteLength front = span.start ∧ byteLength front + byteLength part = span.stop := by
  unfold slice?
  constructor
  · intro h
    split at h
    · next hle =>
      obtain ⟨rest, hd, ht⟩ := Option.bind_eq_some_iff.1 h
      obtain ⟨front, rfl, hf⟩ := drop?_eq_some_iff.1 hd
      obtain ⟨tail, rfl, hp⟩ := take?_eq_some_iff.1 ht
      exact ⟨front, tail, by simp, hf, by omega⟩
    · simp at h
  · rintro ⟨front, rest, rfl, hf, hp⟩
    have hle : span.start ≤ span.stop := by omega
    have hsub : span.stop - span.start = byteLength part := by omega
    rw [if_pos hle, ← hf, List.append_assoc, drop?_append, Option.bind_some, hf, hsub, take?_append]

/-- The checked slice succeeds exactly with the middle one of three texts. -/
theorem slice_eq_ok_iff {text part : Text} {span : Span} :
    slice text span = .ok part ↔
      ∃ front rest, text = front ++ part ++ rest ∧
        byteLength front = span.start ∧ byteLength front + byteLength part = span.stop := by
  rw [← slice?_eq_some_iff, slice]
  split <;> simp_all

end Text

end ImportOrder
