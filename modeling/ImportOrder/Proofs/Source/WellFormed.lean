import ImportOrder.Source
import ImportOrder.Proofs.Text.Cut
import Mathlib.Data.List.Basic
import Mathlib.Data.Set.List

/-!
# Well-formed sources and their pieces

A source is well-formed if its statements and comments are what a parser reports: parts of the text
that start with something to see, in order and without overlaps, no comment crossing the border of a
statement. Sources can be put one behind the other, and the places of the second move along with its
text. A well-formed source falls into two well-formed ones at every offset that no statement and no
comment covers, in exactly one way, so that a proof about a rearranged text is a proof about a
rearranged list of pieces.

## Main definitions

- `Span.shift`, `Span.Inside`, `Span.Apart`
- `Source.WellFormed`: the shape of a parsed file
- `Source.Legible`: items in order, each of which starts with a character that is not white space
- `Source.append`: one source behind another
- `Source.Clear`: the offsets at which a source can be cut

## Main statements

- `Source.WellFormed.append`, `Source.WellFormed.exists_append`: well-formed sources are put
  together and cut at clear offsets
- `Source.append_cancel`, `Source.append_split`: a cut is determined by its offset
-/

namespace ImportOrder

namespace Span

/-- The span further back in a text by a number of bytes. -/
def shift (n : Nat) (span : Span) : Span := ⟨n + span.start, n + span.stop⟩

/-- Does a span lie inside another? -/
def Inside (c s : Span) : Prop := s.start ≤ c.start ∧ c.stop ≤ s.stop

/-- Does a span lie before or behind another? -/
def Apart (c s : Span) : Prop := c.stop ≤ s.start ∨ s.stop ≤ c.start

instance (c s : Span) : Decidable (c.Inside s) := inferInstanceAs (Decidable (_ ∧ _))

instance (c s : Span) : Decidable (c.Apart s) := inferInstanceAs (Decidable (_ ∨ _))

@[simp]
theorem shift_start (n : Nat) (span : Span) : (span.shift n).start = n + span.start := rfl

@[simp]
theorem shift_stop (n : Nat) (span : Span) : (span.shift n).stop = n + span.stop := rfl

@[simp]
theorem shift_shift (m n : Nat) (span : Span) : (span.shift n).shift m = span.shift (m + n) := by
  simp only [shift, Nat.add_assoc]

theorem shift_injective (n : Nat) : Function.Injective (shift n) := by
  rintro ⟨a, b⟩ ⟨c, d⟩ h
  simp only [shift, mk.injEq] at h ⊢
  omega

/-- A span behind an offset is one that was shifted there. -/
theorem exists_shift {n : Nat} {span : Span} (h : n ≤ span.start) (hs : span.start ≤ span.stop) :
    ∃ s : Span, span = s.shift n := by
  refine ⟨⟨span.start - n, span.stop - n⟩, ?_⟩
  obtain ⟨start, stop⟩ := span
  simp only [shift, mk.injEq] at h hs ⊢
  omega

theorem inside_shift {n : Nat} {c s : Span} : (c.shift n).Inside (s.shift n) ↔ c.Inside s := by
  simp only [Inside, shift_start, shift_stop]
  omega

theorem apart_shift {n : Nat} {c s : Span} : (c.shift n).Apart (s.shift n) ↔ c.Apart s := by
  simp only [Apart, shift_start, shift_stop]
  omega

end Span

namespace Statement

/-- The statement further back in a text by a number of bytes. -/
def shift (n : Nat) (statement : Statement) : Statement :=
  { statement with span := statement.span.shift n }

@[simp]
theorem shift_span (n : Nat) (statement : Statement) :
    (statement.shift n).span = statement.span.shift n := rfl

@[simp]
theorem shift_shift (m n : Nat) (statement : Statement) :
    (statement.shift n).shift m = statement.shift (m + n) := by
  simp only [shift, Span.shift_shift]

theorem shift_injective (n : Nat) : Function.Injective (shift n) := by
  rintro ⟨_, _, _, _, s⟩ ⟨_, _, _, _, t⟩ h
  simp only [shift, mk.injEq] at h ⊢
  exact ⟨h.1, h.2.1, h.2.2.1, h.2.2.2.1, Span.shift_injective n h.2.2.2.2⟩

/-- A statement behind an offset is one that was shifted there. -/
theorem exists_shift {n : Nat} {statement : Statement} (h : n ≤ statement.span.start)
    (hs : statement.span.start ≤ statement.span.stop) : ∃ s : Statement, statement = s.shift n := by
  obtain ⟨span, hspan⟩ := Span.exists_shift h hs
  exact ⟨{ statement with span }, by simp only [shift, ← hspan]⟩

end Statement

namespace Text

/-- Does the span cut out something that starts with a character other than a blank? -/
def holdsItem (text : Text) (span : Span) : Bool :=
  match text.slice? span with
  | some (c :: _) => !Character.isBlank c
  | _ => false

theorem holdsItem_iff {text : Text} {span : Span} :
    text.holdsItem span ↔
      ∃ c part, text.slice? span = some (c :: part) ∧ Character.isBlank c = false := by
  unfold holdsItem
  split
  · next c part h => simp [h]
  · next h =>
    simp only [Bool.false_eq_true, false_iff, not_exists, not_and]
    exact fun c part hc => absurd hc (h c part)

theorem any_head?_iff {text : Text} {span : Span} {p : Char → Bool} :
    ((text.slice? span).bind List.head?).any (!p ·) = true ↔
      ∃ c part, text.slice? span = some (c :: part) ∧ p c = false := by
  cases text.slice? span with
  | none => simp
  | some part => cases part <;> simp

/-- Every item takes up room inside the text. -/
theorem bounds_of_holdsItem {text : Text} {span : Span} (h : text.holdsItem span) :
    span.start < span.stop ∧ span.stop ≤ byteLength text := by
  obtain ⟨c, part, hs, -⟩ := holdsItem_iff.1 h
  have := bounds_of_slice? hs
  have := c.utf8Size_pos
  simp only [byteLength_cons] at *
  omega

theorem holdsItem_append_left {a : Text} {span : Span} (h : a.holdsItem span) (b : Text) :
    holdsItem (a ++ b) span := by
  obtain ⟨c, part, hs, hc⟩ := holdsItem_iff.1 h
  exact holdsItem_iff.2 ⟨c, part, slice?_append_left hs b, hc⟩

theorem holdsItem_append_shift (a b : Text) (span : Span) :
    holdsItem (a ++ b) (span.shift (byteLength a)) = b.holdsItem span := by
  simp only [holdsItem, Span.shift, slice?_append_shift]

theorem holdsItem_of_append {a b : Text} {span : Span} (h : holdsItem (a ++ b) span)
    (hstop : span.stop ≤ byteLength a) : a.holdsItem span := by
  obtain ⟨c, part, hs, hc⟩ := holdsItem_iff.1 h
  obtain ⟨front, rest, htext, hf, hp⟩ := slice?_eq_some_iff.1 hs
  obtain ⟨k, rfl, -⟩ := append_split htext.symm (by rw [byteLength_append]; omega)
  exact holdsItem_iff.2 ⟨c, part, slice?_eq_some_iff.2 ⟨front, k, rfl, hf, hp⟩, hc⟩

end Text

namespace Source

/-- The number of bytes of the text. -/
def size (source : Source) : Nat := source.text.byteLength

/-- The places of the statements and of the comments. -/
def items (source : Source) : List Span := source.spans ++ source.comments

/-- The shape of a parsed file. -/
structure WellFormed (source : Source) : Prop where
  /-- Statements come in order and do not overlap. -/
  spans_ordered : source.spans.Pairwise (·.stop ≤ ·.start)
  /-- Comments come in order and do not overlap. -/
  comments_ordered : source.comments.Pairwise (·.stop ≤ ·.start)
  /-- Statements and comments are parts of the text that do not start with a blank. -/
  holds_item : ∀ s ∈ source.items, source.text.holdsItem s
  /-- A comment lies inside a statement or apart from it. -/
  comment_placed : ∀ c ∈ source.comments, ∀ s ∈ source.spans, c.Inside s ∨ c.Apart s

instance (source : Source) : Decidable source.WellFormed :=
  decidable_of_iff
    (source.spans.Pairwise (·.stop ≤ ·.start) ∧ source.comments.Pairwise (·.stop ≤ ·.start) ∧
      (∀ s ∈ source.items, source.text.holdsItem s) ∧
      ∀ c ∈ source.comments, ∀ s ∈ source.spans, c.Inside s ∨ c.Apart s)
    ⟨fun ⟨h₁, h₂, h₃, h₄⟩ => ⟨h₁, h₂, h₃, h₄⟩, fun ⟨h₁, h₂, h₃, h₄⟩ => ⟨h₁, h₂, h₃, h₄⟩⟩

/-- Statements come in order, comments come in order, and they start with characters that are not
white space. This takes in items that start with a byte order mark, over which the searches for
blanks pass though it is not white space. -/
structure Legible (source : Source) : Prop where
  /-- Statements come in order and do not overlap. -/
  spans_ordered : source.spans.Pairwise (·.stop ≤ ·.start)
  /-- Comments come in order and do not overlap. -/
  comments_ordered : source.comments.Pairwise (·.stop ≤ ·.start)
  /-- Statements and comments are parts of the text that do not start with white space. -/
  visible : ∀ x ∈ source.items, ∃ c part, source.text.slice? x = some (c :: part) ∧
    Character.isWhiteSpace c = false

instance (source : Source) : Decidable source.Legible := by
  refine decidable_of_iff
    (source.spans.Pairwise (·.stop ≤ ·.start) ∧ source.comments.Pairwise (·.stop ≤ ·.start) ∧
      ∀ x ∈ source.items,
        ((source.text.slice? x).bind List.head?).any (!Character.isWhiteSpace ·) = true) ?_
  exact ⟨fun ⟨h₁, h₂, h₃⟩ => ⟨h₁, h₂, fun x hx => Text.any_head?_iff.1 (h₃ x hx)⟩,
    fun ⟨h₁, h₂, h₃⟩ => ⟨h₁, h₂, fun x hx => Text.any_head?_iff.2 (h₃ x hx)⟩⟩

theorem WellFormed.legible {source : Source} (h : source.WellFormed) : source.Legible := by
  refine ⟨h.spans_ordered, h.comments_ordered, fun x hx => ?_⟩
  obtain ⟨c, part, hslice, hc⟩ := Text.holdsItem_iff.1 (h.holds_item x hx)
  exact ⟨c, part, hslice, (Bool.or_eq_false_iff.1 hc).1⟩

/-- An offset at which a source can be cut: one on a character boundary that no statement and no
comment covers. -/
structure Clear (source : Source) (n : Nat) : Prop where
  /-- The text can be cut there. -/
  boundary : ∃ front rest, source.text = front ++ rest ∧ Text.byteLength front = n
  /-- Every item lies before or behind the offset. -/
  outside : ∀ s ∈ source.items, s.stop ≤ n ∨ n ≤ s.start

/-- One source behind another. -/
instance : Append Source where
  append s t :=
    ⟨s.text ++ t.text, s.statements ++ t.statements.map (·.shift s.size),
      s.comments ++ t.comments.map (·.shift s.size)⟩

section Append

variable (s t u : Source)

@[simp]
theorem text_append : (s ++ t).text = s.text ++ t.text := rfl

@[simp]
theorem statements_append :
    (s ++ t).statements = s.statements ++ t.statements.map (·.shift s.size) := rfl

@[simp]
theorem comments_append : (s ++ t).comments = s.comments ++ t.comments.map (·.shift s.size) := rfl

@[simp]
theorem spans_append : (s ++ t).spans = s.spans ++ t.spans.map (·.shift s.size) := by
  simp [spans, Function.comp_def]

@[simp]
theorem size_append : (s ++ t).size = s.size + t.size := by
  simp [size]

theorem append_assoc : s ++ t ++ u = s ++ (t ++ u) := by
  simp only [HAppend.hAppend, Append.append, mk.injEq]
  simp only [List.append_eq, List.append_assoc, List.map_append, List.map_map, Function.comp_def,
    size, Statement.shift_shift, Span.shift_shift, Text.byteLength_append, and_self]

end Append

theorem mem_items_append {s t : Source} {x : Span} :
    x ∈ (s ++ t).items ↔ x ∈ s.items ∨ ∃ y ∈ t.items, y.shift s.size = x := by
  simp only [items, spans_append, comments_append, List.mem_append, List.mem_map]
  grind

/-! ## Putting together -/

namespace WellFormed

variable {source a b : Source}

theorem bounds (h : source.WellFormed) {x : Span} (hx : x ∈ source.items) :
    x.start < x.stop ∧ x.stop ≤ source.size :=
  Text.bounds_of_holdsItem (h.holds_item x hx)

theorem bounds_span (h : source.WellFormed) {x : Span} (hx : x ∈ source.spans) :
    x.start < x.stop ∧ x.stop ≤ source.size :=
  h.bounds (List.mem_append_left _ hx)

theorem bounds_comment (h : source.WellFormed) {x : Span} (hx : x ∈ source.comments) :
    x.start < x.stop ∧ x.stop ≤ source.size :=
  h.bounds (List.mem_append_right _ hx)

theorem append (ha : a.WellFormed) (hb : b.WellFormed) : (a ++ b).WellFormed where
  spans_ordered := by
    rw [spans_append, List.pairwise_append, List.pairwise_map]
    refine ⟨ha.spans_ordered, hb.spans_ordered.imp fun h => ?_, ?_⟩
    · simpa using h
    · simp only [List.mem_map, forall_exists_index, and_imp, forall_apply_eq_imp_iff₂]
      intro x hx y _
      have := (ha.bounds_span hx).2
      simp only [Span.shift_start]
      omega
  comments_ordered := by
    rw [comments_append, List.pairwise_append, List.pairwise_map]
    refine ⟨ha.comments_ordered, hb.comments_ordered.imp fun h => ?_, ?_⟩
    · simpa using h
    · simp only [List.mem_map, forall_exists_index, and_imp, forall_apply_eq_imp_iff₂]
      intro x hx y _
      have := (ha.bounds_comment hx).2
      simp only [Span.shift_start]
      omega
  holds_item := by
    intro x hx
    rcases mem_items_append.1 hx with hx | ⟨y, hy, rfl⟩
    · exact Text.holdsItem_append_left (ha.holds_item x hx) b.text
    · rw [text_append, size, Text.holdsItem_append_shift]
      exact hb.holds_item y hy
  comment_placed := by
    simp only [comments_append, spans_append, List.mem_append, List.mem_map]
    -- items of different pieces lie apart
    rintro c (hc | ⟨c, hc, rfl⟩) s (hs | ⟨s, hs, rfl⟩)
    · exact ha.comment_placed c hc s hs
    · have := (ha.bounds_comment hc).2
      exact .inr (.inl (by simp only [Span.shift_start]; omega))
    · have := (ha.bounds_span hs).2
      exact .inr (.inr (by simp only [Span.shift_start]; omega))
    · rw [Span.inside_shift, Span.apart_shift]
      exact hb.comment_placed c hc s hs

theorem of_append (h : (a ++ b).WellFormed) (ha : ∀ x ∈ a.items, x.stop ≤ a.size) :
    a.WellFormed ∧ b.WellFormed := by
  have hspans := h.spans_ordered
  have hcomments := h.comments_ordered
  rw [spans_append, List.pairwise_append, List.pairwise_map] at hspans
  rw [comments_append, List.pairwise_append, List.pairwise_map] at hcomments
  refine ⟨⟨hspans.1, hcomments.1, ?_, ?_⟩, ⟨?_, ?_, ?_, ?_⟩⟩
  · intro x hx
    exact Text.holdsItem_of_append (h.holds_item x (mem_items_append.2 (.inl hx))) (ha x hx)
  · intro c hc s hs
    exact h.comment_placed c (by simp [hc]) s (by simp [hs])
  · exact hspans.2.1.imp fun h => by simpa using h
  · exact hcomments.2.1.imp fun h => by simpa using h
  · intro x hx
    have := h.holds_item _ (mem_items_append.2 (.inr ⟨x, hx, rfl⟩))
    rwa [text_append, size, Text.holdsItem_append_shift] at this
  · intro c hc s hs
    have := h.comment_placed (c.shift a.size) (by simp [List.mem_map_of_mem hc])
      (s.shift a.size) (by simp [List.mem_map_of_mem hs])
    rwa [Span.inside_shift, Span.apart_shift] at this

end WellFormed

/-! ## Cutting -/

/-- A list of items in order falls into those before and those behind an offset that none covers. -/
theorem exists_split_at {α : Type} (span : α → Span) {l : List α} {n : Nat}
    (ordered : l.Pairwise fun x y => (span x).stop ≤ (span y).start)
    (room : ∀ x ∈ l, (span x).start < (span x).stop)
    (outside : ∀ x ∈ l, (span x).stop ≤ n ∨ n ≤ (span x).start) :
    ∃ before behind, l = before ++ behind ∧ (∀ x ∈ before, (span x).stop ≤ n) ∧
      ∀ x ∈ behind, n ≤ (span x).start := by
  induction l with
  | nil => exact ⟨[], [], by simp⟩
  | cons x l ih =>
    rw [List.pairwise_cons] at ordered
    rcases outside x List.mem_cons_self with hx | hx
    · obtain ⟨before, behind, rfl, hbefore, hbehind⟩ := ih ordered.2
        (fun y hy => room y (List.mem_cons_of_mem x hy))
        (fun y hy => outside y (List.mem_cons_of_mem x hy))
      exact ⟨x :: before, behind, rfl, by simpa [hx] using hbefore, hbehind⟩
    · refine ⟨[], x :: l, rfl, by simp, ?_⟩
      have := room x List.mem_cons_self
      simp only [List.mem_cons, forall_eq_or_imp]
      exact ⟨hx, fun y hy => by have := ordered.1 y hy; omega⟩

/-- A well-formed source falls into two at a clear offset. -/
theorem WellFormed.exists_append {source : Source} {n : Nat} (h : source.WellFormed)
    (hn : source.Clear n) :
    ∃ a b : Source, source = a ++ b ∧ a.size = n ∧ a.WellFormed ∧ b.WellFormed := by
  obtain ⟨front, rest, htext, rfl⟩ := hn.boundary
  have hspans := h.spans_ordered
  rw [spans, List.pairwise_map] at hspans
  obtain ⟨S, T, hST, hS, hT⟩ := exists_split_at Statement.span hspans
    (fun x hx => (h.bounds_span (List.mem_map_of_mem hx)).1)
    (fun x hx => hn.outside _ (List.mem_append_left _ (List.mem_map_of_mem hx)))
  obtain ⟨C, D, hCD, hC, hD⟩ := exists_split_at id h.comments_ordered
    (fun x hx => (h.bounds_comment hx).1)
    (fun x hx => hn.outside _ (List.mem_append_right _ hx))
  -- what lies behind the offset was shifted there
  have hT' : T ∈ Set.range (List.map (Statement.shift (Text.byteLength front))) := by
    rw [Set.range_list_map]
    intro x hx
    have := h.bounds_span (x := x.span) (by rw [spans, hST]; simp; grind)
    obtain ⟨s, hs⟩ := Statement.exists_shift (hT x hx) (by omega)
    exact ⟨s, hs.symm⟩
  have hD' : D ∈ Set.range (List.map (Span.shift (Text.byteLength front))) := by
    rw [Set.range_list_map]
    intro x hx
    have := h.bounds_comment (x := x) (by rw [hCD]; simp [hx])
    obtain ⟨s, hs⟩ := Span.exists_shift (hD x hx) (by simp only [id]; omega)
    exact ⟨s, hs.symm⟩
  obtain ⟨T', rfl⟩ := hT'
  obtain ⟨D', rfl⟩ := hD'
  have hsource : source = (⟨front, S, C⟩ : Source) ++ ⟨rest, T', D'⟩ := by
    obtain ⟨text, statements, comments⟩ := source
    simp only at htext hST hCD
    simp only [htext, hST, hCD]
    rfl
  refine ⟨⟨front, S, C⟩, ⟨rest, T', D'⟩, hsource, rfl, WellFormed.of_append (hsource ▸ h) ?_⟩
  intro x hx
  simp only [items, spans, List.mem_append, List.mem_map] at hx
  rcases hx with ⟨s, hs, rfl⟩ | hx
  · exact hS s hs
  · exact hC x hx

/-- A list of items in order is cut in one way at an offset. -/
theorem split_at_unique {α : Type} (span : α → Span) {A B S T : List α} {n : Nat}
    (h : A ++ B = S ++ T) (room : ∀ x ∈ S ++ T, (span x).start < (span x).stop)
    (hA : ∀ x ∈ A, (span x).stop ≤ n) (hB : ∀ x ∈ B, n ≤ (span x).start)
    (hS : ∀ x ∈ S, (span x).stop ≤ n) (hT : ∀ x ∈ T, n ≤ (span x).start) : A = S ∧ B = T := by
  -- either side of the equation holds before the offset what ends there
  have cut : ∀ {X Y : List α}, (∀ x ∈ Y, (span x).start < (span x).stop) →
      (∀ x ∈ X, (span x).stop ≤ n) → (∀ x ∈ Y, n ≤ (span x).start) →
      (X ++ Y).filter (fun x => (span x).stop ≤ n) = X := by
    intro X Y hroom hX hY
    have hX' : X.filter (fun x => (span x).stop ≤ n) = X :=
      List.filter_eq_self.2 fun x hx => by simpa using hX x hx
    have hY' : Y.filter (fun x => (span x).stop ≤ n) = [] :=
      List.filter_eq_nil_iff.2 fun y hy => by
        have := hroom y hy
        have := hY y hy
        simp only [decide_eq_true_eq]
        omega
    rw [List.filter_append, hX', hY', List.append_nil]
  have hroomB : ∀ x ∈ B, (span x).start < (span x).stop := fun x hx =>
    room x (h ▸ List.mem_append_right A hx)
  have hroomT : ∀ x ∈ T, (span x).start < (span x).stop := fun x hx =>
    room x (List.mem_append_right S hx)
  obtain rfl : A = S := by rw [← cut hroomB hA hB, h, cut hroomT hS hT]
  exact ⟨rfl, List.append_cancel_left h⟩

theorem statements_of_append {a b : Source} (ha : a.WellFormed) (hb : b.WellFormed)
    {S T : List Statement} (h : (a ++ b).statements = S ++ T)
    (hS : ∀ s ∈ S, s.span.stop ≤ a.size) (hT : ∀ s ∈ T, a.size ≤ s.span.start) :
    a.statements = S ∧ b.statements.map (·.shift a.size) = T := by
  refine split_at_unique Statement.span (n := a.size) h (fun s hs => ?_) (fun s hs => ?_)
    (fun s hs => ?_) hS hT
  · rw [← h] at hs
    exact ((ha.append hb).bounds_span (List.mem_map_of_mem hs)).1
  · exact (ha.bounds_span (List.mem_map_of_mem hs)).2
  · obtain ⟨t, -, rfl⟩ := List.mem_map.1 hs
    simp

theorem comments_of_append {a b : Source} (ha : a.WellFormed) (hb : b.WellFormed)
    {C D : List Span} (h : (a ++ b).comments = C ++ D)
    (hC : ∀ c ∈ C, c.stop ≤ a.size) (hD : ∀ c ∈ D, a.size ≤ c.start) :
    a.comments = C ∧ b.comments.map (·.shift a.size) = D := by
  refine split_at_unique id (n := a.size) h (fun c hc => ?_) (fun c hc => ?_)
    (fun c hc => ?_) hC hD
  · rw [← h] at hc
    exact ((ha.append hb).bounds_comment hc).1
  · exact (ha.bounds_comment hc).2
  · obtain ⟨d, -, rfl⟩ := List.mem_map.1 hc
    simp

/-- A source is cut in one way at an offset. -/
theorem append_cancel {a b c d : Source} (ha : a.WellFormed) (hb : b.WellFormed)
    (hc : c.WellFormed) (h : a ++ b = c ++ d) (hsize : a.size = c.size) : a = c ∧ b = d := by
  have htext : a.text ++ b.text = c.text ++ d.text := congrArg Source.text h
  obtain ⟨hac, hbd⟩ := Text.append_inj htext hsize
  obtain ⟨hS, hT⟩ := statements_of_append ha hb (congrArg Source.statements h)
    (fun s hs => hsize ▸ (hc.bounds_span (List.mem_map_of_mem hs)).2)
    (fun s hs => by obtain ⟨t, -, rfl⟩ := List.mem_map.1 hs; simp [hsize])
  obtain ⟨hC, hD⟩ := comments_of_append ha hb (congrArg Source.comments h)
    (fun s hs => hsize ▸ (hc.bounds_comment hs).2)
    (fun s hs => by obtain ⟨t, -, rfl⟩ := List.mem_map.1 hs; simp [hsize])
  rw [hsize] at hT hD
  have hT' := (Statement.shift_injective c.size).list_map hT
  have hD' := (Span.shift_injective c.size).list_map hD
  obtain ⟨_, _, _⟩ := a
  obtain ⟨_, _, _⟩ := b
  obtain ⟨_, _, _⟩ := c
  obtain ⟨_, _, _⟩ := d
  simp_all

namespace Clear

variable {source a b : Source} {n : Nat}

theorem of_append (ha : a.WellFormed) (b : Source) : (a ++ b).Clear a.size where
  boundary := ⟨a.text, b.text, rfl, rfl⟩
  outside x hx := by
    rcases mem_items_append.1 hx with hx | ⟨y, -, rfl⟩
    · exact .inl (ha.bounds hx).2
    · exact .inr (by simp)

theorem left (h : (a ++ b).Clear n) (hn : n ≤ a.size) : a.Clear n where
  boundary := by
    obtain ⟨front, rest, htext, hlen⟩ := h.boundary
    obtain ⟨k, ha, -⟩ := Text.append_split htext.symm (by rw [hlen]; exact hn)
    exact ⟨front, k, ha, hlen⟩
  outside x hx := h.outside x (mem_items_append.2 (.inl hx))

end Clear

/-- Of two cuts of one source, the later one cuts the rest of the earlier one. -/
theorem append_split {a b c d : Source} (ha : a.WellFormed) (hb : b.WellFormed)
    (hc : c.WellFormed) (h : a ++ b = c ++ d) (hle : a.size ≤ c.size) :
    ∃ k : Source, k.WellFormed ∧ c = a ++ k ∧ b = k ++ d := by
  have hclear : (c ++ d).Clear a.size := h ▸ Clear.of_append ha b
  obtain ⟨a', k, rfl, hsize, ha', hk⟩ := hc.exists_append (hclear.left hle)
  rw [append_assoc] at h
  obtain ⟨rfl, rfl⟩ := append_cancel ha hb ha' h hsize.symm
  exact ⟨k, hk, rfl, rfl⟩

end Source

end ImportOrder
