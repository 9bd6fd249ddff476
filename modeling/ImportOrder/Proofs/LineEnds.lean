import ImportOrder.Proofs.Rule.ImportSort
import ImportOrder.Proofs.Rule.StatementOrder
import ImportOrder.Proofs.Source.Tidy
import Mathlib.Data.List.TakeWhile

/-!
# Moved statements and the ends of their lines

A range that is moved brings along the line break behind it, if there is one. The last range of a
text may have none, and then what is moved is glued to the text in front of which it goes. Nothing
else can go wrong: if every range ends with a line break or with the text, then after a pass of a
rule on order every statement is at the end of its line exactly if no fix of the pass pastes a range
without a line break in front of more code on the line.

The statements are followed together with the comments behind them, as the statements of a source of
its own, whose pieces are put together one by one.

## Main definitions

- `Text.breaksLine`, `Text.endsLine`: texts that start with the end of a line
- `Source.BreaksLines`, `Source.EndsLines`: sources whose statements are at the ends of their lines
- `Source.withTrailing`: the statements together with the comments behind them
- `Source.OwnLines`: every range ends with a line break or with the text
- `Fix.keepsLine`: fixes that do not glue

## Main statements

- `Source.endsLines_append`: the ends of lines in two pieces
- `Source.Reworked.endsLines_iff`: the ends of lines after a list of fixes
- `Source.WellFormed.exists_carries`: what the relocation of a range does to the ends of lines
- `LineEnds.pass_ends_lines_iff`: the ends of lines after a pass of a rule on order
-/

namespace ImportOrder

namespace Text

/-- Do blanks of the line and then a line break come first? -/
def breaksLine (text : Text) : Bool :=
  (text.dropWhile Character.isInlineBlank).head?.any Character.isLineBreak

/-- Do blanks of the line come first, and then a line break or nothing? -/
def endsLine (text : Text) : Bool :=
  (text.dropWhile Character.isInlineBlank).head?.all Character.isLineBreak

/-- Does a line break come last? -/
def endsWithBreak (text : Text) : Bool := text.getLast?.any Character.isLineBreak

variable {blanks terminator : Text}

/-- The end of a line shows in the first of two texts unless that is blank. -/
theorem endsLine_append (a b : Text) :
    endsLine (a ++ b) = true ↔
      breaksLine a = true ∨ (∀ c ∈ a, Character.isInlineBlank c = true) ∧ endsLine b = true := by
  unfold endsLine breaksLine
  rw [List.dropWhile_append]
  cases hdrop : a.dropWhile Character.isInlineBlank with
  | nil =>
    have hall : ∀ c ∈ a, Character.isInlineBlank c = true := List.dropWhile_eq_nil_iff.1 hdrop
    simpa using fun _ => hall
  | cons c rest =>
    have hsome : ¬ ∀ c ∈ a, Character.isInlineBlank c = true := fun hall => by
      rw [List.dropWhile_eq_nil_iff.2 hall] at hdrop
      exact absurd hdrop nofun
    simp [hsome]

theorem endsLine_iff (text : Text) :
    text.endsLine = true ↔
      text.breaksLine = true ∨ ∀ c ∈ text, Character.isInlineBlank c = true := by
  simpa [endsLine] using endsLine_append text []

/-- A text with something to see shows the end of the line, whatever follows. -/
theorem endsLine_append_of_visible {a : Text} (ha : ∃ c ∈ a, Character.isBlank c = false)
    (b : Text) : endsLine (a ++ b) = true ↔ endsLine a = true := by
  obtain ⟨c, hc, hvisible⟩ := ha
  have hsome : ¬ ∀ c ∈ a, Character.isInlineBlank c = true := fun hall => by
    rw [Character.isBlank_of_isInlineBlank (hall c hc)] at hvisible
    exact absurd hvisible nofun
  rw [endsLine_append, endsLine_iff a]
  tauto

/-- Blanks of the line and a line terminator break the line if the terminator is there. -/
theorem breaksLine_tail (hblanks : ∀ c ∈ blanks, Character.isInlineBlank c = true)
    (hterminator : ∀ c ∈ terminator, Character.isLineBreak c = true) (hne : terminator ≠ [])
    (rest : Text) : breaksLine (blanks ++ terminator ++ rest) = true := by
  obtain ⟨c, terminator, rfl⟩ := List.exists_cons_of_ne_nil hne
  have hc := hterminator c List.mem_cons_self
  have hinline : Character.isInlineBlank c = false := by simp [Character.isInlineBlank, hc]
  rw [breaksLine, List.append_assoc, List.dropWhile_append_of_pos hblanks]
  simp [hinline, hc]

theorem breaksLine_tail_iff (hblanks : ∀ c ∈ blanks, Character.isInlineBlank c = true)
    (hterminator : ∀ c ∈ terminator, Character.isLineBreak c = true) :
    breaksLine (blanks ++ terminator) = true ↔ terminator ≠ [] := by
  refine ⟨?_, fun hne => by simpa using breaksLine_tail hblanks hterminator hne []⟩
  rintro h rfl
  rw [List.append_nil, breaksLine, List.dropWhile_eq_nil_iff.2 hblanks] at h
  exact absurd h nofun

/-- Blanks of the line and a line terminator are the end of a line even if the terminator is
missing. -/
theorem endsLine_tail (hblanks : ∀ c ∈ blanks, Character.isInlineBlank c = true)
    (hterminator : ∀ c ∈ terminator, Character.isLineBreak c = true) :
    endsLine (blanks ++ terminator) = true := by
  rw [endsLine_iff, breaksLine_tail_iff hblanks hterminator]
  by_cases hnil : terminator = []
  · exact .inr (by simpa [hnil] using hblanks)
  · exact .inl hnil

theorem endsWithBreak_append_of_ne_nil (a : Text) {b : Text} (hb : b ≠ []) :
    endsWithBreak (a ++ b) = endsWithBreak b := by
  rw [endsWithBreak, endsWithBreak, List.getLast?_append_of_ne_nil a hb]

/-- Behind what does not end with a line break, a line break comes last if the terminator is there.
-/
theorem endsWithBreak_tail_iff {body : Text} (hbody : body.endsWithBreak = false)
    (hblanks : ∀ c ∈ blanks, Character.isInlineBlank c = true)
    (hterminator : ∀ c ∈ terminator, Character.isLineBreak c = true) :
    endsWithBreak (body ++ (blanks ++ terminator)) = true ↔ terminator ≠ [] := by
  constructor
  · rintro h rfl
    rw [List.append_nil] at h
    by_cases hnil : blanks = []
    · rw [hnil, List.append_nil, hbody] at h
      exact absurd h nofun
    · rw [endsWithBreak_append_of_ne_nil body hnil, endsWithBreak,
        List.getLast?_eq_some_getLast hnil, Option.any_some] at h
      have := hblanks _ (List.getLast_mem hnil)
      simp [Character.isInlineBlank, h] at this
  · intro hne
    rw [endsWithBreak_append_of_ne_nil body (by simp [hne]),
      endsWithBreak_append_of_ne_nil blanks hne, endsWithBreak, List.getLast?_eq_some_getLast hne,
      Option.any_some]
    exact hterminator _ (List.getLast_mem hne)

end Text

/-- Does a relocation paste a text that ends with a line break, or paste it at the end of a line? -/
def Fix.keepsLine (fix : Fix) (text : Text) : Bool :=
  match fix.edits with
  | [_, paste] => paste.text.endsWithBreak || (text.drop? paste.span.start).any Text.endsLine
  | _ => true

/-- Whether a relocation glues shows in the moved text and in the text where it goes. -/
theorem Fix.keepsLine_relocate {text : Text} {range : Span} {n : Nat} {fix : Fix}
    (h : Fix.relocate text range n = .ok fix) :
    fix.keepsLine text =
      (((text.slice? range).getD []).endsWithBreak || (text.drop? n).any Text.endsLine) := by
  unfold Fix.relocate Text.slice at h
  cases hslice : text.slice? range with
  | none => simp only [hslice, bind, Except.bind, reduceCtorEq] at h
  | some moved =>
    simp only [hslice] at h
    obtain rfl := Except.ok.inj h
    rfl

namespace Source

variable {source a b s t : Source}

/-- Every statement is followed by blanks of the line and a line break. -/
def BreaksLines (source : Source) : Prop :=
  ∀ s ∈ source.spans, (source.text.drop? s.stop).any Text.breaksLine = true

/-- Every statement is followed by blanks of the line and then a line break or nothing. -/
def EndsLines (source : Source) : Prop :=
  ∀ s ∈ source.spans, (source.text.drop? s.stop).any Text.endsLine = true

instance (source : Source) : Decidable source.EndsLines :=
  inferInstanceAs (Decidable (∀ s ∈ source.spans, _ = true))

/-! ## Pieces -/

theorem BreaksLines.endsLines (h : source.BreaksLines) : source.EndsLines := by
  intro s hs
  obtain ⟨rest, hrest, hbreaks⟩ := (Option.any_eq_true _ _).1 (h s hs)
  exact (Option.any_eq_true _ _).2 ⟨rest, hrest, (Text.endsLine_iff rest).2 (.inl hbreaks)⟩

theorem drop?_append_shift (a b : Source) (s : Span) :
    (a ++ b).text.drop? (s.shift a.size).stop = b.text.drop? s.stop :=
  Text.drop?_append_add a.text b.text s.stop

theorem BreaksLines.of_append (h : (a ++ b).BreaksLines) : b.BreaksLines := by
  intro s hs
  rw [← drop?_append_shift a b s]
  exact h _ (by simp [List.mem_map_of_mem hs])

/-- The statements of two pieces are at the ends of their lines if either piece is right for itself
and either the first breaks its last line or the second starts with the end of a line. -/
theorem endsLines_append (ha : a.EndsLines) :
    (a ++ b).EndsLines ↔ (a.BreaksLines ∨ b.text.endsLine = true) ∧ b.EndsLines := by
  have hleft : ∀ s ∈ a.spans, ∃ rest, a.text.drop? s.stop = some rest ∧ rest.endsLine = true ∧
      (a ++ b).text.drop? s.stop = some (rest ++ b.text) := by
    intro s hs
    obtain ⟨rest, hrest, hends⟩ := (Option.any_eq_true _ _).1 (ha s hs)
    obtain ⟨front, htext, hfront⟩ := Text.drop?_eq_some_iff.1 hrest
    refine ⟨rest, hrest, hends, Text.drop?_eq_some_iff.2 ⟨front, ?_, hfront⟩⟩
    rw [text_append, htext, List.append_assoc]
  constructor
  · intro h
    refine ⟨?_, fun s hs => ?_⟩
    · by_cases hb : b.text.endsLine = true
      · exact .inr hb
      · refine .inl fun s hs => ?_
        obtain ⟨rest, hrest, -, hboth⟩ := hleft s hs
        have hends := h s (by simp [hs])
        rw [hboth, Option.any_some, Text.endsLine_append] at hends
        rw [hrest, Option.any_some]
        tauto
    · rw [← drop?_append_shift a b s]
      exact h _ (by simp [List.mem_map_of_mem hs])
  · rintro ⟨hjoin, hb⟩ s hs
    rw [spans_append, List.mem_append, List.mem_map] at hs
    rcases hs with hs | ⟨s, hs, rfl⟩
    · obtain ⟨rest, hrest, hends, hboth⟩ := hleft s hs
      rw [hboth, Option.any_some, Text.endsLine_append]
      rw [Text.endsLine_iff] at hends
      rcases hjoin with hbreaks | hbreaks
      · have := hbreaks s hs
        rw [hrest, Option.any_some] at this
        exact .inl this
      · tauto
    · rw [drop?_append_shift]
      exact hb s hs

/-- A relocation and the ends of lines: what is kept in front and what the moved piece passes break
their lines, so that only the end of the moved piece may be glued to something. -/
inductive Carries (text : Text) : Fix → (kept old new : Source) → Prop where
  /-- The piece `c` moves in front of the piece `b`. -/
  | carry {fix : Fix} {kept b c : Source} (hb : b.WellFormed) (hc : c.WellFormed)
      (hkept : kept.BreaksLines) (hb_breaks : b.BreaksLines) (hc_ends : c.EndsLines)
      (hvisible : ∃ x ∈ b.text, Character.isBlank x = false)
      (hkeeps : fix.keepsLine text = true ↔ c.BreaksLines ∨ b.text.endsLine = true)
      (hlast : text.endsWithBreak = true → c.BreaksLines) :
      Carries text fix kept (b ++ c) (c ++ b)

section Carries

variable {text : Text} {fix : Fix} {fixes : List Fix} {kept old new : Source}

theorem Carries.swaps (h : Carries text fix kept old new) : Swaps old new := by
  obtain ⟨hb, hc⟩ := h
  exact .swap hb hc

/-- Less may be kept in front. -/
theorem Carries.of_append (h : Carries text fix (a ++ kept) old new) :
    Carries text fix kept old new := by
  obtain ⟨hb, hc, hkept, hb_breaks, hc_ends, hvisible, hkeeps, hlast⟩ := h
  exact .carry hb hc hkept.of_append hb_breaks hc_ends hvisible hkeeps hlast

/-- After a list of relocations the statements are at the ends of their lines exactly if no
relocation glues. -/
theorem Reworked.endsLines_iff (h : Reworked (Carries text) fixes s t) (hs : s.EndsLines) :
    t.EndsLines ↔ ∀ fix ∈ fixes, fix.keepsLine text = true := by
  induction h with
  | keep => simpa using hs
  | exchange _ _ _ _ h _ ih =>
    obtain ⟨-, -, hkept, hb, hc, hvisible, hkeeps, -⟩ := h
    rw [append_assoc, endsLines_append hkept.endsLines, endsLines_append hb.endsLines,
      endsLines_append hc] at hs
    rw [append_assoc, endsLines_append hkept.endsLines, endsLines_append hc,
      endsLines_append hb.endsLines, ih hs.2.2.2, List.forall_mem_cons, hkeeps]
    simp only [hkept, hb, true_or, true_and, text_append,
      Text.endsLine_append_of_visible hvisible]

theorem Reworked.endsLines_of_endsWithBreak (h : Reworked (Carries text) fixes s t)
    (hs : s.EndsLines) (htext : text.endsWithBreak = true) : t.EndsLines := by
  rw [h.endsLines_iff hs]
  clear hs
  induction h with
  | keep => simp
  | exchange _ _ _ _ h _ ih =>
    obtain ⟨-, -, -, -, -, -, hkeeps, hlast⟩ := h
    exact List.forall_mem_cons.2 ⟨hkeeps.2 (.inl (hlast htext)), ih⟩

end Carries

/-! ## Statements with the comments behind them -/

/-- The source of the statements together with the comments attached behind them. -/
def withTrailing (source : Source) : Source where
  text := source.text
  statements := source.statements.map fun s =>
    { s with span := ⟨s.span.start, (source.rangeOf s.span).bare.stop⟩ }
  comments := []

/-- No statement and no comment ends with a line break. -/
def ItemsUnbroken (source : Source) : Prop :=
  ∀ x ∈ source.items, ((source.text.slice? x).getD []).endsWithBreak = false

/-- The range of every statement, with the blanks behind it, ends with a line break or with the
text. -/
def OwnLines (source : Source) : Prop :=
  ∀ s ∈ source.spans,
    ((source.text.slice? (source.rangeOf s).full).getD []).endsWithBreak = true ∨
      (source.rangeOf s).full.stop = source.size

instance (source : Source) : Decidable source.ItemsUnbroken :=
  inferInstanceAs (Decidable (∀ x ∈ source.items, _ = false))

instance (source : Source) : Decidable source.OwnLines :=
  inferInstanceAs (Decidable (∀ s ∈ source.spans, _ = true ∨ _ = source.size))

@[simp]
theorem text_withTrailing (source : Source) : source.withTrailing.text = source.text := rfl

theorem mem_spans_withTrailing {x : Span} :
    x ∈ source.withTrailing.spans ↔
      ∃ s ∈ source.spans, (⟨s.start, (source.rangeOf s).bare.stop⟩ : Span) = x := by
  simp [spans, withTrailing]

theorem items_withTrailing (source : Source) :
    source.withTrailing.items = source.withTrailing.spans := by
  simp [items, withTrailing]

/-- Statements are well-formed together with the comments behind them. -/
theorem WellFormed.withTrailing (h : source.WellFormed) : source.withTrailing.WellFormed where
  spans_ordered := by
    have hspans : source.withTrailing.spans =
        source.spans.map fun s => ⟨s.start, (source.rangeOf s).bare.stop⟩ := by
      simp [spans, Source.withTrailing]
    rw [hspans, List.pairwise_map]
    exact h.spans_ordered.imp_of_mem fun {s t} hs ht hle => (h.attached hs).stop_le t ht hle
  comments_ordered := .nil
  holds_item x hx := by
    rw [items_withTrailing, mem_spans_withTrailing] at hx
    obtain ⟨s, hs, rfl⟩ := hx
    have ha := h.attached hs
    obtain ⟨c, part, hslice, hc⟩ := h.exists_slice? (List.mem_append_left _ hs)
    obtain ⟨front, rest, htext, hfront, hpart⟩ := Text.slice?_eq_some_iff.1 hslice
    obtain ⟨front', rest', htext', hfront'⟩ := ha.clear_stop.boundary
    have hle := ha.le_stop
    obtain ⟨k, rfl, -⟩ := Text.append_split (htext.symm.trans htext')
      (by rw [Text.byteLength_append]; omega)
    refine Text.holdsItem_iff.2 ⟨c, part ++ k, Text.slice?_eq_some_iff.2 ⟨front, rest', ?_, hfront,
      ?_⟩, hc⟩
    · simpa using htext'
    · rw [← hfront, ← hfront']
      simp [Text.byteLength_append]
  comment_placed := by simp [Source.withTrailing]

theorem Between.clear_withTrailing (h : source.WellFormed) {n : Nat} (hn : source.Between n) :
    source.withTrailing.Clear n where
  boundary := hn.boundary
  outside x hx := by
    rw [items_withTrailing, mem_spans_withTrailing] at hx
    obtain ⟨s, hs, rfl⟩ := hx
    have ha := h.attached hs
    rcases hn.ranges s hs with hle | hle
    · exact .inl (ha.bare_stop_le.trans hle)
    · exact .inr (hle.trans ha.start_le)

/-- What follows a statement and the comments behind it: blanks of the line and a line terminator,
which is there if the range ends with a line break. -/
theorem WellFormed.exists_lineTail (h : source.WellFormed) (hitems : source.ItemsUnbroken)
    {s : Span} (hs : s ∈ source.spans) :
    ∃ upto blanks terminator rest : Text, source.text = upto ++ (blanks ++ terminator) ++ rest ∧
      upto.byteLength = (source.rangeOf s).bare.stop ∧
      (source.rangeOf s).bare.stop + Text.byteLength (blanks ++ terminator) =
        (source.rangeOf s).full.stop ∧
      (∀ c ∈ blanks, Character.isInlineBlank c = true) ∧
      (∀ c ∈ terminator, Character.isLineBreak c = true) ∧
      (((source.text.slice? (source.rangeOf s).full).getD []).endsWithBreak = true ↔
        terminator ≠ []) := by
  have ha := h.attached hs
  obtain ⟨upto, blanks, terminator, rest, htext, hupto, hstop, hblanks, hterminator, -⟩ := ha.tail
  refine ⟨upto, blanks, terminator, rest, htext, hupto, hupto ▸ hstop, hblanks, hterminator, ?_⟩
  -- the range ends with an item
  obtain ⟨x, hx, hxstop⟩ : ∃ x ∈ source.items, x.stop = (source.rangeOf s).bare.stop := by
    rcases ha.below with heq | ⟨c, hc, heq, -⟩
    · exact ⟨s, List.mem_append_left _ hs, heq.symm⟩
    · exact ⟨c, List.mem_append_right _ hc, heq.symm⟩
  obtain ⟨c, part, hslice, -⟩ := h.exists_slice? hx
  obtain ⟨before, behind, htext', hbefore, hpart⟩ := Text.slice?_eq_some_iff.1 hslice
  have hends : Text.endsWithBreak upto = false := by
    have heq : before ++ (c :: part) ++ behind = upto ++ (blanks ++ terminator ++ rest) := by
      rw [← htext', htext, List.append_assoc]
    rw [← (Text.append_inj heq (by rw [Text.byteLength_append]; omega)).1,
      Text.endsWithBreak_append_of_ne_nil before (by simp)]
    simpa [hslice] using hitems x hx
  -- and it starts in front of where it ends
  obtain ⟨front, tail, hfront, hlen⟩ := ha.clear_start.boundary
  have hle := ha.start_le.trans ((h.bounds_span hs).1.le.trans ha.le_stop)
  obtain ⟨body, rfl, -⟩ := Text.append_split
    (show front ++ tail = upto ++ (blanks ++ terminator ++ rest) by
      rw [← hfront, htext, List.append_assoc]) (by omega)
  have hbody : Text.endsWithBreak body = false := by
    by_cases hnil : body = []
    · rw [hnil]
      rfl
    · rw [← Text.endsWithBreak_append_of_ne_nil front hnil, hends]
  have hfull : source.text.slice? (source.rangeOf s).full = some (body ++ (blanks ++ terminator)) :=
    Text.slice?_eq_some_iff.2 ⟨front, rest, by simpa using htext, hlen, by
      rw [Text.byteLength_append, ← Nat.add_assoc, ← Text.byteLength_append, hstop]⟩
  rw [hfull]
  exact Text.endsWithBreak_tail_iff hbody hblanks hterminator

section Piece

variable {p q r : Source}

theorem exists_mem_spans (hp : p.WellFormed) {x : Span} (hx : x ∈ (p ++ q ++ r).spans)
    (hroom : x.start < x.stop) (hstart : p.size ≤ x.start) (hstop : x.stop ≤ p.size + q.size) :
    ∃ y ∈ q.spans, y.shift p.size = x := by
  simp only [spans_append, List.mem_append, List.mem_map] at hx
  rcases hx with (hx | hx) | ⟨y, -, rfl⟩
  · have := (hp.bounds_span hx).2
    omega
  · exact hx
  · simp only [size_append, Span.shift_start, Span.shift_stop] at hroom hstop
    omega

/-- What follows a statement of a piece, up to the end of its range and of the piece. -/
theorem exists_piece_tail (h : source.WellFormed) (hitems : source.ItemsUnbroken)
    (hq : q.WellFormed) (hpieces : source.withTrailing = p ++ q ++ r)
    (hbetween : source.Between (p.size + q.size)) {x : Span} (hx : x ∈ q.spans) :
    ∃ s ∈ source.spans, ∃ blanks terminator rest : Text,
      p.size + x.start = s.start ∧
      (source.rangeOf s).full.stop + Text.byteLength rest = p.size + q.size ∧
      q.text.drop? x.stop = some (blanks ++ terminator ++ rest) ∧
      (∀ c ∈ blanks, Character.isInlineBlank c = true) ∧
      (∀ c ∈ terminator, Character.isLineBreak c = true) ∧
      (((source.text.slice? (source.rangeOf s).full).getD []).endsWithBreak = true ↔
        terminator ≠ []) := by
  have hmem : x.shift p.size ∈ source.withTrailing.spans := by
    rw [hpieces]
    simp [List.mem_map_of_mem hx]
  obtain ⟨s, hs, heq⟩ := mem_spans_withTrailing.1 hmem
  have hstart : s.start = p.size + x.start := congrArg Span.start heq
  have hstop : (source.rangeOf s).bare.stop = p.size + x.stop := congrArg Span.stop heq
  have hroom := hq.bounds_span hx
  have ha := h.attached hs
  have hfull : (source.rangeOf s).full.stop ≤ p.size + q.size := by
    have := ha.start_le
    rcases hbetween.ranges s hs with hle | hle <;> omega
  obtain ⟨upto, blanks, terminator, rest, htext, hupto, htail, hblanks, hterminator, hbreak⟩ :=
    h.exists_lineTail hitems hs
  have htext' : p.text ++ (q.text ++ r.text) = source.text := by
    rw [← text_withTrailing source, hpieces]
    simp
  -- the piece is cut behind the statement, and then behind its range
  obtain ⟨k, hk, hcut⟩ := Text.append_split (a := p.text) (b := q.text ++ r.text)
    (c := upto) (d := blanks ++ terminator ++ rest) (by rw [htext', htext]; simp)
    (by rw [hupto, hstop]; exact Nat.le_add_right _ _)
  have hklen : Text.byteLength k = x.stop := by
    have := congrArg Text.byteLength hk
    rw [hupto, hstop, Text.byteLength_append] at this
    change p.size + x.stop = p.size + _ at this
    omega
  have hlen : p.size + Text.byteLength (k ++ (blanks ++ terminator)) =
      (source.rangeOf s).full.stop := by
    rw [Text.byteLength_append, hklen]
    omega
  obtain ⟨tail, hq', -⟩ := Text.append_split (a := k ++ (blanks ++ terminator)) (b := rest)
    (c := q.text) (d := r.text) (by rw [hcut]; simp)
    (by change _ ≤ q.size; omega)
  refine ⟨s, hs, blanks, terminator, tail, hstart.symm, ?_, ?_, hblanks, hterminator, hbreak⟩
  · have := congrArg Text.byteLength hq'
    rw [Text.byteLength_append] at this
    change q.size = _ at this
    omega
  · exact Text.drop?_eq_some_iff.2 ⟨k, by simpa using hq', hklen⟩

/-- A piece that ends between ranges in front of the end of the text breaks its last line. -/
theorem breaksLines_piece (h : source.WellFormed) (hitems : source.ItemsUnbroken)
    (hown : source.OwnLines) (hq : q.WellFormed) (hpieces : source.withTrailing = p ++ q ++ r)
    (hbetween : source.Between (p.size + q.size)) (hlt : p.size + q.size < source.size) :
    q.BreaksLines := by
  intro x hx
  obtain ⟨s, hs, blanks, terminator, rest, -, hstop, hdrop, hblanks, hterminator, hbreak⟩ :=
    exists_piece_tail h hitems hq hpieces hbetween hx
  have hne : terminator ≠ [] := hbreak.1 ((hown s hs).resolve_right (by omega))
  rw [hdrop, Option.any_some]
  exact Text.breaksLine_tail hblanks hterminator hne rest

/-- The piece of a range is at the end of its line, and it breaks the line if the range ends with a
line break. -/
theorem lines_of_range_piece (h : source.WellFormed) (hitems : source.ItemsUnbroken)
    (hp : p.WellFormed) (hq : q.WellFormed) (hpieces : source.withTrailing = p ++ q ++ r) {s : Span}
    (hs : s ∈ source.spans) (hstart : p.size = (source.rangeOf s).full.start)
    (hstop : p.size + q.size = (source.rangeOf s).full.stop) :
    q.EndsLines ∧ (q.BreaksLines ↔
      ((source.text.slice? (source.rangeOf s).full).getD []).endsWithBreak = true) := by
  have ha := h.attached hs
  have hroom := h.bounds_span hs
  have hbetween : source.Between (p.size + q.size) := hstop ▸ h.between_full_stop hs
  -- the only statement of the piece is that of the range
  have hrest : ∀ x ∈ q.spans, ∃ blanks terminator : Text,
      q.text.drop? x.stop = some (blanks ++ terminator) ∧
      (∀ c ∈ blanks, Character.isInlineBlank c = true) ∧
      (∀ c ∈ terminator, Character.isLineBreak c = true) ∧
      (((source.text.slice? (source.rangeOf s).full).getD []).endsWithBreak = true ↔
        terminator ≠ []) := by
    intro x hx
    obtain ⟨t, ht, blanks, terminator, rest, hplace, hlen, hdrop, hblanks, hterminator, hbreak⟩ :=
      exists_piece_tail h hitems hq hpieces hbetween hx
    obtain rfl : t = s := by
      by_contra hne
      have ha' := h.attached ht
      have := ha'.start_le
      have := ha'.le_stop.trans ha'.bare_stop_le
      have := h.bounds_span ht
      have := hq.bounds_span hx
      rcases h.ranges_apart ht hs hne with hap | hap <;> omega
    obtain rfl : rest = [] := (Text.byteLength_eq_zero_iff rest).1 (by omega)
    exact ⟨blanks, terminator, by simpa using hdrop, hblanks, hterminator, hbreak⟩
  refine ⟨fun x hx => ?_, fun hbreaks => ?_, fun hbreak x hx => ?_⟩
  · obtain ⟨blanks, terminator, hdrop, hblanks, hterminator, -⟩ := hrest x hx
    rw [hdrop, Option.any_some]
    exact Text.endsLine_tail hblanks hterminator
  · have hmem : (⟨s.start, (source.rangeOf s).bare.stop⟩ : Span) ∈ (p ++ q ++ r).spans :=
      hpieces ▸ mem_spans_withTrailing.2 ⟨s, hs, rfl⟩
    obtain ⟨x, hx, -⟩ := exists_mem_spans hp hmem (hroom.1.trans_le ha.le_stop)
      (hstart ▸ ha.start_le) (hstop ▸ ha.bare_stop_le)
    obtain ⟨blanks, terminator, hdrop, hblanks, hterminator, hbreak⟩ := hrest x hx
    have := hbreaks x hx
    rw [hdrop, Option.any_some, Text.breaksLine_tail_iff hblanks hterminator] at this
    exact hbreak.2 this
  · obtain ⟨blanks, terminator, hdrop, hblanks, hterminator, hne⟩ := hrest x hx
    rw [hdrop, Option.any_some, Text.breaksLine_tail_iff hblanks hterminator]
    exact hne.1 hbreak

end Piece

theorem OwnLines.endsWithBreak (hown : source.OwnLines) (h : source.WellFormed) {s : Span}
    (hs : s ∈ source.spans) (htext : source.text.endsWithBreak = true) :
    ((source.text.slice? (source.rangeOf s).full).getD []).endsWithBreak = true := by
  rcases hown s hs with hbreak | hstop
  · exact hbreak
  · obtain ⟨front, tail, heq, hfront⟩ := (h.attached hs).clear_start.boundary
    have hsize : source.size = Text.byteLength front + Text.byteLength tail := by
      rw [size, heq, Text.byteLength_append]
    have hslice : source.text.slice? (source.rangeOf s).full = some tail :=
      Text.slice?_eq_some_iff.2 ⟨front, [], by simpa using heq, hfront, by omega⟩
    have hne : tail ≠ [] := by
      rintro rfl
      have := h.full_start_lt hs
      rw [Text.byteLength_nil] at hsize
      omega
    rw [heq, Text.endsWithBreak_append_of_ne_nil front hne] at htext
    rw [hslice]
    exact htext

theorem OwnLines.endsLines (hown : source.OwnLines) (h : source.WellFormed)
    (hitems : source.ItemsUnbroken) : source.withTrailing.EndsLines := by
  intro x hx
  obtain ⟨s, hs, rfl⟩ := mem_spans_withTrailing.1 hx
  obtain ⟨upto, blanks, terminator, rest, htext, hupto, htail, hblanks, hterminator, hbreak⟩ :=
    h.exists_lineTail hitems hs
  have hdrop : source.text.drop? (source.rangeOf s).bare.stop =
      some (blanks ++ terminator ++ rest) :=
    Text.drop?_eq_some_iff.2 ⟨upto, by simpa using htext, hupto⟩
  rw [text_withTrailing, hdrop, Option.any_some]
  rcases hown s hs with hends | hstop
  · exact (Text.endsLine_iff _).2
      (.inl (Text.breaksLine_tail hblanks hterminator (hbreak.1 hends) rest))
  · obtain rfl : rest = [] := by
      refine (Text.byteLength_eq_zero_iff rest).1 ?_
      rw [size, htext, Text.byteLength_append, Text.byteLength_append, hupto, htail] at hstop
      omega
    simpa using Text.endsLine_tail hblanks hterminator

/-- The relocation of the range of a statement over another one. -/
theorem WellFormed.exists_carries (h : source.WellFormed) (hitems : source.ItemsUnbroken)
    (hown : source.OwnLines) {s t : Span} (hs : s ∈ source.spans) (ht : t ∈ source.spans) {n : Nat}
    (hn : source.Between n) (hnt : n ≤ t.start) (hts : t.stop ≤ s.start) {fix : Fix}
    (hfix : Fix.relocate source.text (source.rangeOf s).full n = .ok fix) :
    ∃ a old new d, fix.Changes source.withTrailing a old new d ∧
      Carries source.text fix a old new := by
  have ht' := h.attached ht
  have hpassed := ht'.full_stop_le_full_start h ht hs (h.attached hs) hts
  have hroom := h.bounds_span ht
  have hle := ht'.le_stop
  have hle' := ht'.bare_stop_le
  have hlt := h.full_start_lt hs
  obtain ⟨fix', a, b, c, d, hfix', hchanges, hb, hc, hasize, hbsize, hcsize⟩ :=
    h.withTrailing.exists_relocation_of_clear (hn.clear_withTrailing h)
      ((h.between_full_start hs).clear_withTrailing h)
      ((h.between_full_stop hs).clear_withTrailing h) (by omega) hlt.le
  obtain rfl : fix' = fix := Except.ok.inj (hfix'.symm.trans hfix)
  have ha := hchanges.front_wellFormed
  have hpieces : source.withTrailing = a ++ b ++ (c ++ d) := by
    rw [hchanges.eq, append_assoc, append_assoc, append_assoc]
  have hpieces' : source.withTrailing = a ++ b ++ c ++ d := by rw [hpieces, ← append_assoc]
  have hsize : source.size = a.size + b.size + c.size + d.size := by
    rw [← size_append, ← size_append, ← size_append, ← hpieces']
    rfl
  -- the piece in between breaks its lines, and a statement is in it
  have hb_breaks : b.BreaksLines := breaksLines_piece h hitems hown hb hpieces
    (hbsize ▸ h.between_full_start hs) (by omega)
  have hvisible : ∃ x ∈ b.text, Character.isBlank x = false := by
    have hmem : (⟨t.start, (source.rangeOf t).bare.stop⟩ : Span) ∈ (a ++ b ++ (c ++ d)).spans :=
      hpieces ▸ mem_spans_withTrailing.2 ⟨t, ht, rfl⟩
    obtain ⟨x, hx, -⟩ := exists_mem_spans ha hmem (hroom.1.trans_le hle) (hasize ▸ hnt)
      (by simp only; omega)
    obtain ⟨v, part, hslice, hv⟩ := hb.exists_slice? (List.mem_append_left _ hx)
    obtain ⟨front, rest, htext, -⟩ := Text.slice?_eq_some_iff.1 hslice
    exact ⟨v, by simp [htext], hv⟩
  have ha_breaks : a.BreaksLines := by
    refine breaksLines_piece (p := ofText []) (r := b ++ (c ++ d)) h hitems hown ha ?_ ?_ ?_
    · rw [hpieces, ofText_nil_append, append_assoc]
    · rw [show (ofText []).size = 0 from rfl, Nat.zero_add, hasize]
      exact hn
    · rw [show (ofText []).size = 0 from rfl]
      omega
  obtain ⟨hc_ends, hc_breaks⟩ := lines_of_range_piece h hitems (ha.append hb) hc hpieces' hs
    (by rw [size_append, hbsize]) (by rw [size_append, hcsize])
  refine ⟨a, b ++ c, c ++ b, d, hchanges, .carry hb hc ha_breaks hb_breaks hc_ends hvisible ?_
    fun htext => hc_breaks.2 (hown.endsWithBreak h hs htext)⟩
  have hdrop : source.text.drop? n = some (b.text ++ (c.text ++ d.text)) := by
    refine Text.drop?_eq_some_iff.2 ⟨a.text, ?_, hasize⟩
    rw [← text_withTrailing source, hpieces]
    simp
  rw [Fix.keepsLine_relocate hfix, Bool.or_eq_true, hc_breaks, hdrop, Option.any_some,
    Text.endsLine_append_of_visible hvisible]

end Source

namespace LineEnds

variable {source : Source}

/-- A pass whose fixes relocate ranges leaves the statements at the ends of their lines exactly if
none of the fixes that it makes glues, and there is none that does if the text ends with a line
break. -/
theorem exists_outcome_of_relocates (h : source.WellFormed) (hitems : source.ItemsUnbroken)
    (hown : source.OwnLines) {ds : List Diagnostic} (hds : ∀ d ∈ ds, d.Relocates source) :
    ∃ outcome, source.text.applyFixes ds = .ok outcome ∧
      (source.withTrailing.after ds).text = outcome.output ∧
      (source.withTrailing.after ds).passages.Perm source.withTrailing.passages ∧
      ((source.withTrailing.after ds).EndsLines ↔
        ∀ fix ∈ source.text.appliedFixes ds, fix.keepsLine source.text = true) ∧
      (source.text.endsWithBreak = true → (source.withTrailing.after ds).EndsLines) := by
  obtain ⟨outcome, happly, htext, -, hreworked⟩ :=
    h.withTrailing.exists_reworked (P := Source.Carries source.text)
      (fun _ _ _ _ _ _ hcarries => hcarries.of_append)
      fun fix (hfix : fix ∈ ds.filterMap (·.fix)) => by
        obtain ⟨d, hd, heq⟩ := List.mem_filterMap.1 hfix
        obtain ⟨fix', heq', s, hs, t, ht, n, hn, hnt, hts, hrelocate⟩ := hds d hd
        obtain rfl : fix' = fix := Option.some.inj (heq'.symm.trans heq)
        exact h.exists_carries hitems hown hs ht hn hnt hts hrelocate
  have hbegin := hown.endsLines h hitems
  have hsteps := hreworked.steps (R := Source.Rewrites) fun hcarries => .inl hcarries.swaps
  exact ⟨outcome, happly, htext, (Source.Preserves.of_steps hsteps).passages_perm,
    hreworked.endsLines_iff hbegin, hreworked.endsLines_of_endsWithBreak hbegin⟩

/-- Of a well-formed source in which no statement and no comment ends with a line break and every
range ends with a line break or with the text, make the fixes of a rule on order. Every statement,
together with the comments behind it, is then at the end of its line, unless a fix pastes a range
without a line break where the line goes on; no fix does so if the text ends with a line break. -/
theorem pass_ends_lines_iff {source : Source} {rule : Rule} (h : source.WellFormed)
    (hitems : source.ItemsUnbroken) (hown : source.OwnLines)
    (hrule : rule = ImportSort.rule ∨ rule = StatementOrder.rule ∧ source.HashbangOutside)
    (packages : Packages) :
    ∃ ds outcome, rule.check source packages = .ok ds ∧
      source.text.applyFixes ds = .ok outcome ∧
      (source.withTrailing.after ds).text = outcome.output ∧
      (source.withTrailing.after ds).passages.Perm source.withTrailing.passages ∧
      ((source.withTrailing.after ds).EndsLines ↔
        ∀ fix ∈ source.text.appliedFixes ds, fix.keepsLine source.text = true) ∧
      (source.text.endsWithBreak = true → (source.withTrailing.after ds).EndsLines) := by
  obtain ⟨ds, hcheck, hrelocates⟩ : ∃ ds, rule.check source packages = .ok ds ∧
      ∀ d ∈ ds, d.Relocates source := by
    rcases hrule with rfl | ⟨rfl, hh⟩
    · obtain ⟨ds, hcheck, hreports, -⟩ := ImportSort.exists_check h packages
      exact ⟨ds, hcheck, fun d hd => (hreports d hd).2⟩
    · obtain ⟨ds, hcheck, hlifts, -⟩ :=
        StatementOrder.exists_check h (h.hashbangApart hh) packages
      exact ⟨ds, hcheck, fun d hd => (hlifts d hd).2⟩
  obtain ⟨outcome, happly, hrest⟩ := exists_outcome_of_relocates h hitems hown hrelocates
  exact ⟨ds, outcome, hcheck, happly, hrest⟩

/-- Code above an import with a comment behind it, where the text ends. -/
def unterminated : Source where
  text := "1;\nimport 'a'; // c".toList
  statements := [.plain ⟨0, 2⟩, ⟨.importDecl, 0, false, some "a", ⟨3, 14⟩⟩]
  comments := [⟨15, 19⟩]

/-- The import goes in front of the code without a line break, and its comment swallows the code. -/
theorem pass_glues_unterminated : unterminated.WellFormed ∧ unterminated.ItemsUnbroken ∧
    unterminated.OwnLines ∧ unterminated.HashbangOutside ∧
    ∃ ds outcome, StatementOrder.rule.check unterminated [] = .ok ds ∧
      unterminated.text.applyFixes ds = .ok outcome ∧
      outcome.output = "import 'a'; // c1;\n".toList ∧
      ¬ (unterminated.withTrailing.after ds).EndsLines := by
  have h : unterminated.WellFormed := by decide
  have hitems : unterminated.ItemsUnbroken := by decide
  have hown : unterminated.OwnLines := by decide
  have hh : unterminated.HashbangOutside := by decide
  obtain ⟨ds, outcome, hcheck, happly, -, -, hends, -⟩ :=
    pass_ends_lines_iff h hitems hown (.inr ⟨rfl, hh⟩) []
  have hcheck' : StatementOrder.rule.check unterminated [] = .ok [Diagnostic.make unterminated
      StatementOrder.name Violation.importAfterStatement.id Violation.importAfterStatement.message
      ⟨3, 19⟩ (some ⟨[Edit.remove ⟨3, 19⟩, Edit.insertAt 0 "import 'a'; // c".toList]⟩)] := by
    decide
  have hmerged : Fix.merged ⟨[Edit.remove ⟨3, 19⟩, Edit.insertAt 0 "import 'a'; // c".toList]⟩
      unterminated.text = .ok (some ⟨⟨0, 19⟩, "import 'a'; // c1;\n".toList⟩) := by
    rw [Fix.merged, Fix.mergeSort_relocation (by decide)]
    decide
  obtain rfl := Except.ok.inj (hcheck.symm.trans hcheck')
  refine ⟨h, hitems, hown, hh, _, outcome, hcheck, happly, ?_, fun hlines => ?_⟩
  · rw [Text.applyFixes_singleton rfl hmerged] at happly
    obtain rfl := Except.ok.inj happly
    rfl
  · have hkeeps := hends.1 hlines
    rw [Text.appliedFixes_singleton rfl hmerged] at hkeeps
    exact absurd (hkeeps _ List.mem_cons_self) (by decide)

end LineEnds

end ImportOrder
