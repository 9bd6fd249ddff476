import ImportOrder.AttachedRange
import ImportOrder.Proofs.Source.WellFormed
import Mathlib.Data.List.Pairwise

/-!
# Where the ranges of statements begin and end

In a well-formed source every statement has a range, its ends are offsets at which the source can be
cut, and the ranges of different statements do not overlap. Of the lines of the text the proofs use
one thing only: they are counted upwards.

## Main definitions

- `Text.BreaksBefore`: a line terminator and what follows it
- `Source.Solid`: the items whose borders no other item crosses
- `Source.rangeOf`: the range of a statement, as a total function
- `Source.Attached`: what is known of the range of a statement
- `Source.Between`: the offsets between the ranges

## Main statements

- `Source.Clear.append_blank`: blanks behind a clear offset end at a clear offset
- `Source.WellFormed.attached`: the range of every statement is known
- `Source.WellFormed.ranges_apart`: ranges do not overlap
-/

namespace ImportOrder

instance : Std.Symm Span.Apart := ⟨fun _ _ => Or.symm⟩

theorem Text.lineOf_mono (text : Text) {m n : Nat} (h : m ≤ n) : text.lineOf m ≤ text.lineOf n := by
  refine Nat.add_le_add_right (List.countP_mono_left fun k _ hk => ?_) 1
  simp only [decide_eq_true_eq] at hk ⊢
  omega

/-- A line terminator, as long as it can be, and what follows it; without a terminator no line ends
there. -/
inductive Text.BreaksBefore : (terminator rest : Text) → Prop where
  | pair (rest : Text) : BreaksBefore ['\r', '\n'] rest
  | feed (rest : Text) : BreaksBefore ['\n'] rest
  | lone {rest : Text} (h : rest.head? ≠ some '\n') : BreaksBefore ['\r'] rest
  | none {rest : Text} (h : ∀ c ∈ rest.head?, Character.isLineBreak c = false) :
      BreaksBefore [] rest

theorem Text.BreaksBefore.isLineBreak {terminator rest : Text} (h : BreaksBefore terminator rest) :
    ∀ c ∈ terminator, Character.isLineBreak c = true := by
  cases h <;> simp [Character.isLineBreak]

/-- A text starts with its line terminator. -/
theorem Text.exists_breaksBefore (text : Text) :
    ∃ terminator rest, text = terminator ++ rest ∧ BreaksBefore terminator rest ∧
      byteLength terminator = text.lineBreakLength := by
  unfold lineBreakLength
  split
  · next rest => exact ⟨['\r', '\n'], rest, rfl, .pair rest, rfl⟩
  · next rest => exact ⟨['\n'], rest, rfl, .feed rest, rfl⟩
  · next rest hpair =>
    refine ⟨['\r'], rest, rfl, .lone ?_, rfl⟩
    intro hfeed
    obtain ⟨tail, rfl⟩ := List.head?_eq_some_iff.1 hfeed
    exact hpair tail rfl
  · next hpair hfeed hlone =>
    refine ⟨[], text, rfl, .none ?_, rfl⟩
    intro c hc
    obtain ⟨tail, rfl⟩ := List.head?_eq_some_iff.1 hc
    by_cases hn : c = '\n'
    · exact absurd (hn ▸ rfl) (hfeed tail)
    · by_cases hr : c = '\r'
      · exact absurd (hr ▸ rfl) (hlone tail)
      · simp [Character.isLineBreak, hn, hr]

theorem Text.exists_lineBreak (text : Text) :
    ∃ terminator rest, text = terminator ++ rest ∧
      Text.byteLength terminator = text.lineBreakLength ∧
      (∀ c ∈ terminator, Character.isLineBreak c = true) ∧
      (terminator = [] → ∀ c ∈ rest.head?, Character.isLineBreak c = false) := by
  obtain ⟨terminator, rest, htext, hbreaks, hlength⟩ := text.exists_breaksBefore
  refine ⟨terminator, rest, htext, hlength, hbreaks.isLineBreak, ?_⟩
  rintro rfl
  cases hbreaks with
  | none h => exact h

theorem Character.isBlank_of_isInlineBlank {c : Char} (h : isInlineBlank c = true) :
    isBlank c = true := by
  simp only [isInlineBlank, Bool.and_eq_true] at h
  exact h.1

theorem Character.isBlank_of_isLineBreak {c : Char} (h : isLineBreak c = true) :
    isBlank c = true := by
  simp only [isLineBreak, Bool.or_eq_true, beq_iff_eq] at h
  rcases h with rfl | rfl <;> decide

theorem Character.isWhiteSpace_of_isLineBreak {c : Char} (h : isLineBreak c = true) :
    isWhiteSpace c = true := by
  simp only [isLineBreak, Bool.or_eq_true, beq_iff_eq] at h
  rcases h with rfl | rfl <;> decide

/-- What starts with a character of another kind does not start inside blanks. -/
theorem Text.add_le_start_of_slice? {isBlank : Char → Bool} {text front blanks rest part : Text}
    {x : Span} {c : Char} (htext : text = front ++ blanks ++ rest)
    (hblank : ∀ c ∈ blanks, isBlank c = true) (hslice : text.slice? x = some (c :: part))
    (hc : isBlank c = false) (hstart : Text.byteLength front ≤ x.start) :
    Text.byteLength front + Text.byteLength blanks ≤ x.start := by
  apply Nat.le_of_not_lt
  intro hlt
  obtain ⟨before, behind, htext', hbefore, -⟩ := Text.slice?_eq_some_iff.1 hslice
  rw [htext, List.append_assoc, List.append_assoc] at htext'
  obtain ⟨k, rfl, hk⟩ := Text.append_split htext' (by omega)
  rw [Text.byteLength_append] at hbefore
  obtain ⟨l, rfl, hl⟩ := Text.append_split hk.symm (by omega)
  -- the first character of the item would be one of the blanks
  cases l with
  | nil => simp only [List.append_nil] at hlt; omega
  | cons d l =>
    simp only [List.cons_append, List.cons.injEq] at hl
    have := hblank d (by simp)
    rw [← hl.1, hc] at this
    exact Bool.false_ne_true this

/-- No item starts inside blanks. -/
theorem Text.add_le_start_of_holdsItem {text front blanks rest : Text}
    (htext : text = front ++ blanks ++ rest)
    (hblank : ∀ c ∈ blanks, Character.isBlank c = true) {x : Span} (hx : text.holdsItem x)
    (hstart : Text.byteLength front ≤ x.start) :
    Text.byteLength front + Text.byteLength blanks ≤ x.start := by
  obtain ⟨c, part, hslice, hc⟩ := Text.holdsItem_iff.1 hx
  exact Text.add_le_start_of_slice? htext hblank hslice hc hstart

namespace Source

variable {source : Source}

/-- An item whose borders no other item crosses. -/
structure Solid (source : Source) (x : Span) : Prop where
  /-- It is a statement or a comment. -/
  mem : x ∈ source.items
  /-- Every other item lies inside it or apart from it. -/
  placed : ∀ y ∈ source.items, y.Inside x ∨ y.Apart x

theorem WellFormed.add_le_start (h : source.WellFormed) {front blanks rest : Text}
    (htext : source.text = front ++ blanks ++ rest)
    (hblank : ∀ c ∈ blanks, Character.isBlank c = true) {x : Span} (hx : x ∈ source.items)
    (hstart : Text.byteLength front ≤ x.start) :
    Text.byteLength front + Text.byteLength blanks ≤ x.start :=
  Text.add_le_start_of_holdsItem htext hblank (h.holds_item x hx) hstart

/-- Blanks behind a clear offset end at a clear offset. -/
theorem Clear.append_blank (h : source.WellFormed) {front blanks rest : Text}
    (htext : source.text = front ++ blanks ++ rest) (hn : source.Clear (Text.byteLength front))
    (hblank : ∀ c ∈ blanks, Character.isBlank c = true) :
    source.Clear (Text.byteLength front + Text.byteLength blanks) where
  boundary := ⟨front ++ blanks, rest, htext, Text.byteLength_append front blanks⟩
  outside x hx := by
    rcases hn.outside x hx with hstop | hstart
    · exact .inl (by omega)
    · exact .inr (h.add_le_start htext hblank hx hstart)

namespace Solid

variable {x : Span}

theorem clear_start (h : source.WellFormed) (hx : source.Solid x) : source.Clear x.start where
  boundary := by
    obtain ⟨c, part, hslice, -⟩ := Text.holdsItem_iff.1 (h.holds_item x hx.mem)
    obtain ⟨front, rest, htext, hf, -⟩ := Text.slice?_eq_some_iff.1 hslice
    exact ⟨front, (c :: part) ++ rest, by rw [htext, List.append_assoc], hf⟩
  outside y hy := by
    have := h.bounds hy
    rcases hx.placed y hy with ⟨hin, -⟩ | hap | hap
    · exact .inr hin
    · exact .inl hap
    · have := h.bounds hx.mem
      exact .inr (by omega)

theorem clear_stop (h : source.WellFormed) (hx : source.Solid x) : source.Clear x.stop where
  boundary := by
    obtain ⟨c, part, hslice, -⟩ := Text.holdsItem_iff.1 (h.holds_item x hx.mem)
    obtain ⟨front, rest, htext, hf, hp⟩ := Text.slice?_eq_some_iff.1 hslice
    exact ⟨front ++ (c :: part), rest, htext, by rw [Text.byteLength_append]; exact hp⟩
  outside y hy := by
    have := h.bounds hx.mem
    rcases hx.placed y hy with ⟨-, hin⟩ | hap | hap
    · exact .inl hin
    · exact .inl (by omega)
    · exact .inr hap

end Solid

namespace WellFormed

theorem spans_apart (h : source.WellFormed) {x y : Span} (hx : x ∈ source.spans)
    (hy : y ∈ source.spans) (hne : x ≠ y) : x.Apart y := by
  have hapart : source.spans.Pairwise Span.Apart := h.spans_ordered.imp Or.inl
  exact hapart.forall hx hy hne

theorem comments_apart (h : source.WellFormed) {x y : Span} (hx : x ∈ source.comments)
    (hy : y ∈ source.comments) (hne : x ≠ y) : x.Apart y := by
  have hapart : source.comments.Pairwise Span.Apart := h.comments_ordered.imp Or.inl
  exact hapart.forall hx hy hne

/-- No border of a statement is crossed. -/
theorem solid_span (h : source.WellFormed) {x : Span} (hx : x ∈ source.spans) :
    source.Solid x where
  mem := List.mem_append_left _ hx
  placed y hy := by
    rcases List.mem_append.1 hy with hy | hy
    · by_cases hne : y = x
      · exact .inl (by simp [hne, Span.Inside])
      · exact .inr (h.spans_apart hy hx hne)
    · exact h.comment_placed y hy x hx

theorem solid_comment (h : source.WellFormed) {x : Span} (hx : x ∈ source.comments)
    (hout : ∀ s ∈ source.spans, x.Apart s) : source.Solid x where
  mem := List.mem_append_right _ hx
  placed y hy := by
    rcases List.mem_append.1 hy with hy | hy
    · exact .inr (Or.symm (hout y hy))
    · by_cases hne : y = x
      · exact .inl (by simp [hne, Span.Inside])
      · exact .inr (h.comments_apart hy hx hne)

end WellFormed

/-! ## Neighbours -/

section Neighbours

variable {before behind : List Span} {span : Span}

/-- The statement before one of the statements is the last of those in front of it. -/
theorem statementBefore?_of_ordered (hordered : source.spans.Pairwise (·.stop ≤ ·.start))
    (hroom : ∀ x ∈ source.spans, x.start < x.stop)
    (hs : source.spans = before ++ span :: behind) :
    source.statementBefore? span = before.getLast? := by
  have hspan := hroom span (by simp [hs])
  rw [hs, List.pairwise_append] at hordered
  have htake : (before ++ span :: behind).takeWhile (fun s => s.stop ≤ span.start) = before := by
    rw [List.takeWhile_append_of_pos, List.takeWhile_cons_of_neg, List.append_nil]
    · simp only [decide_eq_true_eq]
      omega
    · intro s hs
      simpa using hordered.2.2 s hs span (by simp)
  rw [statementBefore?, hs, htake]

/-- The statement after one of the statements is the first of those behind it. -/
theorem statementAfter?_of_ordered (hordered : source.spans.Pairwise (·.stop ≤ ·.start))
    (hroom : ∀ x ∈ source.spans, x.start < x.stop)
    (hs : source.spans = before ++ span :: behind) :
    source.statementAfter? span = behind.head? := by
  have hspan := hroom span (by simp [hs])
  rw [hs, List.pairwise_append, List.pairwise_cons] at hordered
  have hfront : ∀ s ∈ before ++ [span], ¬ span.stop ≤ s.start := by
    intro s hs'
    rcases List.mem_append.1 hs' with hs' | hs'
    · have := hroom s (by simp [hs, hs'])
      have := hordered.2.2 s hs' span (by simp)
      omega
    · obtain rfl := List.mem_singleton.1 hs'
      omega
  have hnone : (before ++ [span]).find? (fun s => span.stop ≤ s.start) = none :=
    List.find?_eq_none.2 fun s hs' => by simpa using hfront s hs'
  rw [statementAfter?, hs, show before ++ span :: behind = (before ++ [span]) ++ behind by simp,
    List.find?_append, hnone, Option.none_or]
  cases behind with
  | nil => rfl
  | cons next behind =>
    rw [List.find?_cons_of_pos (by simpa using hordered.2.1.1 next (by simp)), List.head?_cons]

theorem statementBefore?_eq (h : source.WellFormed) (hs : source.spans = before ++ span :: behind) :
    source.statementBefore? span = before.getLast? :=
  statementBefore?_of_ordered h.spans_ordered (fun _ hx => (h.bounds_span hx).1) hs

theorem statementAfter?_eq (h : source.WellFormed) (hs : source.spans = before ++ span :: behind) :
    source.statementAfter? span = behind.head? :=
  statementAfter?_of_ordered h.spans_ordered (fun _ hx => (h.bounds_span hx).1) hs

/-- The last statement in front of a statement ends last. -/
theorem stop_le_of_getLast? (h : before.Pairwise (·.stop ≤ ·.start))
    (hroom : ∀ s ∈ before, s.start < s.stop) {s last : Span} (hs : s ∈ before)
    (hlast : before.getLast? = some last) : s.stop ≤ last.stop := by
  obtain ⟨front, rfl⟩ := List.getLast?_eq_some_iff.1 hlast
  rw [List.pairwise_append] at h
  have := hroom last (by simp)
  rcases List.mem_append.1 hs with hs | hs
  · have := h.2.2 s hs last (by simp)
    omega
  · obtain rfl := List.mem_singleton.1 hs
    exact Nat.le_refl _

theorem mem_before (h : source.WellFormed) (hs : source.spans = before ++ span :: behind)
    {s : Span} (hmem : s ∈ source.spans) (hle : s.stop ≤ span.start) : s ∈ before := by
  have hspans := h.spans_ordered
  rw [hs, List.pairwise_append, List.pairwise_cons] at hspans
  have hroom := h.bounds_span hmem
  have hroom' := h.bounds_span (x := span) (by simp [hs])
  rw [hs, List.mem_append, List.mem_cons] at hmem
  rcases hmem with hmem | rfl | hmem
  · exact hmem
  · omega
  · have := hspans.2.1.1 s hmem
    omega

theorem mem_behind (h : source.WellFormed) (hs : source.spans = before ++ span :: behind)
    {s : Span} (hmem : s ∈ source.spans) (hle : span.stop ≤ s.start) : s ∈ behind := by
  have hspans := h.spans_ordered
  rw [hs, List.pairwise_append, List.pairwise_cons] at hspans
  have hroom := h.bounds_span hmem
  have hroom' := h.bounds_span (x := span) (by simp [hs])
  rw [hs, List.mem_append, List.mem_cons] at hmem
  rcases hmem with hmem | rfl | hmem
  · have := hspans.2.2 s hmem span (by simp)
    omega
  · omega
  · exact hmem

/-- No statement in front of a statement ends below the line that attached comments stay below. -/
theorem lineOf_stop_le (h : source.WellFormed) (hs : source.spans = before ++ span :: behind)
    {s : Span} (hmem : s ∈ before) :
    source.lineOf s.stop ≤ (source.statementBefore? span).elim 0 (source.lineOf ·.stop) := by
  have hspans := h.spans_ordered
  rw [hs, List.pairwise_append] at hspans
  rw [statementBefore?_eq h hs]
  cases hlast : before.getLast? with
  | none => simp [List.getLast?_eq_none_iff.1 hlast] at hmem
  | some last =>
    exact source.text.lineOf_mono (stop_le_of_getLast? hspans.1
      (fun s hs' => (h.bounds_span (x := s) (by simp [hs, hs'])).1) hmem hlast)

/-- A comment that may be attached above a statement lies between it and those in front of it. -/
theorem of_mem_commentsBefore (h : source.WellFormed)
    (hs : source.spans = before ++ span :: behind) {c : Span}
    (hc : c ∈ source.commentsBefore span) :
    c ∈ source.comments ∧ c.stop ≤ span.start ∧ ∀ s ∈ before, s.stop ≤ c.start := by
  simp only [commentsBefore, statementBefore?_eq h hs, List.mem_filter, List.mem_reverse,
    Bool.and_eq_true, decide_eq_true_eq] at hc
  refine ⟨hc.1, hc.2.1, fun s hs' => ?_⟩
  have hspans := h.spans_ordered
  rw [hs, List.pairwise_append] at hspans
  have hroom : ∀ s ∈ before, s.start < s.stop := fun s hs' =>
    (h.bounds_span (x := s) (by simp [hs, hs'])).1
  cases hlast : before.getLast? with
  | none => simp [List.getLast?_eq_none_iff.1 hlast] at hs'
  | some last =>
    have := stop_le_of_getLast? hspans.1 hroom hs' hlast
    rw [hlast] at hc
    simp only [Option.elim_some] at hc
    omega

theorem of_mem_commentsAfter (h : source.WellFormed)
    (hs : source.spans = before ++ span :: behind) {c : Span}
    (hc : c ∈ source.commentsAfter span) :
    c ∈ source.comments ∧ span.stop ≤ c.start ∧ ∀ s ∈ behind, c.stop ≤ s.start := by
  simp only [commentsAfter, statementAfter?_eq h hs, List.mem_filter, Bool.and_eq_true,
    decide_eq_true_eq] at hc
  refine ⟨hc.1, hc.2.1, fun s hs' => ?_⟩
  cases behind with
  | nil => simp at hs'
  | cons next behind =>
    have hspans := h.spans_ordered
    rw [hs, List.pairwise_append, List.pairwise_cons, List.pairwise_cons] at hspans
    have hnext : c.stop ≤ next.start := by simpa using hc.2.2
    rcases List.mem_cons.1 hs' with rfl | hs'
    · exact hnext
    · have := hspans.2.1.2.1 s hs'
      have := h.bounds_span (x := next) (by simp [hs])
      omega

/-- A comment between two neighbouring statements lies outside of all statements. -/
theorem apart_of_between (hs : source.spans = before ++ span :: behind)
    {c : Span} (hbefore : ∀ s ∈ before, s.stop ≤ c.start) (hspan : c.Apart span)
    (hbehind : ∀ s ∈ behind, c.stop ≤ s.start) : ∀ s ∈ source.spans, c.Apart s := by
  intro s hs'
  rw [hs, List.mem_append, List.mem_cons] at hs'
  rcases hs' with hs' | rfl | hs'
  · exact .inr (hbefore s hs')
  · exact hspan
  · exact .inl (hbehind s hs')

end Neighbours

/-! ## Ranges -/

/-- A range starts with its statement or with a comment that is attached above. -/
theorem attachedStart_cases (source : Source) (hashbang : Option Span) (limit line start : Nat)
    (comments : List Span) :
    source.attachedStart hashbang limit line start comments = start ∨
      ∃ c ∈ comments, source.attachedStart hashbang limit line start comments = c.start ∧
        some c ≠ hashbang ∧ limit < source.lineOf c.start := by
  induction comments generalizing line start with
  | nil => exact .inl rfl
  | cons comment comments ih =>
    rw [attachedStart]
    split
    · exact .inl rfl
    · next hstay =>
      simp only [not_or, Nat.not_le] at hstay
      right
      rcases ih (source.lineOf comment.start) comment.start with hstart | ⟨c, hc, hstart, hrest⟩
      · exact ⟨comment, List.mem_cons_self, hstart, hstay.1, hstay.2.1⟩
      · exact ⟨c, List.mem_cons_of_mem _ hc, hstart, hrest⟩

/-- A range ends with its statement or with a comment that is attached behind. -/
theorem attachedStop_cases (source : Source) (limit : Option Nat) (line stop : Nat)
    (comments : List Span) :
    source.attachedStop limit line stop comments = stop ∨
      ∃ c ∈ comments, source.attachedStop limit line stop comments = c.stop ∧
        source.lineOf c.start = line := by
  induction comments generalizing stop with
  | nil => exact .inl rfl
  | cons comment comments ih =>
    rw [attachedStop]
    split
    · exact .inl rfl
    · next hstay =>
      simp only [not_or, not_not] at hstay
      right
      rcases ih comment.stop with hstop | ⟨c, hc, hstop, hline⟩
      · exact ⟨comment, List.mem_cons_self, hstop, hstay.2⟩
      · exact ⟨c, List.mem_cons_of_mem _ hc, hstop, hline⟩

/-- The `#!` line of a well-formed source is its first comment. -/
theorem WellFormed.exists_hashbang? (h : source.WellFormed) :
    ∃ hashbang, source.hashbang? = .ok hashbang ∧
      ∀ c ∈ hashbang, c ∈ source.comments ∧ c.start = 0 ∧
        "#!".toList.isPrefixOf ((source.text.slice? c).getD []) = true := by
  unfold hashbang?
  split
  · exact ⟨none, rfl, by simp⟩
  · next comment comments hcomments =>
    split
    · next hzero =>
      have hmem : comment ∈ source.comments := by simp [hcomments]
      obtain ⟨c, part, hslice, -⟩ :=
        Text.holdsItem_iff.1 (h.holds_item comment (List.mem_append_right _ hmem))
      rw [slice, Text.slice_eq_ok_iff_slice?.2 hslice]
      refine ⟨_, rfl, fun d hd => ?_⟩
      split at hd
      · next hprefix =>
        obtain rfl := Option.mem_some_iff.1 hd
        exact ⟨hmem, hzero, by rw [hslice]; exact hprefix⟩
      · simp at hd
    · exact ⟨none, rfl, by simp⟩

/-- What is known of the offset where the range of a statement starts. -/
structure StartsRange (source : Source) (span : Span) (start : Nat) : Prop where
  /-- The range starts with its statement or above it. -/
  start_le : start ≤ span.start
  /-- The source can be cut where the range starts. -/
  clear_start : source.Clear start
  /-- The range starts with an item, which is a comment only below the line of every statement in
  front. -/
  above : start = span.start ∨ ∃ c ∈ source.comments, start = c.start ∧
    source.hashbang? ≠ .ok (some c) ∧
    ∀ s ∈ source.spans, s.stop ≤ span.start → source.lineOf s.stop < source.lineOf c.start
  /-- The range starts behind every statement in front. -/
  stop_le_start : ∀ s ∈ source.spans, s.stop ≤ span.start → s.stop ≤ start

/-- What is known of the offset where the range of a statement ends. -/
structure EndsRange (source : Source) (span : Span) (stop : Nat) : Prop where
  /-- The range ends with its statement or behind it. -/
  le_stop : span.stop ≤ stop
  /-- The source can be cut where the range ends. -/
  clear_stop : source.Clear stop
  /-- The range ends with an item, which is a comment only on the last line of the statement. -/
  below : stop = span.stop ∨ ∃ c ∈ source.comments, stop = c.stop ∧
    source.lineOf c.start = source.lineOf span.stop
  /-- The range ends in front of every statement behind. -/
  stop_le : ∀ s ∈ source.spans, span.stop ≤ s.start → stop ≤ s.start

/-- What is known of the range of a statement. -/
structure Attached (source : Source) (span : Span) (range : AttachedRange) : Prop
    extends source.StartsRange span range.full.start, source.EndsRange span range.bare.stop where
  /-- Both ranges start at one offset. -/
  start_eq : range.bare.start = range.full.start
  /-- The blanks behind the range and one line terminator belong to the full range. -/
  tail : ∃ front blanks terminator rest, source.text = front ++ (blanks ++ terminator) ++ rest ∧
    Text.byteLength front = range.bare.stop ∧
    Text.byteLength front + Text.byteLength (blanks ++ terminator) = range.full.stop ∧
    (∀ c ∈ blanks, Character.isInlineBlank c = true) ∧
    (∀ c ∈ terminator, Character.isLineBreak c = true) ∧
    (terminator = [] → ∀ c ∈ rest.head?, Character.isBlank c = false)

section Ends

variable {before behind : List Span} {span : Span}

theorem startsRange_attachedStart (h : source.WellFormed)
    (hs : source.spans = before ++ span :: behind) {hashbang : Option Span}
    (hhash : source.hashbang? = .ok hashbang) :
    source.StartsRange span (source.attachedStart hashbang
      ((source.statementBefore? span).elim 0 (source.lineOf ·.stop)) (source.lineOf span.start)
      span.start (source.commentsBefore span)) := by
  have hsolid := h.solid_span (x := span) (by simp [hs])
  have hspans := h.spans_ordered
  rw [hs, List.pairwise_append, List.pairwise_cons] at hspans
  rcases attachedStart_cases source hashbang
    ((source.statementBefore? span).elim 0 (source.lineOf ·.stop)) (source.lineOf span.start)
    span.start (source.commentsBefore span) with heq | ⟨c, hc, heq, hne, hline⟩
  · rw [heq]
    exact ⟨Nat.le_refl _, hsolid.clear_start h, .inl rfl, fun s _ hle => hle⟩
  · rw [heq]
    obtain ⟨hmem, hstop, hfront⟩ := of_mem_commentsBefore h hs hc
    have hroom := h.bounds_comment hmem
    -- the comment lies between two neighbouring statements
    have hout : ∀ s ∈ source.spans, c.Apart s :=
      apart_of_between hs hfront (.inl hstop) fun s hs' => by
        have := hspans.2.1.1 s hs'
        have := h.bounds hsolid.mem
        omega
    refine ⟨by omega, (h.solid_comment hmem hout).clear_start h, .inr ⟨c, hmem, rfl, ?_, ?_⟩, ?_⟩
    · rw [hhash]
      exact fun heq => hne (Except.ok.inj heq).symm
    · exact fun s hs' hle => (lineOf_stop_le h hs (mem_before h hs hs' hle)).trans_lt hline
    · exact fun s hs' hle => hfront s (mem_before h hs hs' hle)

theorem endsRange_attachedStop (h : source.WellFormed)
    (hs : source.spans = before ++ span :: behind) :
    source.EndsRange span (source.attachedStop
      ((source.statementAfter? span).map (source.lineOf ·.start)) (source.lineOf span.stop)
      span.stop (source.commentsAfter span)) := by
  have hsolid := h.solid_span (x := span) (by simp [hs])
  have hspans := h.spans_ordered
  rw [hs, List.pairwise_append, List.pairwise_cons] at hspans
  rcases attachedStop_cases source
    ((source.statementAfter? span).map (source.lineOf ·.start)) (source.lineOf span.stop)
    span.stop (source.commentsAfter span) with heq | ⟨c, hc, heq, hline⟩
  · rw [heq]
    exact ⟨Nat.le_refl _, hsolid.clear_stop h, .inl rfl, fun s _ hle => hle⟩
  · rw [heq]
    obtain ⟨hmem, hstart, hback⟩ := of_mem_commentsAfter h hs hc
    have hroom := h.bounds_comment hmem
    -- the comment lies between two neighbouring statements
    have hout : ∀ s ∈ source.spans, c.Apart s :=
      apart_of_between hs (fun s hs' => by
        have := hspans.2.2 s hs' span (by simp)
        have := h.bounds hsolid.mem
        omega) (.inr hstart) hback
    refine ⟨by omega, (h.solid_comment hmem hout).clear_stop h, .inr ⟨c, hmem, rfl, hline⟩, ?_⟩
    exact fun s hs' hle => hback s (mem_behind h hs hs' hle)

end Ends

/-- A text falls into blanks, a line terminator and a rest. -/
theorem exists_blanks (text : Text) :
    ∃ terminator rest, text = text.takeWhile Character.isInlineBlank ++ terminator ++ rest ∧
      Text.byteLength terminator =
        Text.lineBreakLength (text.dropWhile Character.isInlineBlank) ∧
      (∀ c ∈ terminator, Character.isLineBreak c = true) ∧
      (terminator = [] → ∀ c ∈ rest.head?, Character.isBlank c = false) := by
  obtain ⟨terminator, rest, hsplit, hlength, hbreak, hend⟩ :=
    Text.exists_lineBreak (text.dropWhile Character.isInlineBlank)
  refine ⟨terminator, rest, ?_, hlength, hbreak, fun hnil c hc => ?_⟩
  · rw [List.append_assoc, ← hsplit, List.takeWhile_append_dropWhile]
  · -- what stops the blanks is not one of them, and not a line break either
    have hhead := List.head?_dropWhile_not Character.isInlineBlank text
    rw [hsplit, hnil, List.nil_append, Option.mem_def.1 hc] at hhead
    have hnobreak := hend hnil c hc
    simpa [Character.isInlineBlank, hnobreak] using hhead

namespace WellFormed

theorem exists_attached (h : source.WellFormed) {span : Span} (hspan : span ∈ source.spans) :
    ∃ range, source.attachedRange span = .ok range ∧ source.Attached span range := by
  obtain ⟨before, behind, hs⟩ := List.append_of_mem hspan
  obtain ⟨hashbang, hhash, -⟩ := h.exists_hashbang?
  have hstart := startsRange_attachedStart h hs hhash
  have hstop := endsRange_attachedStop h hs
  obtain ⟨front, rest, htext, hfront⟩ := hstop.clear_stop.boundary
  obtain ⟨terminator, tail, hrest, hlength, hbreak, hend⟩ := exists_blanks rest
  have hslice := Text.sliceFrom_eq_ok_iff.2 ⟨front, htext, hfront⟩
  simp only [attachedRange, hhash, bind, Except.bind, hslice]
  refine ⟨_, rfl, ⟨hstart, hstop, rfl, front, rest.takeWhile Character.isInlineBlank, terminator,
    tail, ?_, hfront, ?_, List.all_eq_true.1 List.all_takeWhile, hbreak, hend⟩⟩
  · rw [htext]
    nth_rewrite 1 [hrest]
    rw [List.append_assoc front]
  · rw [Text.byteLength_append, hlength, hfront, ← Nat.add_assoc]

end WellFormed

namespace Attached

variable {span : Span} {range : AttachedRange}

/-- What belongs to the full range only is blank. -/
theorem exists_tail (ha : source.Attached span range) :
    ∃ front blanks rest, source.text = front ++ blanks ++ rest ∧
      Text.byteLength front = range.bare.stop ∧
      Text.byteLength front + Text.byteLength blanks = range.full.stop ∧
      ∀ c ∈ blanks, Character.isBlank c = true := by
  obtain ⟨front, blanks, terminator, rest, htext, hfront, hstop, hblank, hbreak, -⟩ := ha.tail
  refine ⟨front, blanks ++ terminator, rest, htext, hfront, hstop, fun c hc => ?_⟩
  rcases List.mem_append.1 hc with hc | hc
  · exact Character.isBlank_of_isInlineBlank (hblank c hc)
  · exact Character.isBlank_of_isLineBreak (hbreak c hc)

theorem bare_stop_le (ha : source.Attached span range) : range.bare.stop ≤ range.full.stop := by
  obtain ⟨front, blanks, rest, -, hfront, hstop, -⟩ := ha.exists_tail
  omega

theorem clear_full_stop (h : source.WellFormed) (ha : source.Attached span range) :
    source.Clear range.full.stop := by
  obtain ⟨front, blanks, rest, htext, hfront, hstop, hblank⟩ := ha.exists_tail
  rw [← hstop]
  exact Clear.append_blank h htext (hfront ▸ ha.clear_stop) hblank

/-- An item behind the range is behind the full range. -/
theorem full_stop_le (h : source.WellFormed) (ha : source.Attached span range) {x : Span}
    (hx : x ∈ source.items) (hle : range.bare.stop ≤ x.start) : range.full.stop ≤ x.start := by
  obtain ⟨front, blanks, rest, htext, hfront, hstop, hblank⟩ := ha.exists_tail
  rw [← hstop]
  exact h.add_le_start htext hblank hx (by omega)

theorem exists_item (hspan : span ∈ source.spans) (ha : source.Attached span range) :
    ∃ x ∈ source.items, x.start = range.full.start := by
  rcases ha.above with heq | ⟨c, hc, heq, -⟩
  · exact ⟨span, List.mem_append_left _ hspan, heq.symm⟩
  · exact ⟨c, List.mem_append_right _ hc, heq.symm⟩

/-- The ranges of two statements do not overlap, as the comments above the second start on a later
line than those behind the first. -/
theorem full_stop_le_full_start (h : source.WellFormed) {span' : Span} {range' : AttachedRange}
    (hspan : span ∈ source.spans) (hspan' : span' ∈ source.spans)
    (ha : source.Attached span range) (ha' : source.Attached span' range')
    (hle : span.stop ≤ span'.start) : range.full.stop ≤ range'.full.start := by
  have hbare : range.bare.stop ≤ range'.full.start := by
    rcases ha.below with heq | ⟨c, hc, heq, hline⟩
    · exact heq ▸ ha'.stop_le_start span hspan hle
    · rcases ha'.above with heq' | ⟨d, hd, heq', -, hline'⟩
      · exact heq' ▸ ha.stop_le span' hspan' hle
      · have hlt : source.lineOf c.start < source.lineOf d.start := hline ▸ hline' span hspan hle
        have hstart : c.start < d.start := by
          apply Nat.lt_of_not_le
          intro hdc
          exact absurd (source.text.lineOf_mono hdc) (Nat.not_le.2 hlt)
        have hd' := h.bounds_comment hd
        have hcd := h.comments_apart hc hd fun heq => by rw [heq] at hstart; omega
        rcases hcd with hcd | hcd <;> omega
  obtain ⟨x, hx, hstart⟩ := ha'.exists_item hspan'
  exact hstart ▸ ha.full_stop_le h hx (hstart ▸ hbare)

end Attached

/-- The range of a statement of a well-formed source. -/
def rangeOf (source : Source) (span : Span) : AttachedRange :=
  match source.attachedRange span with
  | .ok range => range
  | .error _ => ⟨span, span⟩

namespace WellFormed

theorem attachedRange_eq (h : source.WellFormed) {span : Span} (hspan : span ∈ source.spans) :
    source.attachedRange span = .ok (source.rangeOf span) := by
  obtain ⟨range, hrange, -⟩ := h.exists_attached hspan
  rw [rangeOf, hrange]

/-- The range of every statement is known. -/
theorem attached (h : source.WellFormed) {span : Span} (hspan : span ∈ source.spans) :
    source.Attached span (source.rangeOf span) := by
  obtain ⟨range, hrange, ha⟩ := h.exists_attached hspan
  rw [rangeOf, hrange]
  exact ha

end WellFormed

/-- A clear offset that lies between the ranges of the statements. -/
structure Between (source : Source) (n : Nat) : Prop extends source.Clear n where
  /-- Every range lies before or behind the offset. -/
  ranges : ∀ s ∈ source.spans, (source.rangeOf s).full.stop ≤ n ∨ n ≤ (source.rangeOf s).full.start

namespace WellFormed

/-- The ranges of different statements lie apart. -/
theorem ranges_apart (h : source.WellFormed) {s t : Span} (hs : s ∈ source.spans)
    (ht : t ∈ source.spans) (hne : s ≠ t) :
    (source.rangeOf s).full.Apart (source.rangeOf t).full := by
  rcases h.spans_apart hs ht hne with hle | hle
  · exact .inl ((h.attached hs).full_stop_le_full_start h hs ht (h.attached ht) hle)
  · exact .inr ((h.attached ht).full_stop_le_full_start h ht hs (h.attached hs) hle)

theorem full_start_lt (h : source.WellFormed) {s : Span} (hs : s ∈ source.spans) :
    (source.rangeOf s).full.start < (source.rangeOf s).full.stop := by
  have ha := h.attached hs
  have := ha.start_le
  have := ha.le_stop
  have := ha.bare_stop_le
  have := h.bounds_span hs
  omega

theorem between_full_start (h : source.WellFormed) {s : Span} (hs : s ∈ source.spans) :
    source.Between (source.rangeOf s).full.start where
  toClear := (h.attached hs).clear_start
  ranges t ht := by
    by_cases hne : t = s
    · exact .inr (hne ▸ Nat.le_refl _)
    · have := h.full_start_lt hs
      rcases h.ranges_apart ht hs hne with hle | hle
      · exact .inl hle
      · exact .inr (by omega)

theorem between_full_stop (h : source.WellFormed) {s : Span} (hs : s ∈ source.spans) :
    source.Between (source.rangeOf s).full.stop where
  toClear := (h.attached hs).clear_full_stop h
  ranges t ht := by
    by_cases hne : t = s
    · exact .inl (hne ▸ Nat.le_refl _)
    · have := h.full_start_lt hs
      rcases h.ranges_apart ht hs hne with hle | hle
      · exact .inl (by omega)
      · exact .inr hle

end WellFormed

/-! ## The line of the interpreter -/

/-- No statement covers the leading `#!` line. -/
def HashbangApart (source : Source) : Prop :=
  ∀ c, source.hashbang? = .ok (some c) → ∀ s ∈ source.spans, c.Apart s

/-- No statement starts with a comment that begins with `#!`. -/
def HashbangOutside (source : Source) : Prop :=
  ∀ s ∈ source.spans, ∀ c ∈ source.comments, c.start = s.start →
    "#!".toList.isPrefixOf ((source.text.slice? c).getD []) = false

instance (source : Source) : Decidable source.HashbangOutside :=
  inferInstanceAs (Decidable (∀ s ∈ source.spans, ∀ c ∈ source.comments, c.start = s.start →
    "#!".toList.isPrefixOf ((source.text.slice? c).getD []) = false))

/-- The offset past the `#!` line, or the start of the text if there is none. -/
def top (source : Source) : Checked Nat := do
  match ← source.hashbang? with
  | some hashbang => source.afterLineBreak hashbang.stop
  | none => return 0

/-- A `#!` line that no statement starts with lies outside of all statements. -/
theorem WellFormed.hashbangApart (h : source.WellFormed) (hh : source.HashbangOutside) :
    source.HashbangApart := by
  intro c hc s hs
  obtain ⟨hashbang, hhash, hcomment⟩ := h.exists_hashbang?
  rw [hhash, Except.ok.injEq] at hc
  obtain ⟨hmem, hzero, hprefix⟩ := hcomment c hc
  rcases h.comment_placed c hmem s hs with hin | hap
  · -- a statement around the line starts with it
    have hstart := hin.1
    rw [hh s hs c hmem (by omega)] at hprefix
    exact absurd hprefix Bool.false_ne_true
  · exact hap

/-- Whether a statement starts with a `#!` comment shows in the piece where it stands. -/
theorem hashbangOutside_append {a b : Source} (ha : a.WellFormed) :
    (a ++ b).HashbangOutside ↔ a.HashbangOutside ∧ b.HashbangOutside := by
  have hleft : ∀ c ∈ a.comments, (a ++ b).text.slice? c = a.text.slice? c := by
    intro c hc
    obtain ⟨_, _, hslice, -⟩ := Text.holdsItem_iff.1 (ha.holds_item c (List.mem_append_right _ hc))
    rw [hslice]
    exact Text.slice?_append_left hslice b.text
  have hright : ∀ c : Span, (a ++ b).text.slice? (c.shift a.size) = b.text.slice? c := fun c =>
    Text.slice?_append_shift a.text b.text c.start c.stop
  simp only [HashbangOutside, spans_append, comments_append, List.mem_append, List.mem_map]
  constructor
  · intro h
    refine ⟨fun s hs c hc heq => ?_, fun s hs c hc heq => ?_⟩
    · rw [← hleft c hc]
      exact h s (.inl hs) c (.inl hc) heq
    · rw [← hright c]
      exact h _ (.inr ⟨s, hs, rfl⟩) _ (.inr ⟨c, hc, rfl⟩) (by simpa using heq)
  · rintro ⟨h, h'⟩ s (hs | ⟨s, hs, rfl⟩) c (hc | ⟨c, hc, rfl⟩) heq
    · rw [hleft c hc]
      exact h s hs c hc heq
    · have := ha.bounds_span hs
      simp only [Span.shift_start] at heq
      omega
    · have := ha.bounds_comment hc
      simp only [Span.shift_start] at heq
      omega
    · rw [hright c]
      exact h' s hs c hc (by simpa using heq)

/-- The source can be cut behind the `#!` line, and every range starts behind it. -/
theorem WellFormed.exists_top (h : source.WellFormed) (hh : source.HashbangApart) :
    ∃ n, source.top = .ok n ∧ source.Clear n ∧
      ∀ s ∈ source.spans, n ≤ (source.rangeOf s).full.start := by
  obtain ⟨hashbang, hhash, hcomment⟩ := h.exists_hashbang?
  cases hashbang with
  | none =>
    refine ⟨0, by rw [top, hhash]; rfl, ⟨⟨[], source.text, rfl, rfl⟩, fun s _ => ?_⟩, fun s _ => ?_⟩
    · exact .inr (Nat.zero_le _)
    · exact Nat.zero_le _
  | some c =>
    obtain ⟨hmem, hzero, -⟩ := hcomment c rfl
    have hclear := (h.solid_comment hmem (hh c hhash)).clear_stop h
    obtain ⟨front, rest, htext, hfront⟩ := hclear.boundary
    obtain ⟨terminator, tail, hrest, hlength, hbreak, -⟩ := Text.exists_lineBreak rest
    have htext' : source.text = front ++ terminator ++ tail := by
      rw [htext, hrest, List.append_assoc]
    have hblank : ∀ d ∈ terminator, Character.isBlank d = true := fun d hd =>
      Character.isBlank_of_isLineBreak (hbreak d hd)
    refine ⟨c.stop + rest.lineBreakLength, ?_, ?_, fun s hs => ?_⟩
    · have hslice := Text.sliceFrom_eq_ok_iff.2 ⟨front, htext, hfront⟩
      simp only [top, hhash, afterLineBreak, bind, Except.bind, hslice]
      rfl
    · rw [← hfront, ← hlength]
      exact Clear.append_blank h htext' (hfront ▸ hclear) hblank
    · -- a range starts with an item other than the `#!` line
      have ha := h.attached hs
      have hroom := h.bounds_span hs
      rw [← hfront, ← hlength]
      rcases ha.above with heq | ⟨d, hd, heq, hne, -⟩
      · rw [heq]
        refine h.add_le_start htext' hblank (List.mem_append_left _ hs) ?_
        rcases hh c hhash s hs with hap | hap <;> omega
      · rw [heq]
        refine h.add_le_start htext' hblank (List.mem_append_right _ hd) ?_
        have hcd := h.comments_apart hmem hd fun heq => hne (heq ▸ hhash)
        have := h.bounds_comment hd
        rcases hcd with hap | hap <;> omega

end Source

end ImportOrder
