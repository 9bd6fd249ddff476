import ImportOrder.Proofs.Text.Edits
import ImportOrder.Proofs.Text.Lines
import ImportOrder.Proofs.Text.Probe
import ImportOrder.Rule.ImportNewlines
import Mathlib.Data.List.Nodup

/-!
# Lines and ranges by offsets

The remaining searches of the checker, made with an offset that moves through the text: the blanks
behind a statement one by one, the line of an offset by a search among the starts of lines, and the
line terminator in use by a cut at the first line feed. Each is the same function as the one that
the rules are defined with.

## Main definitions

- `Text.skipBlanksFrom`, `Source.lineTailFrom`: the end of a line behind a statement
- `Text.lineStarts`, `Text.lineIndex`: the search for a line
- `Source.lineBreakFrom`: the line terminator in use

## Main statements

- `Source.attachedRange_eq_lineTailFrom`, `Text.lineIndex_eq`, `Source.lineBreakFrom_eq`
-/

namespace ImportOrder

open Character

namespace Text

variable {text : Text}

/-! ## The end of a line -/

/-- The offset of what follows the blanks on a line. -/
def skipBlanksFrom (text : Text) (pos : Nat) : Checked Nat :=
  match _h : text.sliceFrom pos with
  | .error cut => .error cut
  | .ok [] => .ok pos
  | .ok (c :: _) => if isInlineBlank c then skipBlanksFrom text (pos + c.utf8Size) else .ok pos
termination_by text.byteLength - pos
decreasing_by
  obtain ⟨front, rfl, rfl⟩ := sliceFrom_eq_ok_iff.1 _h
  have := c.utf8Size_pos
  simp only [byteLength_append, byteLength_cons]
  omega

theorem sliceFrom_advance {a b : Text} {pos : Nat} (h : text.sliceFrom pos = .ok (a ++ b)) :
    text.sliceFrom (pos + byteLength a) = .ok b := by
  obtain ⟨front, rfl, rfl⟩ := sliceFrom_eq_ok_iff.1 h
  exact sliceFrom_eq_ok_iff.2 ⟨front ++ a, by simp, by simp⟩

theorem skipBlanksFrom_eq {rest : Text} {pos : Nat} (h : text.sliceFrom pos = .ok rest) :
    text.skipBlanksFrom pos = .ok (pos + byteLength (rest.takeWhile isInlineBlank)) := by
  fun_induction skipBlanksFrom text pos generalizing rest with
  | case1 pos cut hcut => exact absurd (h.symm.trans hcut) nofun
  | case2 pos hnil =>
    obtain rfl := Except.ok.inj (h.symm.trans hnil)
    rfl
  | case3 pos c rest hcons hblank ih =>
    obtain rfl := Except.ok.inj (h.symm.trans hcons)
    rw [ih (@sliceFrom_advance text [c] _ _ h), List.takeWhile_cons_of_pos hblank, byteLength_cons,
      Nat.add_assoc]
  | case4 pos c rest hcons hblank =>
    obtain rfl := Except.ok.inj (h.symm.trans hcons)
    rw [List.takeWhile_cons_of_neg hblank]
    rfl

theorem skipBlanksFrom_of_error {pos : Nat} {cut : BadSlice} (h : text.sliceFrom pos = .error cut) :
    text.skipBlanksFrom pos = .error cut := by
  fun_cases skipBlanksFrom text pos <;> simp_all

/-! ## The line of an offset -/

/-- The offsets at which lines start. -/
def lineStarts (text : Text) : List Nat := 0 :: text.lineEnds

/-- The index of the line of an offset, counted from zero. The search finds the offset itself, or
else the place at which it would have to be inserted, and that is one too far. -/
def lineIndex (text : Text) (offset : Nat) : Checked Nat :=
  let place := text.lineStarts.countP (· < offset)
  if offset ∈ text.lineStarts then .ok place else lengthBetween 1 place

theorem pairwise_lineEndsFrom (n : Nat) (text : Text) :
    (lineEndsFrom n text).Pairwise (· < ·) := by
  fun_induction lineEndsFrom n text with
  | case1 => exact List.Pairwise.nil
  | case2 n text ih =>
    exact List.pairwise_cons.2 ⟨fun k hk => (bounds_of_mem_lineEndsFrom hk).1, ih⟩
  | case3 n c text hpair hc ih =>
    exact List.pairwise_cons.2 ⟨fun k hk => (bounds_of_mem_lineEndsFrom hk).1, ih⟩
  | case4 n c text hpair hc ih => exact ih

theorem pairwise_lineStarts (text : Text) : text.lineStarts.Pairwise (· < ·) :=
  List.pairwise_cons.2 ⟨fun _ hk => (bounds_of_mem_lineEnds hk).1, pairwise_lineEndsFrom 0 text⟩

theorem countP_le_eq (l : List Nat) (n : Nat) :
    l.countP (· ≤ n) = l.countP (· < n) + l.count n := by
  induction l with
  | nil => rfl
  | cons k l ih =>
    rw [List.countP_cons, List.countP_cons, List.count_cons, ih]
    rcases Nat.lt_trichotomy k n with hk | hk | hk
    · simp [hk, Nat.le_of_lt hk, Nat.ne_of_lt hk]
      omega
    · simp [hk]
      omega
    · simp [Nat.not_le_of_lt hk, Nat.lt_asymm hk, Nat.ne_of_gt hk]

/-- The search for a line never goes before the first one, and it finds the line of the offset. -/
theorem lineIndex_eq (text : Text) (offset : Nat) :
    text.lineIndex offset = .ok (text.lineOf offset - 1) := by
  have hcount : text.lineStarts.countP (· ≤ offset) = text.lineOf offset := by
    simp [lineStarts, lineOf]
  rw [countP_le_eq] at hcount
  rw [lineIndex]
  by_cases hmem : offset ∈ text.lineStarts
  · have hone : text.lineStarts.count offset = 1 :=
      List.count_eq_one_of_mem ((pairwise_lineStarts text).imp Nat.ne_of_lt) hmem
    rw [if_pos hmem]
    exact congrArg Except.ok (by omega)
  · have hzero : text.lineStarts.count offset = 0 := List.count_eq_zero.2 hmem
    have hpos : 1 ≤ text.lineOf offset := Nat.le_add_left ..
    rw [if_neg hmem, lengthBetween, if_pos (by omega)]
    exact congrArg Except.ok (by omega)

theorem getElem?_countP {l : List Nat} (h : l.Pairwise (· < ·)) (first n : Nat) :
    (first :: l)[l.countP (· ≤ n)]? = some ((l.filter (· ≤ n)).getLastD first) := by
  induction l generalizing first with
  | nil => rfl
  | cons k l ih =>
    obtain ⟨hk, hl⟩ := List.pairwise_cons.1 h
    by_cases hkn : k ≤ n
    · rw [List.countP_cons_of_pos (by simpa using hkn),
        List.filter_cons_of_pos (by simpa using hkn), List.getElem?_cons_succ, ih hl,
        List.getLastD_cons]
    · -- all that follow are larger still
      have hlarge : ∀ m ∈ k :: l, ¬ m ≤ n := by
        intro m hm
        rcases List.mem_cons.1 hm with rfl | hm
        · exact hkn
        · have := hk m hm
          omega
      rw [List.countP_eq_zero.2 (by simpa using hlarge),
        List.filter_eq_nil_iff.2 (by simpa using hlarge)]
      rfl

/-- The index that is found is that of the start of the line. -/
theorem getElem?_lineStarts (text : Text) (offset : Nat) :
    text.lineStarts[text.lineOf offset - 1]? = some (text.lineStart offset) :=
  getElem?_countP (pairwise_lineEndsFrom 0 text) 0 offset

end Text

namespace Source

variable {source : Source}

/-- The end of the line behind an offset: past the blanks and one line terminator. -/
def lineTailFrom (source : Source) (stop : Nat) : Checked Nat := do
  let blank ← source.text.skipBlanksFrom stop
  source.afterLineBreak blank

theorem lineTailFrom_eq (source : Source) (stop : Nat) :
    source.lineTailFrom stop = (fun rest : Text => stop +
      Text.byteLength (rest.takeWhile isInlineBlank) +
        Text.lineBreakLength (rest.dropWhile isInlineBlank)) <$> source.text.sliceFrom stop := by
  rw [lineTailFrom]
  cases h : source.text.sliceFrom stop with
  | error cut => rw [Text.skipBlanksFrom_of_error h]; rfl
  | ok rest =>
    have hafter : source.text.sliceFrom (stop + Text.byteLength (rest.takeWhile isInlineBlank)) =
        .ok (rest.dropWhile isInlineBlank) := by
      refine Text.sliceFrom_advance (h.trans (congrArg Except.ok ?_))
      exact List.takeWhile_append_dropWhile.symm
    rw [Text.skipBlanksFrom_eq h, Checked.ok_bind, afterLineBreak, hafter]
    rfl

/-- The range of a statement, its end found by offsets. -/
theorem attachedRange_eq_lineTailFrom (source : Source) (span : Span) :
    source.attachedRange span = do
      let hashbang ← source.hashbang?
      let start := source.attachedStart hashbang
        ((source.statementBefore? span).elim 0 (source.lineOf ·.stop)) (source.lineOf span.start)
        span.start (source.commentsBefore span)
      let stop := source.attachedStop ((source.statementAfter? span).map (source.lineOf ·.start))
        (source.lineOf span.stop) span.stop (source.commentsAfter span)
      let full ← source.lineTailFrom stop
      return ⟨⟨start, full⟩, ⟨start, stop⟩⟩ := by
  simp only [attachedRange, lineTailFrom_eq, bind_map_left]

/-! ## The line terminator in use -/

/-- Does a carriage return stand before the first line feed of a text? -/
def feedFollowsReturn (sample : Text) : Checked Bool :=
  match Text.findChar? (· == '\n') sample with
  | none => .ok false
  | some n => do
    let before ← Text.slice sample ⟨0, n⟩
    return before.getLast? == some '\r'

/-- The line terminator in use, found by a cut at the first line feed. -/
def lineBreakFrom (source : Source) (gap : Span) : Checked Text := do
  let inGap ← source.slice gap
  let pair ← feedFollowsReturn (if inGap.contains '\n' then inGap else source.text)
  return if pair then ['\r', '\n'] else ['\n']

theorem firstBreakIsPair_of_notMem {sample : Text} (h : '\n' ∉ sample) :
    firstBreakIsPair sample = false := by
  fun_induction firstBreakIsPair sample <;> simp_all

theorem firstBreakIsPair_append {front : Text} (h : '\n' ∉ front) (rest : Text) :
    firstBreakIsPair (front ++ '\n' :: rest) = (front.getLast? == some '\r') := by
  induction front with
  | nil => simp [firstBreakIsPair]
  | cons c front ih =>
    rw [List.mem_cons, not_or] at h
    cases front with
    | nil =>
      by_cases hc : c = '\r'
      · simp [hc, firstBreakIsPair]
      · rw [List.cons_append, firstBreakIsPair, if_neg (Ne.symm h.1), ih h.2]
        · simp [hc]
        · exact fun _ hreturn => absurd hreturn hc
    | cons d front =>
      have hd : d ≠ '\n' := fun hd => h.2 (hd ▸ List.mem_cons_self)
      rw [List.cons_append, firstBreakIsPair, if_neg (Ne.symm h.1), ih h.2]
      · simp
      · exact fun _ _ heq => hd (List.cons.inj heq).1

/-- The cut at the first line feed is made between characters. -/
theorem feedFollowsReturn_eq (sample : Text) :
    feedFollowsReturn sample = .ok (firstBreakIsPair sample) := by
  rw [feedFollowsReturn]
  rcases Text.findChar?_cases (· == '\n') sample with
    ⟨hfind, hnone⟩ | ⟨front, c, rest, rfl, hfront, hc, hfind⟩
  · have hfeed : '\n' ∉ sample := fun hmem => absurd (hnone _ hmem) (by decide)
    rw [hfind, firstBreakIsPair_of_notMem hfeed]
  · obtain rfl : c = '\n' := by simpa using hc
    have hfeed : '\n' ∉ front := fun hmem => absurd (hfront _ hmem) (by decide)
    have hcut := Text.slice_append [] front ('\n' :: rest)
    rw [Text.byteLength_nil, Nat.zero_add, List.nil_append] at hcut
    rw [hfind, firstBreakIsPair_append hfeed]
    simp only [hcut, Checked.ok_bind]
    rfl

theorem lineBreakFrom_eq (source : Source) (gap : Span) :
    source.lineBreakFrom gap = source.lineBreak gap := by
  simp only [lineBreakFrom, lineBreak, feedFollowsReturn_eq, Checked.ok_bind]

end Source

end ImportOrder
