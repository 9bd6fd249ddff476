import ImportOrder.Proofs.Order.StableSort
import ImportOrder.Proofs.Splicing

/-!
# Merging the edits of a fix

The edits of a fix merge into one unless two of them overlap. The one edit reaches from the smallest
start to the largest end, and it makes of the text what all of them make of it one at a time, the
last of them first. Of edits in order it is enough to look at neighbours to find two that overlap:
if each starts where the one in front of it ends or behind, so do all later ones.

A relocation is such a fix. It merges unless it moves a text into itself, and it exchanges the moved
text with the text between the two places.

## Main definitions

- `Edit.Overlaps`: edits that cannot be made together
- `Fix.HasExtent`: the span from the smallest start to the largest end
- `Text.Relocated`: a text with a part moved elsewhere

## Main statements

- `Fix.separated_of_splice`, `Fix.exists_splice_of_separated`: a run over the edits in order
- `Fix.merged_eq_none_iff`: which fixes do not merge
- `Fix.exists_relocation_merged`: what a relocation does
- `Fix.merged_splices_edits`
-/

namespace ImportOrder

namespace Edit

variable {e f : Edit} {edits : List Edit}

/-- The edit starts strictly inside the span of another. -/
def StartsInside (e f : Edit) : Prop :=
  f.span.start < e.span.start ∧ e.span.start < f.span.stop

/-- One of the edits starts strictly inside the other, or both replace something at one start. -/
def Overlaps (e f : Edit) : Prop :=
  e.StartsInside f ∨ f.StartsInside e ∨
    (e.span.start = f.span.start ∧ e.span.start < e.span.stop ∧ f.span.start < f.span.stop)

theorem Overlaps.symm (h : e.Overlaps f) : f.Overlaps e := by
  unfold Overlaps StartsInside at *
  omega

/-- Of two edits in order the second one starts too early if they overlap. -/
theorem overlaps_iff_of_precedes (h : e.precedes f = true) :
    e.Overlaps f ↔ f.span.start < e.span.stop := by
  rw [precedes_iff] at h
  unfold Overlaps StartsInside
  omega

/-- Edits of which no two overlap follow each other when they are put in order. -/
theorem separated_mergeSort_iff :
    ((edits.mergeSort precedes).Pairwise fun e f => e.span.stop ≤ f.span.start) ↔
      edits.Pairwise fun e f => ¬ e.Overlaps f := by
  have hperm := (List.mergeSort_perm edits precedes).pairwise_iff
    (R := fun e f => ¬ e.Overlaps f) fun h h' => h h'.symm
  rw [← hperm]
  constructor
  · intro h
    refine ((pairwise_mergeSort edits).and h).imp ?_
    rintro e f ⟨hprecedes, hle⟩
    rw [overlaps_iff_of_precedes hprecedes]
    exact Nat.not_lt.2 hle
  · intro h
    refine ((pairwise_mergeSort edits).and h).imp ?_
    rintro e f ⟨hprecedes, hapart⟩
    rw [overlaps_iff_of_precedes hprecedes] at hapart
    exact Nat.not_lt.1 hapart

end Edit

namespace Text

/-- A text whose part at a span is moved to an offset outside of the span: the part is exchanged
with what stands between it and the offset, and nothing else changes. -/
inductive Relocated (range : Span) (offset : Nat) : Text → Text → Prop where
  /-- The part goes to the front, over `passed`. -/
  | toFront (front passed moved rest : Text) (hoffset : byteLength front = offset)
      (hstart : byteLength (front ++ passed) = range.start)
      (hstop : byteLength (front ++ passed ++ moved) = range.stop) :
      Relocated range offset (front ++ passed ++ moved ++ rest) (front ++ moved ++ passed ++ rest)
  /-- The part goes to the back, over `passed`. -/
  | toBack (front moved passed rest : Text) (hstart : byteLength front = range.start)
      (hstop : byteLength (front ++ moved) = range.stop)
      (hoffset : byteLength (front ++ moved ++ passed) = offset) :
      Relocated range offset (front ++ moved ++ passed ++ rest) (front ++ passed ++ moved ++ rest)

end Text

namespace Fix

variable {text : Text} {edits : List Edit} {fix : Fix}

/-- The span reaches from the smallest start of the edits to their largest end. -/
structure HasExtent (fix : Fix) (span : Span) : Prop where
  start_isLeast : IsLeast {n | ∃ edit ∈ fix.edits, edit.span.start = n} span.start
  stop_isGreatest : IsGreatest {n | ∃ edit ∈ fix.edits, edit.span.stop = n} span.stop

/-! ## Edits in order -/

/-- A run over edits that comes to its end has found each of them behind the one in front of it. -/
theorem separated_of_splice {stop cursor : Nat} {replacement : Text}
    (hroom : ∀ e ∈ edits, e.span.start ≤ e.span.stop)
    (h : splice text stop cursor edits = .ok (some replacement)) :
    (edits.Pairwise fun e f => e.span.stop ≤ f.span.start) ∧
      ∀ e ∈ edits, cursor ≤ e.span.start := by
  induction edits generalizing cursor replacement with
  | nil => exact ⟨.nil, by simp⟩
  | cons edit edits ih =>
    rw [List.forall_mem_cons] at hroom
    rw [splice] at h
    by_cases hlt : edit.span.start < cursor
    · rw [if_pos hlt] at h
      cases h
    · rw [if_neg hlt] at h
      obtain ⟨kept, -, h⟩ := Checked.bind_eq_ok.1 h
      obtain ⟨rest, hrest, h⟩ := Checked.bind_eq_ok.1 h
      obtain ⟨replaced, rfl, -⟩ := Option.map_eq_some_iff.1 (Except.ok.inj h)
      obtain ⟨hseparated, hbehind⟩ := ih hroom.2 hrest
      refine ⟨List.pairwise_cons.2 ⟨hbehind, hseparated⟩, List.forall_mem_cons.2 ⟨by omega, ?_⟩⟩
      intro e he
      have := hbehind e he
      omega

/-- A run over edits that follow each other replaces what they are about, and splicing them into the
whole text gives the same. -/
theorem exists_splice_of_separated {front middle back : Text} {stop : Nat}
    (htext : text = front ++ (middle ++ back)) (hend : Text.byteLength (front ++ middle) = stop)
    (hspans : ∀ e ∈ edits, text.HasSpan e.span)
    (hseparated : edits.Pairwise fun e f => e.span.stop ≤ f.span.start)
    (hstart : ∀ e ∈ edits, Text.byteLength front ≤ e.span.start)
    (hstop : ∀ e ∈ edits, e.span.stop ≤ stop) :
    ∃ replacement, splice text stop (Text.byteLength front) edits = .ok (some replacement) ∧
      text.splicedAll edits = .ok (front ++ replacement ++ back) := by
  induction edits generalizing front middle with
  | nil =>
    refine ⟨middle, ?_, by rw [htext, ← List.append_assoc]; rfl⟩
    have hmiddle : text.slice ⟨Text.byteLength front, stop⟩ = .ok middle :=
      Text.slice_eq_ok_iff.2 ⟨front, back, by rw [htext]; simp, rfl, by rw [← hend]; simp⟩
    rw [splice, hmiddle]
    rfl
  | cons edit edits ih =>
    rw [List.forall_mem_cons] at hspans hstart hstop
    rw [List.pairwise_cons] at hseparated
    obtain ⟨kept, old, rest, hrest, hedit, hedit'⟩ :=
      Text.exists_append_of_hasSpan hspans.1 htext hstart.1
    -- the edit ends before the middle does, so that the rest of the middle is left
    have hle : Text.byteLength (kept ++ old) ≤ Text.byteLength middle := by
      simp only [Text.byteLength_append] at hedit' hend ⊢
      omega
    rw [← List.append_assoc] at hrest
    obtain ⟨left, rfl, rfl⟩ := Text.append_split hrest.symm hle
    obtain ⟨replacement, hsplice, hall⟩ := @ih (front ++ kept ++ old) left (by rw [htext]; simp)
      (by rw [← hend]; simp) hspans.2 hseparated.2 (by rw [hedit']; exact hseparated.1) hstop.2
    have hkept : text.slice ⟨Text.byteLength front, edit.span.start⟩ = .ok kept :=
      Text.slice_eq_ok_iff.2 ⟨front, old ++ left ++ back, by rw [htext]; simp, rfl,
        by rw [← hedit]; simp⟩
    refine ⟨kept ++ edit.text ++ replacement, ?_, ?_⟩
    · rw [hedit'] at hsplice
      rw [splice, if_neg (Nat.not_lt.2 hstart.1), hkept, Checked.ok_bind, hsplice]
      rfl
    · rw [Text.splicedAll_cons, hall, Checked.ok_bind, List.append_assoc _ replacement,
        Text.spliced_append hedit hedit']
      simp

/-! ## Merged fixes -/

theorem hasExtent_of_mergeSort {first : Edit}
    (hedits : fix.edits.mergeSort Edit.precedes = first :: edits) :
    fix.HasExtent ⟨first.span.start, furthest (first :: edits)⟩ := by
  have hmem : ∀ e, e ∈ first :: edits ↔ e ∈ fix.edits := fun e => by
    rw [← hedits, List.mem_mergeSort]
  have hsorted := Edit.pairwise_mergeSort fix.edits
  rw [hedits, List.pairwise_cons] at hsorted
  obtain ⟨last, hlast, hstop, hle⟩ := exists_furthest first edits
  refine ⟨⟨⟨first, (hmem first).1 List.mem_cons_self, rfl⟩, ?_⟩,
    ⟨⟨last, (hmem last).1 hlast, hstop.symm⟩, ?_⟩⟩
  · rintro n ⟨e, he, rfl⟩
    rcases List.mem_cons.1 ((hmem e).2 he) with rfl | he
    · exact Nat.le_refl _
    · have := Edit.precedes_iff.1 (hsorted.1 e he)
      show first.span.start ≤ e.span.start
      omega
  · rintro n ⟨e, he, rfl⟩
    exact hle e ((hmem e).2 he)

theorem HasExtent.hasSpan {span : Span} (hextent : fix.HasExtent span)
    (h : ∀ edit ∈ fix.edits, text.HasSpan edit.span) : text.HasSpan span := by
  obtain ⟨first, hfirst, hstart⟩ := hextent.start_isLeast.1
  obtain ⟨last, hlast, hstop⟩ := hextent.stop_isGreatest.1
  refine ⟨?_, hstart ▸ (h first hfirst).start_boundary, hstop ▸ (h last hlast).stop_boundary⟩
  calc span.start
    _ = first.span.start := hstart.symm
    _ ≤ first.span.stop := (h first hfirst).start_le_stop
    _ ≤ span.stop := hextent.stop_isGreatest.2 ⟨first, hfirst, rfl⟩

/-- Edits of which no two overlap merge into one that does their work. -/
theorem exists_merged_of_apart (h : ∀ edit ∈ fix.edits, text.HasSpan edit.span)
    (hne : fix.edits ≠ []) (hapart : fix.edits.Pairwise fun e f => ¬ e.Overlaps f) :
    ∃ edit output, fix.merged text = .ok (some edit) ∧ fix.HasExtent edit.span ∧
      text.spliced edit = .ok output ∧
      text.splicedAll (fix.edits.mergeSort Edit.precedes) = .ok output := by
  have hseparated := Edit.separated_mergeSort_iff.2 hapart
  cases hedits : fix.edits.mergeSort Edit.precedes with
  | nil =>
    have hperm := List.mergeSort_perm fix.edits Edit.precedes
    rw [hedits] at hperm
    exact absurd hperm.nil_eq.symm hne
  | cons first edits =>
    have hextent := hasExtent_of_mergeSort hedits
    have hmem : ∀ e ∈ first :: edits, e ∈ fix.edits := fun e he =>
      List.mem_mergeSort.1 (hedits ▸ he)
    -- the text in front of the edits, the text that they are about and the text behind them
    obtain ⟨middle, hmiddle⟩ := (hextent.hasSpan h).exists_slice
    obtain ⟨front, back, htext, hfront, hend⟩ := Text.slice_eq_ok_iff.1 hmiddle
    rw [← Text.byteLength_append] at hend
    obtain ⟨replacement, hsplice, hall⟩ := exists_splice_of_separated
      (htext.trans (List.append_assoc ..)) hend (fun e he => h e (hmem e he)) (hedits ▸ hseparated)
      (fun e he => hfront ▸ hextent.start_isLeast.2 ⟨e, hmem e he, rfl⟩)
      (fun e he => hextent.stop_isGreatest.2 ⟨e, hmem e he, rfl⟩)
    rw [hfront] at hsplice
    let edit : Edit := ⟨⟨first.span.start, furthest (first :: edits)⟩, replacement⟩
    refine ⟨edit, front ++ replacement ++ back, ?_, hextent, ?_, hall⟩
    · rw [merged, hedits]
      simp only [hsplice, Checked.ok_bind]
      rfl
    · rw [htext]
      exact @Text.spliced_append front edit middle hfront hend back

/-- If edits merge, there are some and no two overlap. -/
theorem apart_of_merged {edit : Edit} (h : ∀ edit ∈ fix.edits, text.HasSpan edit.span)
    (hmerged : fix.merged text = .ok (some edit)) :
    fix.edits ≠ [] ∧ fix.edits.Pairwise fun e f => ¬ e.Overlaps f := by
  rw [merged] at hmerged
  cases hedits : fix.edits.mergeSort Edit.precedes with
  | nil =>
    rw [hedits] at hmerged
    cases hmerged
  | cons first edits =>
    rw [hedits] at hmerged
    obtain ⟨replacement?, hsplice, hmerged⟩ := Checked.bind_eq_ok.1 hmerged
    obtain ⟨replacement, rfl, -⟩ := Option.map_eq_some_iff.1 (Except.ok.inj hmerged)
    rw [← hedits] at hsplice
    constructor
    · intro hnil
      rw [hnil, List.mergeSort_nil] at hedits
      cases hedits
    · apply Edit.separated_mergeSort_iff.1
      exact (separated_of_splice (fun e he => (h e (List.mem_mergeSort.1 he)).start_le_stop)
        hsplice).1

/-- The edits of a fix do not merge if there are none or two of them overlap. -/
theorem merged_eq_none_iff (h : ∀ edit ∈ fix.edits, text.HasSpan edit.span) :
    fix.merged text = .ok none ↔
      fix.edits = [] ∨ ¬ fix.edits.Pairwise fun e f => ¬ e.Overlaps f := by
  obtain ⟨edit?, hmerged, -⟩ := @exists_merged text fix 0 fun edit hedit =>
    ⟨(h edit hedit).fits, Nat.zero_le _⟩
  rw [hmerged]
  cases edit? with
  | none =>
    refine iff_of_true rfl ?_
    by_contra hmerges
    rw [not_or, not_not] at hmerges
    obtain ⟨edit, output, hsome, -⟩ := exists_merged_of_apart h hmerges.1 hmerges.2
    cases hmerged.symm.trans hsome
  | some edit =>
    refine iff_of_false (fun hnone => by cases hnone) ?_
    rw [not_or, not_not]
    exact apart_of_merged h hmerged

/-! ## Relocations -/

theorem splicedAll_pair {middle output : Text} {e f : Edit} (hf : text.spliced f = .ok middle)
    (he : middle.spliced e = .ok output) : text.splicedAll [e, f] = .ok output := by
  have hlast : text.splicedAll [f] = .ok middle := by
    rw [Text.splicedAll_cons]
    exact hf
  rw [Text.splicedAll_cons, hlast]
  exact he

/-- An inserted text stands between what is in front of the offset and what is behind it. -/
theorem spliced_insertAt (front moved rest : Text) :
    Text.spliced (front ++ rest) (Edit.insertAt (Text.byteLength front) moved) =
      .ok (front ++ moved ++ rest) := by
  have h := @Text.spliced_append front (Edit.insertAt (Text.byteLength front) moved) [] rfl
    (by rw [List.append_nil]; rfl) rest
  rw [List.append_nil] at h
  exact h

theorem spliced_remove {front moved : Text} {range : Span}
    (hstart : Text.byteLength front = range.start)
    (hstop : Text.byteLength (front ++ moved) = range.stop) (rest : Text) :
    Text.spliced (front ++ moved ++ rest) (Edit.remove range) = .ok (front ++ rest) := by
  have h := @Text.spliced_append front (Edit.remove range) moved hstart hstop rest
  rw [Edit.remove, List.append_nil] at h
  exact h

/-- The edits of a relocation that does not go inside its own range, made in order. -/
theorem exists_relocated {range : Span} {offset : Nat} {moved : Text}
    (hrange : text.HasSpan range) (hmoved : text.slice range = .ok moved)
    (hoffset : text.Boundary offset) (houtside : ¬ (range.start < offset ∧ offset < range.stop)) :
    ∃ output, text.splicedAll
        ([Edit.remove range, Edit.insertAt offset moved].mergeSort Edit.precedes) = .ok output ∧
      Text.Relocated range offset text output := by
  obtain ⟨front, tail, rfl, hfront, hend⟩ := Text.slice_eq_ok_iff.1 hmoved
  rw [← Text.byteLength_append] at hend
  obtain ⟨head, rest, htext, rfl⟩ := hoffset
  have hle := hrange.start_le_stop
  by_cases hback : range.stop ≤ Text.byteLength head
  · -- the text goes to the back: it is pasted first
    have hsorted : [Edit.remove range, Edit.insertAt (Text.byteLength head) moved].mergeSort
        Edit.precedes = [Edit.remove range, Edit.insertAt (Text.byteLength head) moved] := by
      apply List.mergeSort_of_pairwise
      rw [List.pairwise_pair, Edit.precedes_iff]
      simp only [Edit.remove, Edit.insertAt, Span.at]
      omega
    obtain ⟨passed, rfl, rfl⟩ := Text.append_split htext (hend ▸ hback)
    rw [hsorted, htext]
    refine ⟨front ++ passed ++ moved ++ rest,
      splicedAll_pair (spliced_insertAt _ moved rest) ?_, ?_⟩
    · have hremove := spliced_remove hfront hend (passed ++ moved ++ rest)
      simpa using hremove
    · exact .toBack front moved passed rest hfront hend rfl
  · -- the text goes to the front: it is cut out first
    have hle' : Text.byteLength head ≤ Text.byteLength front := by omega
    rw [mergeSort_relocation ⟨by omega, by omega⟩]
    rw [List.append_assoc] at htext
    obtain ⟨passed, rfl, rfl⟩ := Text.append_split htext.symm hle'
    refine ⟨head ++ moved ++ passed ++ tail, ?_, .toFront head passed moved tail rfl hfront hend⟩
    refine splicedAll_pair (spliced_remove hfront hend tail) ?_
    have hinsert := spliced_insertAt head moved (passed ++ tail)
    simpa using hinsert

/-- A relocation merges unless it goes inside its own range, and it exchanges the moved text with
what stands between its two places. -/
theorem exists_relocation_merged {range : Span} {offset : Nat} (hrange : text.HasSpan range)
    (hoffset : text.Boundary offset) :
    ∃ fix, relocate text range offset = .ok fix ∧
      (fix.merged text = .ok none ↔ range.start < offset ∧ offset < range.stop) ∧
      (fix.merged text ≠ .ok none → ∃ edit output, fix.merged text = .ok (some edit) ∧
        text.spliced edit = .ok output ∧ Text.Relocated range offset text output) := by
  obtain ⟨moved, hmoved⟩ := hrange.exists_slice
  have hspans : ∀ edit ∈ [Edit.remove range, Edit.insertAt offset moved],
      text.HasSpan edit.span := by
    rw [List.forall_mem_cons, List.forall_mem_singleton]
    exact ⟨hrange, Text.hasSpan_at hoffset⟩
  have hnone : Fix.merged ⟨[Edit.remove range, Edit.insertAt offset moved]⟩ text = .ok none ↔
      range.start < offset ∧ offset < range.stop := by
    rw [merged_eq_none_iff hspans, List.pairwise_pair, not_not]
    unfold Edit.Overlaps Edit.StartsInside
    simp only [Edit.remove, Edit.insertAt, Span.at, reduceCtorEq, false_or]
    omega
  refine ⟨⟨[Edit.remove range, Edit.insertAt offset moved]⟩, ?_, hnone, ?_⟩
  · rw [relocate, hmoved]
    rfl
  · intro hmerges
    obtain ⟨output, hall, hrelocated⟩ :=
      exists_relocated hrange hmoved hoffset fun h => hmerges (hnone.2 h)
    rw [ne_eq, merged_eq_none_iff hspans, not_or, not_not] at hmerges
    obtain ⟨edit, output', hmerged, -, hspliced, hall'⟩ :=
      exists_merged_of_apart hspans hmerges.1 hmerges.2
    obtain rfl := Except.ok.inj (hall.symm.trans hall')
    exact ⟨edit, output, hmerged, hspliced, hrelocated⟩

/-- A fix merges into one edit that does the work of its edits.

All edits are about spans of the text. They do not merge exactly if there are none or two of them
overlap. Otherwise they merge into one edit from the smallest start to the largest end, and splicing
it into the text gives the same as splicing the edits in their stable order by start and end, the
last one first: insertions at one offset stay as they stand, in front of a replacement that starts
there. A relocation does not merge exactly if its target lies strictly inside the range; otherwise
it exchanges the moved text with what stands between it and the target. -/
theorem merged_splices_edits (text : Text) :
    (∀ fix : Fix, (∀ edit ∈ fix.edits, text.HasSpan edit.span) →
      (fix.merged text = .ok none ↔
        fix.edits = [] ∨ ∃ e f, [e, f].Sublist fix.edits ∧ e.Overlaps f) ∧
      (fix.merged text ≠ .ok none → ∃ edit output ordering, fix.merged text = .ok (some edit) ∧
        fix.HasExtent edit.span ∧ text.spliced edit = .ok output ∧
        StableOrdering Edit.precedes fix.edits ordering ∧
        text.splicedAll ordering = .ok output)) ∧
    ∀ (range : Span) (target : Nat), text.HasSpan range → text.Boundary target →
      ∃ fix, relocate text range target = .ok fix ∧
        (fix.merged text = .ok none ↔ range.start < target ∧ target < range.stop) ∧
        (fix.merged text ≠ .ok none → ∃ edit output, fix.merged text = .ok (some edit) ∧
          text.spliced edit = .ok output ∧ Text.Relocated range target text output) := by
  refine ⟨fun fix h => ⟨?_, fun hmerges => ?_⟩,
    fun range target hrange htarget => exists_relocation_merged hrange htarget⟩
  · rw [merged_eq_none_iff h, List.pairwise_iff_forall_sublist]
    push Not
    rfl
  · rw [ne_eq, merged_eq_none_iff h, not_or, not_not] at hmerges
    obtain ⟨edit, output, hmerged, hextent, hspliced, hall⟩ :=
      exists_merged_of_apart h hmerges.1 hmerges.2
    have hordering : StableOrdering Edit.precedes fix.edits (fix.edits.mergeSort Edit.precedes) :=
      (stableOrdering_iff Edit.precedes_trans Edit.precedes_total).2 rfl
    exact ⟨edit, output, _, hmerged, hextent, hspliced, hordering, hall⟩

/-- A text with characters of two bytes. -/
def crowdedText : Text := "aébcdé".toList

/-- A replacement with insertions at both ends, and a removal at the end of the text, which comes
first. -/
def crowdedFix : Fix :=
  ⟨[⟨⟨6, 8⟩, []⟩, ⟨⟨1, 3⟩, ['e']⟩, Edit.insertAt 1 ['x'], Edit.insertAt 3 ['!'],
    Edit.insertAt 1 ['y']]⟩

/-- Insertions at one offset stay in order, and a text can be moved to the back. -/
theorem crowded_edits_merge :
    (∀ edit ∈ crowdedFix.edits, crowdedText.HasSpan edit.span) ∧
    (∃ edit ordering, crowdedFix.merged crowdedText = .ok (some edit) ∧ edit.span = ⟨1, 8⟩ ∧
      crowdedText.spliced edit = .ok "axye!bcd".toList ∧
      StableOrdering Edit.precedes crowdedFix.edits ordering ∧
      crowdedText.splicedAll ordering = .ok "axye!bcd".toList) ∧
    crowdedText.HasSpan ⟨1, 3⟩ ∧ crowdedText.Boundary 6 ∧
    ∃ fix edit output, relocate crowdedText ⟨1, 3⟩ 6 = .ok fix ∧
      fix.merged crowdedText = .ok (some edit) ∧ crowdedText.spliced edit = .ok output ∧
      Text.Relocated ⟨1, 3⟩ 6 crowdedText output := by
  obtain ⟨hfix, hrelocate⟩ := merged_splices_edits crowdedText
  have hspans : ∀ edit ∈ crowdedFix.edits, crowdedText.HasSpan edit.span := by decide +kernel
  have hmerged : crowdedFix.merged crowdedText = .ok (some ⟨⟨1, 8⟩, "xye!bcd".toList⟩) := by cbv
  have hsome : crowdedFix.merged crowdedText ≠ .ok none := by
    rw [hmerged]
    intro h
    cases h
  have hspan : crowdedText.HasSpan ⟨1, 3⟩ := by decide +kernel
  have htarget : crowdedText.Boundary 6 := ⟨"aébcd".toList, "é".toList, rfl, rfl⟩
  obtain ⟨edit, output, ordering, hmerged', -, hspliced, hordering, hall⟩ :=
    (hfix crowdedFix hspans).2 hsome
  obtain rfl := Option.some.inj (Except.ok.inj (hmerged.symm.trans hmerged'))
  have houtput : output = "axye!bcd".toList := by
    have hcut : crowdedText.spliced ⟨⟨1, 8⟩, "xye!bcd".toList⟩ = .ok "axye!bcd".toList := by
      decide +kernel
    exact Except.ok.inj (hspliced.symm.trans hcut)
  subst houtput
  obtain ⟨fix, hfix, hnone, hmoves⟩ := hrelocate ⟨1, 3⟩ 6 hspan htarget
  obtain ⟨edit, output, hedit, hcut, hrelocated⟩ := hmoves (by rw [ne_eq, hnone]; decide)
  exact ⟨hspans, ⟨_, ordering, hmerged, rfl, hspliced, hordering, hall⟩, hspan, htarget, fix, edit,
    output, hfix, hedit, hcut, hrelocated⟩

end Fix

end ImportOrder
