import ImportOrder.Proofs.Rule.Safety
import Mathlib

/-!
# A pass splices selected edits

A pass goes through a text once and copies what it keeps. It does the same as splicing edits into
the text one at a time, the last of them first, so that the offsets of the others stay valid. The
edits are selected greedily: in order of their places, each that starts behind the end of the one
selected before it. The order in which the fixes are reported does not matter, unless two of them
merge into edits about one span.

## Main definitions

- `Text.spliced`: a text with one edit made
- `Edit.selection`: the edits that are selected from a list

## Main statements

- `Text.applyEdits_eq_splices`: a run of edits splices those that are selected
- `Text.applyFixes_splices_selection`
- `Text.mergeSort_mergedEdits_of_perm`: edits about different spans are put in one order
- `Text.applyFixes_ignores_order`
-/

namespace ImportOrder

namespace Edit

/-- An edit is selected if it is the first, or if it starts behind the end of the one selected last.
-/
def select (selected : List Edit) (edit : Edit) : List Edit :=
  if selected.getLast?.all (·.span.stop < edit.span.start) then selected ++ [edit] else selected

/-- The edits that are selected from a list, which is gone through from left to right. -/
def selection (edits : List Edit) : List Edit := edits.foldl select []

theorem select_of_any {selected : List Edit} {edit : Edit}
    (h : (selected.getLast?.map (·.span.stop)).any (edit.span.start ≤ ·) = true) :
    select selected edit = selected := by
  cases hlast : selected.getLast? with
  | none => simp [hlast] at h
  | some last =>
    simp only [hlast, Option.map_some, Option.any_some, decide_eq_true_eq] at h
    simp [select, hlast, h]

theorem select_of_not_any {selected : List Edit} {edit : Edit}
    (h : ¬ (selected.getLast?.map (·.span.stop)).any (edit.span.start ≤ ·) = true) :
    select selected edit = selected ++ [edit] := by
  cases hlast : selected.getLast? with
  | none => simp [select, hlast]
  | some last =>
    simp only [hlast, Option.map_some, Option.any_some, decide_eq_true_eq, Nat.not_le] at h
    simp [select, hlast, h]

end Edit

namespace Text

variable {text front rest : Text} {edit : Edit} {edits : List Edit} {ds : List Diagnostic}
  {outcome : FixOutcome}

/-- The text with one edit made. -/
def spliced (text : Text) (edit : Edit) : Checked Text := do
  let front ← text.slice ⟨0, edit.span.start⟩
  let back ← text.sliceFrom edit.span.stop
  return front ++ edit.text ++ back

/-- The text with edits made one at a time, the last of them first. -/
def splicedAll (text : Text) (edits : List Edit) : Checked Text :=
  edits.foldrM (fun edit text => text.spliced edit) text

theorem spliced_append {old : Text} (hstart : byteLength front = edit.span.start)
    (hstop : byteLength (front ++ old) = edit.span.stop) (rest : Text) :
    spliced (front ++ old ++ rest) edit = .ok (front ++ edit.text ++ rest) := by
  have hfront : slice (front ++ old ++ rest) ⟨0, edit.span.start⟩ = .ok front :=
    slice_eq_ok_iff.2 ⟨[], old ++ rest, by simp, rfl, by simpa using hstart⟩
  have hrest : sliceFrom (front ++ old ++ rest) edit.span.stop = .ok rest :=
    hstop ▸ sliceFrom_append (front ++ old) rest
  rw [spliced, hfront, Checked.ok_bind, hrest]
  rfl

theorem splicedAll_cons (text : Text) (edit : Edit) (edits : List Edit) :
    text.splicedAll (edit :: edits) = (do (← text.splicedAll edits).spliced edit) :=
  List.foldrM_cons

/-- A span behind an offset cuts what follows the offset into three. -/
theorem exists_append_of_hasSpan {span : Span} (h : text.HasSpan span)
    (htext : text = front ++ rest) (hle : byteLength front ≤ span.start) :
    ∃ kept old back, rest = kept ++ (old ++ back) ∧ byteLength (front ++ kept) = span.start ∧
      byteLength (front ++ kept ++ old) = span.stop := by
  obtain ⟨part, hpart⟩ := h.exists_slice
  obtain ⟨before, back, heq, hstart, hstop⟩ := slice_eq_ok_iff.1 hpart
  rw [htext, List.append_assoc before] at heq
  obtain ⟨kept, rfl, rfl⟩ := append_split heq (by omega)
  exact ⟨kept, part, back, rfl, hstart, by rw [byteLength_append]; exact hstop⟩

/-- Edits applied from the end of `front` on, after those selected so far: the ones that are made
are the ones that are selected, and splicing them into the whole text gives the same. -/
theorem applyEdits_eq_splices (hedits : ∀ e ∈ edits, text.HasSpan e.span) {selected : List Edit}
    (htext : text = front ++ rest)
    (hselected : (selected.getLast?.map (·.span.stop)).getD 0 = byteLength front) :
    ∃ outcome made,
      text.applyEdits (byteLength front) (selected.getLast?.map (·.span.stop)) edits =
        .ok outcome ∧
      edits.foldl Edit.select selected = selected ++ made ∧ outcome.applied = made.length ∧
      text.splicedAll made = .ok (front ++ outcome.output) := by
  induction edits generalizing front rest selected with
  | nil =>
    refine ⟨⟨rest, 0, 0⟩, [], ?_, by simp, rfl, by rw [htext]; rfl⟩
    rw [applyEdits, htext, sliceFrom_append]
    rfl
  | cons edit edits ih =>
    obtain ⟨hspan, hlater⟩ := List.forall_mem_cons.1 hedits
    by_cases hskip : (selected.getLast?.map (·.span.stop)).any (edit.span.start ≤ ·) = true
    · obtain ⟨outcome, made, happly, hmade, hcount, hsplice⟩ := ih hlater htext hselected
      refine ⟨{ outcome with skipped := outcome.skipped + 1 }, made, ?_, ?_, hcount, hsplice⟩
      · rw [applyEdits, if_pos hskip, happly]
        rfl
      · rw [List.foldl_cons, Edit.select_of_any hskip, hmade]
    · -- the edit starts behind the last one, so that the text in between is kept
      have hle : byteLength front ≤ edit.span.start := by
        rw [← hselected]
        cases hlast : selected.getLast? with
        | none => exact Nat.zero_le _
        | some last =>
          simp only [hlast, Option.map_some, Option.any_some, decide_eq_true_eq,
            Nat.not_le] at hskip
          exact Nat.le_of_lt hskip
      obtain ⟨kept, old, back, rfl, hstart, hstop⟩ := exists_append_of_hasSpan hspan htext hle
      obtain ⟨outcome, made, happly, hmade, hcount, hsplice⟩ :=
        @ih (front ++ kept ++ old) back hlater (selected ++ [edit]) (by rw [htext]; simp)
          (by rw [List.getLast?_concat]; exact hstop.symm)
      rw [List.getLast?_concat, Option.map_some, hstop] at happly
      refine ⟨{ outcome with
        output := kept ++ edit.text ++ outcome.output
        applied := outcome.applied + 1 }, edit :: made, ?_, ?_, ?_, ?_⟩
      · have hkept : text.slice ⟨byteLength front, edit.span.start⟩ = .ok kept :=
          slice_eq_ok_iff.2 ⟨front, old ++ back, by rw [htext]; simp, rfl, by simpa using hstart⟩
        rw [applyEdits, if_neg hskip, hkept, Checked.ok_bind, happly]
        rfl
      · rw [List.foldl_cons, Edit.select_of_not_any hskip, hmade]
        simp
      · rw [hcount, List.length_cons]
      · rw [splicedAll_cons, hsplice, Checked.ok_bind, spliced_append hstart hstop]
        simp

theorem applyEdits_eq_splices_selection (hedits : ∀ e ∈ edits, text.HasSpan e.span) :
    ∃ outcome, text.applyEdits 0 none edits = .ok outcome ∧
      outcome.applied = (Edit.selection edits).length ∧
      text.splicedAll (Edit.selection edits) = .ok outcome.output := by
  obtain ⟨outcome, made, happly, hmade, hcount, hsplice⟩ :=
    @applyEdits_eq_splices text [] text edits hedits [] rfl rfl
  rw [List.nil_append] at hmade
  rw [List.nil_append, ← hmade] at hsplice
  exact ⟨outcome, happly, by rw [hcount, Edit.selection, hmade], hsplice⟩

/-- The edits that are selected for a pass: each fix is merged, and those that merge are gone
through by start, and at one start by end. -/
def selectedEdits (text : Text) (diagnostics : List Diagnostic) : Checked (List Edit) := do
  let merged ← (diagnostics.filterMap (·.fix)).mapM (·.merged text)
  return Edit.selection ((merged.filterMap id).mergeSort Edit.precedes)

theorem exists_mapM_merged
    (h : ∀ d ∈ ds, ∀ fix ∈ d.fix, ∀ edit ∈ fix.edits, text.HasSpan edit.span) :
    ∃ merged, (ds.filterMap (·.fix)).mapM (·.merged text) = .ok merged ∧
      ∀ edit ∈ merged.filterMap id, text.HasSpan edit.span := by
  have hmerged : ∀ fix ∈ ds.filterMap (·.fix), ∃ edit?, fix.merged text = .ok edit? ∧
      ∀ edit ∈ edit?, text.HasSpan edit.span := by
    intro fix hfix
    obtain ⟨d, hd, hfix⟩ := List.mem_filterMap.1 hfix
    obtain ⟨edit?, hedit?, hfits⟩ := @Fix.exists_merged text fix 0 fun edit hedit =>
      ⟨(h d hd fix hfix edit hedit).fits, Nat.zero_le _⟩
    refine ⟨edit?, hedit?, fun edit hedit => ?_⟩
    obtain ⟨⟨hle, hstart, hstop⟩, -⟩ := hfits edit hedit
    exact ⟨hle, hstart, hstop⟩
  obtain ⟨merged, hmapM, hspans⟩ := Checked.exists_mapM hmerged
  refine ⟨merged, hmapM, fun edit hedit => ?_⟩
  obtain ⟨edit?, hedit?, heq⟩ := List.mem_filterMap.1 hedit
  exact hspans edit? hedit? edit heq

/-- A pass splices the selected edits into the text.

All edits of the fixes are about spans of the text. Then a pass succeeds, and its output is the text
with the selected edits spliced in one at a time, the last of them first. As many fixes are applied
as edits are selected, the others count as left out, and nothing is applied, which leaves the text
as it is, exactly if no fix merges. -/
theorem applyFixes_splices_selection
    (h : ∀ d ∈ ds, ∀ fix ∈ d.fix, ∀ edit ∈ fix.edits, text.HasSpan edit.span) :
    ∃ outcome selected, text.applyFixes ds = .ok outcome ∧ text.selectedEdits ds = .ok selected ∧
      text.splicedAll selected = .ok outcome.output ∧ outcome.applied = selected.length ∧
      outcome.applied + outcome.skipped = ds.countP (·.isFixable) ∧
      (outcome.applied = 0 ↔ ∀ d ∈ ds, ∀ fix ∈ d.fix, fix.merged text = .ok none) ∧
      (outcome.applied = 0 → outcome.output = text) := by
  obtain ⟨merged, hmerged, hspans⟩ := exists_mapM_merged h
  obtain ⟨made, happly, hcount, hsplice⟩ :=
    @applyEdits_eq_splices_selection text ((merged.filterMap id).mergeSort Edit.precedes)
      fun edit hedit => hspans edit (List.mem_mergeSort.1 hedit)
  have hpass : text.applyFixes ds = .ok { made with
      skipped :=
        made.skipped + ((ds.filterMap (·.fix)).length - (merged.filterMap id).length) } := by
    simp only [applyFixes, hmerged, happly, Checked.ok_bind]
    rfl
  refine ⟨_, _, hpass, by rw [selectedEdits, hmerged]; rfl, hsplice, hcount, ?_, ⟨?_, ?_⟩, ?_⟩
  · rw [applyFixes_count hpass, List.length_filterMap_eq_countP]
    rfl
  · intro hzero d hd fix hfix
    exact merged_eq_none_of_applied_eq_zero hpass hzero hd hfix
  · intro hnone
    have hnil : merged.filterMap id = [] := by
      apply List.filterMap_eq_nil_iff.2
      intro edit? hedit?
      obtain ⟨fix, hfix, heq⟩ := Checked.exists_of_mem_mapM hmerged hedit?
      obtain ⟨d, hd, hfix⟩ := List.mem_filterMap.1 hfix
      exact Except.ok.inj (heq.symm.trans (hnone d hd fix hfix))
    rw [hnil, List.mergeSort_nil] at hcount
    exact hcount
  · intro hzero
    have hselected := List.length_eq_zero_iff.1 (hcount.symm.trans hzero)
    rw [hselected] at hsplice
    exact (Except.ok.inj hsplice).symm

/-- A text with a character of two bytes. -/
def contestedText : Text := "aébc".toList

def contestedReport (edits : Option (List Edit)) : Diagnostic :=
  ⟨"", "", "", ⟨0, 0⟩, ⟨1, 1⟩, ⟨1, 1⟩, edits.map Fix.mk⟩

/-- Fixes at both ends of the text and in the middle, one that touches another, one whose edits
overlap, and a report without a fix. -/
def contestedReports : List Diagnostic :=
  [contestedReport (some [Edit.insertAt 5 ['!']]), contestedReport (some [⟨⟨0, 1⟩, ['y']⟩]),
    contestedReport none, contestedReport (some [⟨⟨0, 3⟩, []⟩, ⟨⟨1, 4⟩, []⟩]),
    contestedReport (some [⟨⟨1, 3⟩, ['e']⟩]), contestedReport (some [Edit.insertAt 0 ['x']])]

/-- Of five fixes three are spliced in: one does not merge, and one conflicts with another. -/
theorem splices_contested :
    (∀ d ∈ contestedReports, ∀ fix ∈ d.fix, ∀ edit ∈ fix.edits,
      contestedText.HasSpan edit.span) ∧
    ∃ selected, contestedText.selectedEdits contestedReports = .ok selected ∧
      selected.length = 3 ∧ contestedText.splicedAll selected = .ok "xaebc!".toList := by
  have hspans : ∀ d ∈ contestedReports, ∀ fix ∈ d.fix, ∀ edit ∈ fix.edits,
      contestedText.HasSpan edit.span := by
    decide +kernel
  have hpass : contestedText.applyFixes contestedReports = .ok ⟨"xaebc!".toList, 3, 2⟩ := by
    cbv
  obtain ⟨outcome, selected, houtcome, hselected, hsplice, hcount, -⟩ :=
    applyFixes_splices_selection hspans
  obtain rfl := Except.ok.inj (houtcome.symm.trans hpass)
  exact ⟨hspans, selected, hselected, hcount.symm, hsplice⟩

/-! ## The order of the reports -/

theorem merges_of_applyFixes (h : text.applyFixes ds = .ok outcome) :
    ∀ fix ∈ ds.filterMap (·.fix), ∃ edit?, fix.merged text = .ok edit? := by
  intro fix hfix
  obtain ⟨merged, hmerged, -⟩ := Checked.bind_eq_ok.1 h
  obtain ⟨edit?, -, hedit?⟩ := Checked.exists_mem_of_mapM hmerged hfix
  exact ⟨edit?, hedit?⟩

/-- Edits about different spans are put in one order only. -/
theorem mergeSort_mergedEdits_of_perm {ds' : List Diagnostic} (hperm : ds.Perm ds')
    (hspans : ((text.mergedEdits ds).map (·.span)).Nodup) :
    (text.mergedEdits ds').mergeSort Edit.precedes =
      (text.mergedEdits ds).mergeSort Edit.precedes := by
  have hedits : (text.mergedEdits ds').Perm (text.mergedEdits ds) :=
    ((hperm.symm.filterMap _).filterMap _).map _
  have hsorted : ((text.mergedEdits ds').mergeSort Edit.precedes).Perm
      ((text.mergedEdits ds).mergeSort Edit.precedes) :=
    (List.mergeSort_perm _ _).trans (hedits.trans (List.mergeSort_perm _ _).symm)
  refine hsorted.eq_of_pairwise ?_ (Edit.pairwise_mergeSort _) (Edit.pairwise_mergeSort _)
  intro e f he hf hef hfe
  exact List.inj_on_of_nodup_map hspans (hedits.subset (List.mem_mergeSort.1 he))
    (List.mem_mergeSort.1 hf) (Edit.span_eq_of_precedes hef hfe)

theorem applyFixes_of_perm {ds' : List Diagnostic} (hperm : ds.Perm ds')
    (hspans : ((text.mergedEdits ds).map (·.span)).Nodup)
    (h : text.applyFixes ds = .ok outcome) : text.applyFixes ds' = .ok outcome := by
  have hmerges := merges_of_applyFixes h
  have hfixes : (ds.filterMap (·.fix)).Perm (ds'.filterMap (·.fix)) := hperm.filterMap _
  have hedits : (text.mergedEdits ds).Perm (text.mergedEdits ds') := (hfixes.filterMap _).map _
  rw [applyFixes_eq_of_merges hmerges] at h
  rw [applyFixes_eq_of_merges fun fix hfix => hmerges fix (hfixes.mem_iff.2 hfix),
    mergeSort_mergedEdits_of_perm hperm hspans, ← hfixes.length_eq, ← hedits.length_eq]
  exact h

/-- A pass does not depend on the order of the reports.

The fixes merge into edits about different spans, whatever else there is among the reports. Then the
same reports in any other order give the same output and the same numbers of fixes that are applied
and left out, and if all edits are about spans of the text they do give an outcome. -/
theorem applyFixes_ignores_order (hspans : ((text.mergedEdits ds).map (·.span)).Nodup) :
    (∀ ds' : List Diagnostic, ds.Perm ds' → ∀ outcome,
      text.applyFixes ds' = .ok outcome ↔ text.applyFixes ds = .ok outcome) ∧
    ((∀ d ∈ ds, ∀ fix ∈ d.fix, ∀ edit ∈ fix.edits, text.HasSpan edit.span) →
      ∃ outcome, text.applyFixes ds = .ok outcome) := by
  refine ⟨fun ds' hperm outcome => ⟨fun h => ?_, applyFixes_of_perm hperm hspans⟩, fun h => ?_⟩
  · have hedits : (text.mergedEdits ds).Perm (text.mergedEdits ds') :=
      ((hperm.filterMap _).filterMap _).map _
    exact applyFixes_of_perm hperm.symm ((hedits.map _).nodup_iff.1 hspans) h
  · have hfits : ∀ d ∈ ds, ∀ fix ∈ d.fix, fix.FitsFrom text (byteLength []) :=
      fun d hd fix hfix edit hedit => ⟨(h d hd fix hfix edit hedit).fits, Nat.zero_le _⟩
    obtain ⟨outcome, -, houtcome, -⟩ := exists_applyFixes (List.nil_append text).symm hfits
    exact ⟨outcome, houtcome⟩

/-- The contested reports from last to first. -/
theorem reversed_contested_agree :
    ((contestedText.mergedEdits contestedReports).map (·.span)).Nodup ∧
    (∀ d ∈ contestedReports, ∀ fix ∈ d.fix, ∀ edit ∈ fix.edits,
      contestedText.HasSpan edit.span) ∧
    contestedText.applyFixes contestedReports.reverse = .ok ⟨"xaebc!".toList, 3, 2⟩ := by
  have hedits : (contestedText.mergedEdits contestedReports).map (·.span) =
      [⟨5, 5⟩, ⟨0, 1⟩, ⟨1, 3⟩, ⟨0, 0⟩] := by
    cbv
  have hnodup : ((contestedText.mergedEdits contestedReports).map (·.span)).Nodup := by
    rw [hedits]
    decide
  have hspans : ∀ d ∈ contestedReports, ∀ fix ∈ d.fix, ∀ edit ∈ fix.edits,
      contestedText.HasSpan edit.span := by
    decide +kernel
  have hpass : contestedText.applyFixes contestedReports = .ok ⟨"xaebc!".toList, 3, 2⟩ := by
    cbv
  obtain ⟨hsame, htotal⟩ := applyFixes_ignores_order hnodup
  obtain ⟨outcome, houtcome⟩ := htotal hspans
  obtain rfl := Except.ok.inj (houtcome.symm.trans hpass)
  exact ⟨hnodup, hspans, (hsame _ (List.reverse_perm _).symm _).2 houtcome⟩

end Text

end ImportOrder
