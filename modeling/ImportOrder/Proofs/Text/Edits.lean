import ImportOrder.Fixing
import ImportOrder.Proofs.Text.Cut
import Mathlib.Tactic.Choose

/-!
# Edits that fit a text

An edit fits a text if its span can be cut out. Fixes made of such edits can always be merged and
applied, whatever their order and overlaps, and what stands in front of all of them stays. A pass
that applies nothing had nothing to merge, so that a relocation to the front is never passed over
by all passes.

## Main definitions

- `Text.Boundary`: the offsets at which a text can be cut
- `Edit.Fits`, `Fix.FitsFrom`

## Main statements

- `Fix.exists_merged`: fitting edits merge into a fitting edit or overlap
- `Text.exists_applyFixes`: a pass with fitting fixes succeeds and keeps what stands in front
- `Text.merged_eq_none_of_applied_eq_zero`: a pass without effect
- `Fix.merged_relocate_ne_none`: a relocation to the front merges
-/

namespace ImportOrder

namespace Text

/-- An offset at which the text can be cut. -/
def Boundary (text : Text) (n : Nat) : Prop :=
  ∃ front rest, text = front ++ rest ∧ byteLength front = n

variable {text : Text} {m n : Nat}

theorem boundary_zero (text : Text) : text.Boundary 0 := ⟨[], text, rfl, rfl⟩

theorem exists_slice (hm : text.Boundary m) (hn : text.Boundary n) (hle : m ≤ n) :
    ∃ part, text.slice ⟨m, n⟩ = .ok part := by
  obtain ⟨front, rest, rfl, rfl⟩ := hm
  obtain ⟨front', rest', htext, rfl⟩ := hn
  obtain ⟨part, rfl, rfl⟩ := append_split htext hle
  exact ⟨part, slice_eq_ok_iff.2 ⟨front, rest', by simp, rfl, by simp⟩⟩

theorem exists_sliceFrom (hn : text.Boundary n) : ∃ rest, text.sliceFrom n = .ok rest := by
  obtain ⟨front, rest, rfl, rfl⟩ := hn
  exact ⟨rest, sliceFrom_append front rest⟩

end Text

/-- The span of the edit can be cut out of the text. -/
structure Edit.Fits (edit : Edit) (text : Text) : Prop where
  /-- The span is not reversed. -/
  start_le_stop : edit.span.start ≤ edit.span.stop
  /-- The text can be cut where the span starts. -/
  start_boundary : text.Boundary edit.span.start
  /-- The text can be cut where the span ends. -/
  stop_boundary : text.Boundary edit.span.stop

namespace Edit

theorem precedes_iff {e f : Edit} : e.precedes f = true ↔
    e.span.start < f.span.start ∨ e.span.start = f.span.start ∧ e.span.stop ≤ f.span.stop := by
  simp [precedes]

theorem precedes_trans (e f g : Edit) (hef : e.precedes f = true) (hfg : f.precedes g = true) :
    e.precedes g = true := by
  rw [precedes_iff] at hef hfg ⊢
  omega

theorem precedes_total (e f : Edit) : (e.precedes f || f.precedes e) = true := by
  rw [Bool.or_eq_true, precedes_iff, precedes_iff]
  omega

/-- Edits that precede each other are about one span. -/
theorem span_eq_of_precedes {e f : Edit} (hef : e.precedes f = true) (hfe : f.precedes e = true) :
    e.span = f.span := by
  obtain ⟨⟨start, stop⟩, text⟩ := e
  obtain ⟨⟨start', stop'⟩, text'⟩ := f
  simp only [precedes_iff, Span.mk.injEq] at hef hfe ⊢
  omega

theorem pairwise_mergeSort (edits : List Edit) :
    (edits.mergeSort precedes).Pairwise fun e f => e.precedes f = true :=
  List.pairwise_mergeSort precedes_trans precedes_total edits

end Edit

namespace Fix

variable {text : Text} {edits : List Edit} {fix : Fix}

/-- All edits of the fix fit the text and start at or behind an offset. -/
def FitsFrom (fix : Fix) (text : Text) (n : Nat) : Prop :=
  ∀ edit ∈ fix.edits, edit.Fits text ∧ n ≤ edit.span.start

/-! ## Merging -/

theorem foldl_max_stop (edits : List Edit) (n : Nat) :
    n ≤ edits.foldl (fun stop edit => max stop edit.span.stop) n ∧
      (∀ e ∈ edits, e.span.stop ≤ edits.foldl (fun stop edit => max stop edit.span.stop) n) ∧
      (edits.foldl (fun stop edit => max stop edit.span.stop) n = n ∨
        ∃ e ∈ edits, edits.foldl (fun stop edit => max stop edit.span.stop) n = e.span.stop) := by
  induction edits generalizing n with
  | nil => simp
  | cons edit edits ih =>
    obtain ⟨hn, hle, heq⟩ := ih (max n edit.span.stop)
    rw [List.foldl_cons]
    refine ⟨by omega, List.forall_mem_cons.2 ⟨by omega, hle⟩, ?_⟩
    cases heq with
    | inl heq =>
      rw [heq]
      by_cases hstop : edit.span.stop ≤ n
      · exact .inl (Nat.max_eq_left hstop)
      · exact .inr ⟨edit, List.mem_cons_self, Nat.max_eq_right (Nat.le_of_not_le hstop)⟩
    | inr heq =>
      obtain ⟨e, he, heq⟩ := heq
      exact .inr ⟨e, List.mem_cons_of_mem edit he, heq⟩

/-- The end of the edit that reaches furthest is the end of one of them. -/
theorem exists_furthest (edit : Edit) (edits : List Edit) :
    ∃ e ∈ edit :: edits, furthest (edit :: edits) = e.span.stop ∧
      ∀ e ∈ edit :: edits, e.span.stop ≤ furthest (edit :: edits) := by
  obtain ⟨-, hle, heq⟩ := foldl_max_stop (edit :: edits) 0
  cases heq with
  | inl heq =>
    refine ⟨edit, List.mem_cons_self, ?_, hle⟩
    have := hle edit List.mem_cons_self
    rw [furthest]
    omega
  | inr heq =>
    obtain ⟨e, he, heq⟩ := heq
    exact ⟨e, he, heq, hle⟩

theorem exists_splice {stop cursor : Nat} (hedits : ∀ e ∈ edits, e.Fits text)
    (hstop : text.Boundary stop) (hle : ∀ e ∈ edits, e.span.stop ≤ stop)
    (hcursor : text.Boundary cursor) (hcursor_le : cursor ≤ stop) :
    ∃ replacement, splice text stop cursor edits = .ok replacement := by
  induction edits generalizing cursor with
  | nil =>
    obtain ⟨kept, hkept⟩ := Text.exists_slice hcursor hstop hcursor_le
    exact ⟨some kept, by rw [splice, hkept]; rfl⟩
  | cons edit edits ih =>
    have hfits := hedits edit List.mem_cons_self
    rw [splice]
    by_cases hlt : edit.span.start < cursor
    · exact ⟨none, if_pos hlt⟩
    · obtain ⟨kept, hkept⟩ := Text.exists_slice hcursor hfits.start_boundary (Nat.not_lt.1 hlt)
      obtain ⟨rest, hrest⟩ := ih (fun e he => hedits e (List.mem_cons_of_mem edit he))
        (fun e he => hle e (List.mem_cons_of_mem edit he)) hfits.stop_boundary
        (hle edit List.mem_cons_self)
      rw [if_neg hlt, hkept]
      exact ⟨rest.map (kept ++ edit.text ++ ·), by simp only [bind, Except.bind, hrest]; rfl⟩

/-- Fitting edits merge, if they do not overlap, into a fitting edit that starts with one of them.
-/
theorem exists_merged {n : Nat} (h : fix.FitsFrom text n) :
    ∃ edit?, fix.merged text = .ok edit? ∧ ∀ edit ∈ edit?, edit.Fits text ∧ n ≤ edit.span.start := by
  rw [merged]
  have hsorted : ∀ e ∈ fix.edits.mergeSort Edit.precedes, e.Fits text ∧ n ≤ e.span.start :=
    fun e he => h e (List.mem_mergeSort.1 he)
  generalize fix.edits.mergeSort Edit.precedes = sorted at hsorted
  cases sorted with
  | nil => exact ⟨none, rfl, by simp⟩
  | cons first edits =>
    obtain ⟨last, hlast, hstop, hle⟩ := exists_furthest first edits
    have hfirst := hsorted first List.mem_cons_self
    have hstop_boundary : text.Boundary (furthest (first :: edits)) :=
      hstop ▸ (hsorted last hlast).1.stop_boundary
    have hstart_le : first.span.start ≤ furthest (first :: edits) :=
      Nat.le_trans hfirst.1.start_le_stop (hle first List.mem_cons_self)
    obtain ⟨replacement, hsplice⟩ := exists_splice (fun e he => (hsorted e he).1) hstop_boundary hle
      hfirst.1.start_boundary hstart_le
    refine ⟨replacement.map (⟨⟨first.span.start, furthest (first :: edits)⟩, ·⟩), ?_, ?_⟩
    · simp only [hsplice, bind, Except.bind]
      rfl
    · intro edit hedit
      obtain ⟨replaced, -, rfl⟩ := Option.map_eq_some_iff.1 hedit
      exact ⟨⟨hstart_le, hfirst.1.start_boundary, hstop_boundary⟩, hfirst.2⟩

/-- The two edits of a relocation to the front, in order. -/
theorem mergeSort_relocation {range : Span} {offset : Nat}
    (h : offset ≤ range.start ∧ offset < range.stop) (moved : Text) :
    [Edit.remove range, Edit.insertAt offset moved].mergeSort Edit.precedes =
      [Edit.insertAt offset moved, Edit.remove range] := by
  have hlater : Edit.precedes (Edit.remove range) (Edit.insertAt offset moved) = false := by
    apply Bool.eq_false_iff.2
    intro hle
    rw [Edit.precedes_iff] at hle
    simp only [Edit.remove, Edit.insertAt, Span.at] at hle
    omega
  simp [List.mergeSort, List.MergeSort.Internal.splitInTwo, hlater]

/-- A relocation to the front does not overlap itself. -/
theorem merged_relocate_ne_none {range : Span} {offset : Nat} {fix : Fix}
    (hfix : Fix.relocate text range offset = .ok fix) (hle : offset ≤ range.start)
    (hlt : range.start < range.stop) : fix.merged text ≠ .ok none := by
  obtain ⟨moved, -, hfix⟩ := Checked.bind_eq_ok.1 hfix
  obtain rfl := Except.ok.inj hfix
  intro hnone
  rw [merged, mergeSort_relocation ⟨hle, Nat.lt_of_le_of_lt hle hlt⟩] at hnone
  obtain ⟨replacement, hsplice, hnone⟩ := Checked.bind_eq_ok.1 hnone
  obtain rfl : replacement = none := by simpa using Except.ok.inj hnone
  -- neither edit starts before the one in front of it ends
  simp only [splice, Edit.insertAt, Edit.remove, Span.at, Nat.lt_irrefl, if_false,
    show ¬ range.start < offset by omega] at hsplice
  obtain ⟨_, -, hsplice⟩ := Checked.bind_eq_ok.1 hsplice
  obtain ⟨rest, hrest, hsplice⟩ := Checked.bind_eq_ok.1 hsplice
  obtain ⟨_, -, hrest⟩ := Checked.bind_eq_ok.1 hrest
  obtain ⟨last, hlast, hrest⟩ := Checked.bind_eq_ok.1 hrest
  obtain ⟨_, -, hlast⟩ := Checked.bind_eq_ok.1 hlast
  obtain rfl := Except.ok.inj hlast
  obtain rfl := Except.ok.inj hrest
  exact absurd (Except.ok.inj hsplice) nofun

end Fix

namespace Text

variable {text : Text} {edits : List Edit} {ds : List Diagnostic} {outcome : FixOutcome}

/-! ## Passes -/

/-- Fitting edits can be applied in any order, as those that conflict with an earlier one are left
out. -/
theorem exists_applyEdits {cursor : Nat} (last : Option Nat) (hedits : ∀ e ∈ edits, e.Fits text)
    (hcursor : text.Boundary cursor) (hlast : ∀ n, last.any (n ≤ ·) = false → cursor ≤ n) :
    ∃ outcome, text.applyEdits cursor last edits = .ok outcome := by
  induction edits generalizing cursor last with
  | nil =>
    obtain ⟨rest, hrest⟩ := exists_sliceFrom hcursor
    exact ⟨⟨rest, 0, 0⟩, by rw [applyEdits, hrest]; rfl⟩
  | cons edit edits ih =>
    have hfits := hedits edit List.mem_cons_self
    have hlater : ∀ e ∈ edits, e.Fits text := fun e he => hedits e (List.mem_cons_of_mem edit he)
    rw [applyEdits]
    by_cases hskip : last.any (edit.span.start ≤ ·) = true
    · obtain ⟨outcome, houtcome⟩ := ih last hlater hcursor hlast
      rw [if_pos hskip, houtcome]
      exact ⟨_, rfl⟩
    · obtain ⟨kept, hkept⟩ := exists_slice hcursor hfits.start_boundary
        (hlast _ (Bool.not_eq_true _ ▸ hskip))
      obtain ⟨outcome, houtcome⟩ := ih (some edit.span.stop) hlater hfits.stop_boundary
        fun n hn => by simp at hn; omega
      rw [if_neg hskip, hkept]
      simp only [bind, Except.bind, houtcome]
      exact ⟨_, rfl⟩

/-- What stands in front of all edits stays. -/
theorem applyEdits_keeps_front {front rest : Text} (htext : text = front ++ rest)
    (hedits : ∀ e ∈ edits, byteLength front ≤ e.span.start)
    (happly : text.applyEdits 0 none edits = .ok outcome) :
    ∃ rest', outcome.output = front ++ rest' := by
  cases edits with
  | nil =>
    obtain ⟨all, hall, happly⟩ := Checked.bind_eq_ok.1 happly
    obtain rfl := Except.ok.inj happly
    obtain ⟨empty, heq, hempty⟩ := sliceFrom_eq_ok_iff.1 hall
    obtain rfl := (byteLength_eq_zero_iff empty).1 hempty
    exact ⟨rest, heq.symm.trans htext⟩
  | cons edit edits =>
    rw [applyEdits, if_neg (by simp)] at happly
    obtain ⟨kept, hkept, happly⟩ := Checked.bind_eq_ok.1 happly
    obtain ⟨later, -, happly⟩ := Checked.bind_eq_ok.1 happly
    obtain rfl := Except.ok.inj happly
    -- the first edit is made, and the text up to it is kept
    obtain ⟨empty, tail, heq, hempty, hlength⟩ := slice_eq_ok_iff.1 hkept
    obtain rfl := (byteLength_eq_zero_iff empty).1 hempty
    have hle : byteLength front ≤ byteLength kept := by
      rw [byteLength_nil, Nat.zero_add] at hlength
      exact hlength ▸ hedits edit List.mem_cons_self
    obtain ⟨k, rfl, -⟩ := append_split (htext.symm.trans heq) hle
    exact ⟨k ++ edit.text ++ later.output, by simp⟩

/-- A pass with fitting fixes succeeds and keeps what stands in front of them. -/
theorem exists_applyFixes {front rest : Text} (htext : text = front ++ rest)
    (hds : ∀ d ∈ ds, ∀ fix ∈ d.fix, fix.FitsFrom text (byteLength front)) :
    ∃ outcome rest', text.applyFixes ds = .ok outcome ∧ outcome.output = front ++ rest' := by
  have hmerged : ∀ fix ∈ ds.filterMap (·.fix), ∃ edit?, fix.merged text = .ok edit? ∧
      ∀ edit ∈ edit?, edit.Fits text ∧ byteLength front ≤ edit.span.start := by
    intro fix hfix
    obtain ⟨d, hd, hfix⟩ := List.mem_filterMap.1 hfix
    exact Fix.exists_merged (hds d hd fix hfix)
  choose! merge hmerge hfits using hmerged
  have hedits : ∀ e ∈ (((ds.filterMap (·.fix)).map merge).filterMap id).mergeSort Edit.precedes,
      e.Fits text ∧ byteLength front ≤ e.span.start := by
    intro e he
    obtain ⟨edit?, hedit?, heq⟩ := List.mem_filterMap.1 (List.mem_mergeSort.1 he)
    obtain ⟨fix, hfix, rfl⟩ := List.mem_map.1 hedit?
    exact hfits fix hfix e heq
  obtain ⟨outcome, houtcome⟩ := exists_applyEdits none (fun e he => (hedits e he).1)
    (boundary_zero text) fun n _ => Nat.zero_le n
  obtain ⟨rest', hrest'⟩ := applyEdits_keeps_front htext (fun e he => (hedits e he).2) houtcome
  simp only [applyFixes, Checked.mapM_eq_ok hmerge, bind, Except.bind, houtcome]
  exact ⟨_, rest', rfl, hrest'⟩

/-- The first of some edits is always made. -/
theorem applyEdits_applied_pos (hne : edits ≠ [])
    (happly : text.applyEdits 0 none edits = .ok outcome) : 0 < outcome.applied := by
  cases edits with
  | nil => exact absurd rfl hne
  | cons edit edits =>
    rw [applyEdits, if_neg (by simp)] at happly
    obtain ⟨kept, -, happly⟩ := Checked.bind_eq_ok.1 happly
    obtain ⟨later, -, happly⟩ := Checked.bind_eq_ok.1 happly
    obtain rfl := Except.ok.inj happly
    exact Nat.succ_pos _

/-- If a pass applies nothing, no fix merges. -/
theorem merged_eq_none_of_applied_eq_zero (happly : text.applyFixes ds = .ok outcome)
    (hzero : outcome.applied = 0) {d : Diagnostic} (hd : d ∈ ds) {fix : Fix}
    (hfix : d.fix = some fix) : fix.merged text = .ok none := by
  obtain ⟨merged, hmerged, happly⟩ := Checked.bind_eq_ok.1 happly
  obtain ⟨made, hmade, happly⟩ := Checked.bind_eq_ok.1 happly
  obtain rfl := Except.ok.inj happly
  have hnil : merged.filterMap id = [] := by
    by_cases hnil : (merged.filterMap id).mergeSort Edit.precedes = []
    · have hlength := congrArg List.length hnil
      rw [List.length_mergeSort] at hlength
      exact List.length_eq_zero_iff.1 hlength
    · have hpos := applyEdits_applied_pos hnil hmade
      exact absurd hzero (Nat.ne_of_gt hpos)
  have hmem : fix ∈ ds.filterMap (·.fix) := List.mem_filterMap.2 ⟨d, hd, hfix⟩
  obtain ⟨edit?, hedit?, heq⟩ := Checked.exists_mem_of_mapM hmerged hmem
  rw [heq, show edit? = none from List.filterMap_eq_nil_iff.1 hnil edit? hedit?]

end Text

end ImportOrder
