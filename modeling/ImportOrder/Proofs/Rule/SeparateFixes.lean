import ImportOrder.Proofs.Merging
import ImportOrder.Proofs.Rule.UntouchedLines

/-!
# The fixes for blank lines keep apart

A fix of the rule on blank lines makes one edit in the space between the ranges of two neighbouring
statements: it replaces the whole space, or it inserts a terminator where a line starts in the
space. Between two spaces lies the range of a statement, which takes up room, so that the edits do
not even touch, and a pass makes all of them.

## Main definitions

- `Text.MergesApart`: fixes that merge into edits which do not touch
- `ImportNewlines.MendsBetween`: a fix with one edit, in the space between two ranges

## Main statements

- `Text.MergesApart.exists_applyFixes`: a pass makes all of such edits
- `ImportNewlines.exists_checkPair_mends`: the report about two neighbouring statements
- `ImportNewlines.exists_reports_apart`: the reports along a row of statements
- `ImportNewlines.fixes_never_conflict`
-/

namespace ImportOrder

/-! ## Edits that are apart -/

theorem Edit.foldl_select_of_separated {selected edits : List Edit}
    (h : (selected ++ edits).Pairwise fun e f => e.span.stop < f.span.start) :
    edits.foldl select selected = selected ++ edits := by
  induction edits generalizing selected with
  | nil => simp
  | cons edit edits ih =>
    have hselect : select selected edit = selected ++ [edit] := by
      apply select_of_not_any
      cases hlast : selected.getLast? with
      | none => simp
      | some last =>
        have hlt := (List.pairwise_append.1 h).2.2 last (List.mem_of_getLast? hlast) edit
          List.mem_cons_self
        simpa using hlt
    rw [List.foldl_cons, hselect, ih (by simpa using h), List.append_assoc, List.singleton_append]

namespace Text

variable {text : Text} {ds : List Diagnostic} {fixes : List Fix} {edits : List Edit}

/-- The fixes merge, each into one of the edits, and the edits follow one another in the text
without touching. -/
structure MergesApart (text : Text) (fixes : List Fix) (edits : List Edit) : Prop where
  merged : List.Forall₂ (fun fix edit => fix.merged text = .ok (some edit)) fixes edits
  spans : ∀ edit ∈ edits, text.HasSpan edit.span
  separated : edits.Pairwise fun e f => e.span.stop < f.span.start

theorem MergesApart.cons {fix : Fix} {edit : Edit} (h : text.MergesApart fixes edits)
    (hfix : fix.merged text = .ok (some edit)) (hspan : text.HasSpan edit.span)
    (hlt : ∀ e ∈ edits, edit.span.stop < e.span.start) :
    text.MergesApart (fix :: fixes) (edit :: edits) :=
  ⟨.cons hfix h.merged, List.forall_mem_cons.2 ⟨hspan, h.spans⟩,
    List.pairwise_cons.2 ⟨hlt, h.separated⟩⟩

theorem MergesApart.mapM_merged (h : text.MergesApart fixes edits) :
    fixes.mapM (·.merged text) = .ok (edits.map some) := by
  obtain ⟨hmerged, -, -⟩ := h
  induction hmerged with
  | nil => rfl
  | cons hfix _ ih =>
    rw [List.mapM_cons, hfix, Checked.ok_bind, ih]
    rfl

/-- Of fixes that merge into edits which are apart, a pass makes every one. -/
theorem MergesApart.exists_applyFixes (h : text.MergesApart (ds.filterMap (·.fix)) edits) :
    ∃ outcome, text.applyFixes ds = .ok outcome ∧ outcome.applied = edits.length ∧
      outcome.skipped = 0 ∧ text.splicedAll edits = .ok outcome.output := by
  have hsorted : edits.mergeSort Edit.precedes = edits := by
    apply List.mergeSort_of_pairwise
    apply h.separated.imp_of_mem
    intro e f he _ hlt
    have := (h.spans e he).start_le_stop
    exact Edit.precedes_iff.2 (.inl (by omega))
  have hselection : Edit.selection edits = edits := Edit.foldl_select_of_separated h.separated
  obtain ⟨made, happly, hcount, hsplice⟩ := applyEdits_eq_splices_selection h.spans
  rw [hselection] at hcount hsplice
  have hskipped : made.skipped = 0 := by
    have := applyEdits_count happly
    omega
  have hpass : text.applyFixes ds = .ok made := by
    simp only [applyFixes, h.mapM_merged, Checked.ok_bind, List.filterMap_map, Function.id_comp,
      List.filterMap_some, hsorted, happly, h.merged.length_eq, Nat.sub_self, Nat.add_zero]
    rfl
  exact ⟨made, hpass, hcount, hskipped, hsplice⟩

end Text

/-! ## Ranges -/

namespace Source

variable {source : Source} {s : Statement} {range : AttachedRange}

/-- The range of a statement takes up room, as the statement does. -/
theorem Arranged.bare_start_lt (h : source.Arranged) (hs : s ∈ source.statements)
    (hrange : source.attachedRange s.span = .ok range) : range.bare.start < range.bare.stop := by
  obtain ⟨hashbang, hstart, hstop⟩ := bare_of_attachedRange hrange
  have hspan := h.statements s hs
  have hroom := h.room_span (List.mem_map_of_mem hs)
  rw [hstart, hstop]
  calc source.attachedStart hashbang _ _ s.span.start (source.commentsBefore s.span)
    _ ≤ s.span.start := (h.attachedStart_boundary hspan _ _ _).1
    _ < s.span.stop := hroom
    _ ≤ _ := (h.attachedStop_boundary hspan _ _).1

end Source

/-! ## Reports -/

namespace ImportNewlines

variable {source : Source} {left right : Span} {fix : Fix} {before rest : List Statement}
  {s : Statement}

/-- The fix makes one edit, and that in the space between two ranges. -/
def MendsBetween (text : Text) (left right : Span) (fix : Fix) : Prop :=
  ∃ edit, fix.edits = [edit] ∧ text.HasSpan edit.span ∧ left.stop ≤ edit.span.start ∧
    edit.span.stop ≤ right.start

theorem mendsBetween_of_removalFix (hfits : fix.FitsFrom source.text left.stop)
    (h : removalFix source left right = .ok (some fix)) :
    MendsBetween source.text left right fix := by
  rw [removalFix] at h
  cases hgap : source.gap? left right with
  | none => simp [hgap] at h
  | some gap =>
    obtain ⟨hle, rfl⟩ := Source.gap?_eq_some hgap
    rw [hgap] at h
    obtain ⟨indentation, -, h⟩ := Checked.bind_eq_ok.1 h
    obtain ⟨terminator, -, h⟩ := Checked.bind_eq_ok.1 h
    obtain rfl := Option.some.inj (Except.ok.inj h)
    obtain ⟨⟨hroom, hstart, hstop⟩, -⟩ := hfits _ List.mem_cons_self
    exact ⟨_, rfl, ⟨hroom, hstart, hstop⟩, Nat.le_refl _, Nat.le_refl _⟩

theorem mendsBetween_of_insertionFix (hfits : fix.FitsFrom source.text left.stop)
    (h : insertionFix source left right = .ok (some fix)) :
    MendsBetween source.text left right fix := by
  rw [insertionFix] at h
  cases hgap : source.gap? left right with
  | none => simp [hgap] at h
  | some gap =>
    obtain ⟨hle, rfl⟩ := Source.gap?_eq_some hgap
    rw [hgap] at h
    obtain ⟨terminator, -, h⟩ := Checked.bind_eq_ok.1 h
    obtain rfl := Option.some.inj (Except.ok.inj h)
    obtain ⟨⟨hroom, hstart, hstop⟩, hfrom⟩ := hfits _ List.mem_cons_self
    refine ⟨_, rfl, ⟨hroom, hstart, hstop⟩, hfrom, ?_⟩
    split
    · -- the line of the second range does not start behind that range
      exact (boundary_lineStart source.text right.start).2
    · exact Nat.le_refl _

/-- There is at most one report about two ranges, and its fix stays between them. -/
theorem exists_checkPair_mends (hleft : source.text.Boundary left.stop)
    (hright : source.text.Boundary right.start) (g h : Option Group) :
    ∃ report? : Option Diagnostic, checkPair source ⟨g, left⟩ ⟨h, right⟩ = .ok report?.toList ∧
      ∀ fix ∈ report?.bind (·.fix), MendsBetween source.text left right fix := by
  obtain ⟨removal, hremoval, hfits⟩ := exists_removalFix_fits hleft hright
  obtain ⟨insertion, hinsertion, hfits'⟩ := exists_insertionFix_fits hleft hright
  have hsilent : ∀ fix ∈ (none : Option Diagnostic).bind (·.fix),
      MendsBetween source.text left right fix := by simp
  rw [checkPair]
  split
  · simp only [hremoval, hinsertion, Checked.ok_bind]
    split
    · refine ⟨some _, rfl, fun fix hfix => ?_⟩
      obtain rfl : removal = some fix := hfix
      exact mendsBetween_of_removalFix (hfits fix rfl) hremoval
    · split
      · refine ⟨some _, rfl, fun fix hfix => ?_⟩
        obtain rfl : insertion = some fix := hfix
        exact mendsBetween_of_insertionFix (hfits' fix rfl) hinsertion
      · exact ⟨none, rfl, hsilent⟩
  · exact ⟨none, rfl, hsilent⟩

/-- A fix with one edit merges into an edit at the same place. -/
theorem MendsBetween.exists_merged {text : Text} (h : MendsBetween text left right fix) :
    ∃ edit, fix.merged text = .ok (some edit) ∧ text.HasSpan edit.span ∧
      left.stop ≤ edit.span.start ∧ edit.span.stop ≤ right.start := by
  obtain ⟨own, hedits, hspan, hstart, hstop⟩ := h
  have hspans : ∀ edit ∈ fix.edits, text.HasSpan edit.span := by simpa [hedits] using hspan
  obtain ⟨edit, -, hmerged, hextent, -⟩ :=
    Fix.exists_merged_of_apart hspans (by simp [hedits]) (by simp [hedits])
  obtain ⟨first, hfirst, hfirst_start⟩ := hextent.start_isLeast.1
  obtain ⟨last, hlast, hlast_stop⟩ := hextent.stop_isGreatest.1
  rw [hedits, List.mem_singleton] at hfirst hlast
  subst first last
  exact ⟨edit, hmerged, hextent.hasSpan hspans, hfirst_start ▸ hstart, hlast_stop ▸ hstop⟩

/-- The reports about the statements behind `s`: all fixes merge, and the edits follow one another
behind the range of `s`. -/
theorem exists_reports_apart (h : source.Arranged) (packages : Packages)
    (hst : source.statements = before ++ s :: rest) {range : AttachedRange}
    (hrange : source.attachedRange s.span = .ok range) :
    ∃ reports edits, (((s :: rest).zip rest).mapM fun pair =>
        checkPair source (itemOf source packages pair.1) (itemOf source packages pair.2)) =
        .ok reports ∧
      source.text.MergesApart (reports.flatten.filterMap (·.fix)) edits ∧
      ∀ e ∈ edits, range.bare.stop ≤ e.span.start := by
  -- the induction is on the statements behind, and it carries along where their edits start
  induction rest generalizing before s range with
  | nil => exact ⟨[], [], rfl, ⟨.nil, nofun, .nil⟩, nofun⟩
  | cons t rest ih =>
    have hs : s ∈ source.statements := by simp [hst]
    have ht : t ∈ source.statements := by simp [hst]
    have hspans : source.spans =
        before.map Statement.span ++ s.span :: t.span :: rest.map Statement.span := by
      simp [Source.spans, hst]
    obtain ⟨own, hown, -, hbare, -⟩ := h.exists_attachedRange (h.statements s hs)
    obtain rfl : own = range := Except.ok.inj (hown.symm.trans hrange)
    obtain ⟨next, hnext, -, hnext_bare, -⟩ := h.exists_attachedRange (h.statements t ht)
    have hroom := h.bare_start_lt ht hnext
    have hgap := h.bare_stop_le_bare_start hspans hrange hnext
    obtain ⟨report?, hcheck, hmends⟩ := exists_checkPair_mends hbare.stop_boundary
      hnext_bare.start_boundary (itemOf source packages s).group (itemOf source packages t).group
    have hst' : source.statements = (before ++ [s]) ++ t :: rest := by simp [hst]
    obtain ⟨reports, edits, hreports, hapart, hbehind⟩ := ih hst' hnext
    have hpair : checkPair source (itemOf source packages s) (itemOf source packages t) =
        .ok report?.toList := by
      simp only [itemOf, Source.rangeOf, hrange, hnext] at hcheck ⊢
      exact hcheck
    have hall : (((s :: t :: rest).zip (t :: rest)).mapM fun pair =>
        checkPair source (itemOf source packages pair.1) (itemOf source packages pair.2)) =
        .ok (report?.toList :: reports) := by
      rw [List.zip_cons_cons, List.mapM_cons, hpair, Checked.ok_bind, hreports]
      rfl
    have hfixes : (report?.toList :: reports).flatten.filterMap (·.fix) =
        (report?.bind (·.fix)).toList ++ reports.flatten.filterMap (·.fix) := by
      rw [List.flatten_cons, List.filterMap_append]
      cases report? <;> rfl
    refine ⟨report?.toList :: reports, ?_⟩
    rw [hfixes]
    cases hfix : report?.bind (·.fix) with
    | none =>
      refine ⟨edits, hall, hapart, fun e he => ?_⟩
      have := hbehind e he
      omega
    | some fix =>
      obtain ⟨edit, hmerged, hspan, hstart, hstop⟩ := (hmends fix hfix).exists_merged
      refine ⟨edit :: edits, hall, hapart.cons hmerged hspan fun e he => ?_, ?_⟩
      · have := hbehind e he
        omega
      · refine List.forall_mem_cons.2 ⟨hstart, fun e he => ?_⟩
        have := hbehind e he
        omega

/-- The fixes of the rule never conflict.

In a source whose statements and comments are in order and take up room, all fixes of one check
merge, the merged edits follow one another without touching, and a pass makes every one of them and
leaves out none, whatever the space between the statements is like. -/
theorem fixes_never_conflict (h : source.Arranged) (packages : Packages) :
    ∃ ds edits outcome, rule.check source packages = .ok ds ∧
      source.text.MergesApart (ds.filterMap (·.fix)) edits ∧
      source.text.applyFixes ds = .ok outcome ∧
      outcome.applied = (ds.filterMap (·.fix)).length ∧ outcome.skipped = 0 ∧
      source.text.splicedAll edits = .ok outcome.output := by
  have hcheck := check_eq_mapM fun s hs => item_eq_of_sliceable h.toSliceable packages hs
  obtain ⟨ds, edits, hds, hapart⟩ : ∃ ds edits, rule.check source packages = .ok ds ∧
      source.text.MergesApart (ds.filterMap (·.fix)) edits := by
    cases hst : source.statements with
    | nil =>
      rw [hst] at hcheck
      exact ⟨[], [], hcheck, .nil, nofun, .nil⟩
    | cons s rest =>
      obtain ⟨range, hrange, -⟩ := h.exists_attachedRange (h.statements s (by simp [hst]))
      obtain ⟨reports, edits, hreports, hapart, -⟩ :=
        exists_reports_apart h packages (show source.statements = [] ++ s :: rest from hst) hrange
      rw [hst, List.tail_cons, hreports] at hcheck
      exact ⟨reports.flatten, edits, hcheck, hapart⟩
  obtain ⟨outcome, happly, happlied, hskipped, hsplice⟩ := hapart.exists_applyFixes
  exact ⟨ds, edits, outcome, hds, hapart, happly, happlied.trans hapart.merged.length_eq.symm,
    hskipped, hsplice⟩

/-- Imports of three groups with a blank line too many, a blank line missing between two lines, and
two imports on one line. -/
def jumbled : Source where
  text := "import 'a';\n\nimport 'b'; import {c} from 'c';\nimport {d} from './d';\n".toList
  statements := [⟨.importDecl, 0, false, some "a", ⟨0, 11⟩⟩,
    ⟨.importDecl, 0, false, some "b", ⟨13, 24⟩⟩, ⟨.importDecl, 1, false, some "c", ⟨25, 45⟩⟩,
    ⟨.importDecl, 1, false, some "./d", ⟨46, 68⟩⟩]
  comments := []

theorem jumbled_fixes_never_conflict : jumbled.Arranged ∧
    ∃ ds edits outcome, rule.check jumbled ["c"] = .ok ds ∧
      jumbled.text.MergesApart (ds.filterMap (·.fix)) edits ∧ edits.length = 3 ∧
      jumbled.text.applyFixes ds = .ok outcome ∧ outcome.applied = 3 ∧ outcome.skipped = 0 := by
  have h : jumbled.Arranged := ⟨⟨by decide, by decide⟩, by decide, by decide, by decide⟩
  have hfixes : (rule.check jumbled ["c"]).map (fun ds => (ds.filterMap (·.fix)).length) =
      .ok 3 := by
    decide +kernel
  obtain ⟨ds, edits, outcome, hcheck, hapart, happly, happlied, hskipped, -⟩ :=
    fixes_never_conflict h ["c"]
  rw [hcheck] at hfixes
  have hcount : (ds.filterMap (·.fix)).length = 3 := Except.ok.inj hfixes
  exact ⟨h, ds, edits, outcome, hcheck, hapart, hapart.merged.length_eq.symm.trans hcount, happly,
    happlied.trans hcount, hskipped⟩

end ImportNewlines

end ImportOrder
