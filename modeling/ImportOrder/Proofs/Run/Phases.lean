import ImportOrder.Proofs.Fixing
import ImportOrder.Proofs.Rule.Reports
import Mathlib

/-!
# The rules settle one after the other

In a run with the three rules the rule on the order of statements settles first, then the rule on
the order of module paths, and then the rule on blank lines. A pass is made by a later rule only if
the earlier ones have nothing to report, as all their reports can be acted on; and a later rule
gives the earlier ones nothing new to report: sorting inside a run of statements keeps the sequence
of categories, and blanks are of no concern to either rule on order.

## Main definitions

- `Fixing.Silent`: a rule with nothing to report about a text
- `Fixing.Pass.Reread`: how the texts before and after a pass are read

## Main statements

- `Fixing.check_eq_filter`: the reports that bear the name of a rule are its own
- `Fixing.check_eq_nil_of_idle`: a rule on order without a fix to apply has nothing to report
- `Fixing.Pass.Led.silent`: the rules that are silent before and after a pass
- `Fixing.rules_settle_in_phases`: the passes of a run
-/

namespace ImportOrder

variable {source : Source} {packages : Packages}

namespace ImportSort

/-- Sorting inside the runs does not put categories out of order. -/
theorem pass_keeps_order {moved : Source} (h : source.WellFormed)
    (hpass : rule.pass packages source = .ok moved)
    (horder : StatementOrder.rule.check source packages = .ok []) :
    StatementOrder.rule.check moved packages = .ok [] := by
  obtain ⟨ds, -, hpass', hmoved, hsteps, -⟩ := exists_pass h packages
  obtain rfl := Except.ok.inj (hpass'.symm.trans hpass)
  rw [StatementOrder.check_eq_nil_iff hmoved, Source.categories_eq_of_steps hsteps]
  exact (StatementOrder.check_eq_nil_iff h).1 horder

end ImportSort

namespace ImportNewlines

/-- Blank lines are of no concern to the rules on order. -/
theorem pass_keeps_order {moved : Source} (h : source.Tidy)
    (hpass : rule.pass packages source = .ok moved) :
    (StatementOrder.rule.check moved packages = .ok [] ↔
      StatementOrder.rule.check source packages = .ok []) ∧
    (ImportSort.rule.check moved packages = .ok [] ↔
      ImportSort.rule.check source packages = .ok []) := by
  obtain ⟨ds, outcome, -, -, -, hpass', hmoved, hpassages, -⟩ := exists_pass h packages
  obtain rfl := Except.ok.inj (hpass'.symm.trans hpass)
  rw [StatementOrder.check_eq_nil_iff hmoved.toWellFormed,
    StatementOrder.check_eq_nil_iff h.toWellFormed,
    ImportSort.check_eq_nil_iff hmoved.toWellFormed, ImportSort.check_eq_nil_iff h.toWellFormed,
    Source.runs, Source.runs, hpassages]
  exact ⟨Iff.rfl, Iff.rfl⟩

end ImportNewlines

namespace Fixing

variable {parse : Text → Option Source} {ds : List Diagnostic} {rule : Rule}

/-! ## The reports of the three rules -/

theorem name_eq_of_mem (h : source.WellFormed) (hrule : rule ∈ allRules)
    (hcheck : rule.check source packages = .ok ds) : ∀ d ∈ ds, d.rule = rule.name := by
  intro d hd
  simp only [allRules, List.mem_cons, List.not_mem_nil, or_false] at hrule
  rcases hrule with rfl | rfl | rfl
  · exact (StatementOrder.raises_of_mem h hcheck hd).rule_eq
  · exact ImportSort.rule_eq_of_mem hcheck hd
  · exact ImportNewlines.rule_eq_of_mem hcheck hd

/-- If the rules have different names, the reports that bear the name of one of them are its own. -/
theorem filter_flatten_reports {rules : List Rule} {reports : Rule → List Diagnostic}
    (hnames : (rules.map (·.name)).Nodup)
    (hreports : ∀ rule ∈ rules, ∀ d ∈ reports rule, d.rule = rule.name) (hrule : rule ∈ rules) :
    (rules.map reports).flatten.filter (·.rule = rule.name) = reports rule := by
  induction rules with
  | nil => exact absurd hrule List.not_mem_nil
  | cons first rules ih =>
    rw [List.map_cons, List.nodup_cons] at hnames
    obtain ⟨hfirst, hothers⟩ := List.forall_mem_cons.1 hreports
    rw [List.map_cons, List.flatten_cons, List.filter_append]
    cases List.mem_cons.1 hrule with
    | inl heq =>
      subst heq
      have hnone : (rules.map reports).flatten.filter (·.rule = rule.name) = [] := by
        apply List.filter_eq_nil_iff.2
        intro d hd heq
        obtain ⟨own, hown, hd⟩ := List.mem_flatten.1 hd
        obtain ⟨other, hother, rfl⟩ := List.mem_map.1 hown
        rw [decide_eq_true_eq, hothers other hother d hd] at heq
        exact hnames.1 (heq ▸ List.mem_map_of_mem hother)
      rw [hnone, List.append_nil]
      exact List.filter_eq_self.2 fun d hd => decide_eq_true (hfirst d hd)
    | inr hrule =>
      have hnone : (reports first).filter (·.rule = rule.name) = [] := by
        apply List.filter_eq_nil_iff.2
        intro d hd heq
        rw [decide_eq_true_eq, hfirst d hd] at heq
        exact hnames.1 (heq ▸ List.mem_map_of_mem hrule)
      rw [hnone, List.nil_append, ih hnames.2 hothers hrule]

/-- The reports that bear the name of a rule are its own. -/
theorem check_eq_filter (h : source.WellFormed)
    (hds : source.diagnostics allRules packages = .ok ds) (hrule : rule ∈ allRules) :
    rule.check source packages = .ok (ds.filter (·.rule = rule.name)) := by
  obtain ⟨all, hall, hds⟩ := Checked.bind_eq_ok.1 hds
  obtain rfl := Except.ok.inj hds
  have hcheck : ∀ rule ∈ allRules, ∃ own, rule.check source packages = .ok own := by
    intro rule hrule
    obtain ⟨own, -, hown⟩ := Checked.exists_mem_of_mapM hall hrule
    exact ⟨own, hown⟩
  choose! reports hreports using hcheck
  rw [Checked.mapM_eq_ok hreports] at hall
  rw [← Except.ok.inj hall, hreports rule hrule, filter_flatten_reports (by decide)
    (fun rule hrule => name_eq_of_mem h hrule (hreports rule hrule)) hrule]

/-- The fixes of the rules on order merge. -/
theorem merged_ne_none_of_mem (h : source.WellFormed) (hrule : rule ∈ orderRules)
    (hcheck : rule.check source packages = .ok ds) {d : Diagnostic} (hd : d ∈ ds) :
    ∃ fix, d.fix = some fix ∧ fix.merged source.text ≠ .ok none := by
  simp only [orderRules, List.mem_cons, List.not_mem_nil, or_false] at hrule
  rcases hrule with rfl | rfl
  · exact (StatementOrder.raises_of_mem h hcheck hd).merged_ne_none h
  · obtain ⟨sorts, hsorts, hmends, -⟩ := ImportSort.exists_check h packages
    obtain rfl := Except.ok.inj (hsorts.symm.trans hcheck)
    obtain ⟨fix, hfix, front, old, new, back, hchanges, -⟩ := (hmends d hd).1
    exact ⟨fix, hfix, by simp [hchanges.merged]⟩

/-- A rule on order without a fix to apply has nothing to report. -/
theorem check_eq_nil_of_idle (h : source.WellFormed)
    (hds : source.diagnostics allRules packages = .ok ds) (hrule : rule ∈ orderRules)
    (hidle : Idle source.text ds rule) : rule.check source packages = .ok [] := by
  have hmem : rule ∈ allRules := List.subset_append_left orderRules [ImportNewlines.rule] hrule
  have hcheck := check_eq_filter h hds hmem
  obtain ⟨outcome, happly, hzero⟩ := hidle
  cases hown : ds.filter (·.rule = rule.name) with
  | nil => rw [hcheck, hown]
  | cons d own =>
    rw [hown] at hcheck happly
    obtain ⟨fix, hfix, hmerges⟩ := merged_ne_none_of_mem h hrule hcheck List.mem_cons_self
    exact absurd (Text.merged_eq_none_of_applied_eq_zero happly hzero List.mem_cons_self hfix)
      hmerges

/-! ## Passes and runs -/

theorem allRules_split {earlier later : List Rule} (h : allRules = earlier ++ rule :: later) :
    rule = StatementOrder.rule ∧ earlier = [] ∨
      rule = ImportSort.rule ∧ earlier = [StatementOrder.rule] ∨
      rule = ImportNewlines.rule ∧ earlier = orderRules := by
  match earlier with
  | [] => exact .inl ⟨(List.cons.inj h).1.symm, rfl⟩
  | [first] =>
    simp only [allRules, List.cons_append, List.nil_append, List.cons.injEq] at h
    exact .inr (.inl ⟨h.2.1.symm, by rw [h.1]⟩)
  | [first, second] =>
    simp only [allRules, List.cons_append, List.nil_append, List.cons.injEq] at h
    exact .inr (.inr ⟨h.2.2.1.symm, by rw [orderRules, h.1, h.2.1]⟩)
  | first :: second :: third :: earlier => simp [allRules] at h

/-- A rule has nothing to report about a text, if the text can be read. -/
def Silent (parse : Text → Option Source) (packages : Packages) (rule : Rule) (text : Text) : Prop :=
  ∀ source, parse text = some source → rule.check source packages = .ok []

/-- The text before the pass is read as a tidy source. What the rule of the pass makes of that
source, if it can be read at all, is read as the statements and comments where they have gone. -/
structure Pass.Reread (parse : Text → Option Source) (packages : Packages) (pass : Pass) :
    Prop where
  tidy : ∀ source, parse pass.before = some source → source.text = pass.before ∧ source.Tidy
  moved : ∀ source, parse pass.before = some source → ∀ moved,
    pass.rule.pass packages source = .ok moved → ∀ next, parse moved.text = some next → next = moved

section Run

variable {pass : Pass} {passes : List Pass} {text output : Text}

theorem Pass.Led.mem {rules : List Rule} (hled : pass.Led rules) : pass.rule ∈ rules := by
  obtain ⟨earlier, later, hrules, -⟩ := hled.earliest
  rw [hrules]
  exact List.mem_append_right _ List.mem_cons_self

theorem Makes.rule_mem {rules : List Rule} (h : Makes parse rules packages text passes output) :
    ∀ p ∈ passes, p.rule ∈ rules := by
  induction h with
  | stop => simp
  | pass hdiagnose hled hrest ih => exact List.forall_mem_cons.2 ⟨hled.mem, ih⟩

/-- The rule that leads a pass is not silent. -/
theorem Pass.Led.not_silent (hled : pass.Led allRules) (hread : pass.Reread parse packages)
    (hdiagnose : diagnose parse allRules packages pass.before = .ok pass.diagnostics) :
    ¬ Silent parse packages pass.rule pass.before := by
  intro hsilent
  obtain ⟨source, hsource, hds⟩ := diagnose_eq_ok hdiagnose
  obtain ⟨htext, htidy⟩ := hread.tidy source hsource
  have hown := check_eq_filter htidy.toWellFormed hds hled.mem
  rw [hsilent source hsource] at hown
  have happlies := hled.applies
  rw [← Except.ok.inj hown, Text.applyFixes_of_fixless (by simp)] at happlies
  have hpos := hled.applied_pos
  rw [← Except.ok.inj happlies] at hpos
  exact absurd hpos (Nat.lt_irrefl 0)

/-- The rules that are silent before and after a pass. -/
theorem Pass.Led.silent (hled : pass.Led allRules) (hread : pass.Reread parse packages)
    (hdiagnose : diagnose parse allRules packages pass.before = .ok pass.diagnostics) :
    pass.rule = StatementOrder.rule ∨
    (pass.rule = ImportSort.rule ∧ Silent parse packages StatementOrder.rule pass.before ∧
      Silent parse packages StatementOrder.rule pass.outcome.output) ∨
    (pass.rule = ImportNewlines.rule ∧ ∀ rule ∈ orderRules,
      Silent parse packages rule pass.before ∧ Silent parse packages rule pass.outcome.output) := by
  obtain ⟨source, hsource, hds⟩ := diagnose_eq_ok hdiagnose
  obtain ⟨htext, htidy⟩ := hread.tidy source hsource
  have h := htidy.toWellFormed
  obtain ⟨earlier, later, hrules, hidle⟩ := hled.earliest
  have hquiet : ∀ rule ∈ earlier, rule ∈ orderRules → rule.check source packages = .ok [] := by
    intro rule hrule horder
    exact check_eq_nil_of_idle h hds horder (htext ▸ hidle rule hrule)
  have hbefore : ∀ rule, rule.check source packages = .ok [] →
      Silent parse packages rule pass.before := by
    intro rule hcheck source' hsource'
    obtain rfl := Option.some.inj (hsource.symm.trans hsource')
    exact hcheck
  -- what is read after the pass is what the pass makes of the source
  obtain ⟨moved, hpass, hmoved⟩ : ∃ moved, pass.rule.pass packages source = .ok moved ∧
      moved.text = pass.outcome.output := by
    refine ⟨{ source.after (pass.diagnostics.filter (·.rule = pass.rule.name)) with
      text := pass.outcome.output }, ?_, rfl⟩
    rw [Rule.pass, check_eq_filter h hds hled.mem, Checked.ok_bind, htext, hled.applies]
    rfl
  have hafter : ∀ rule : Rule, rule.check moved packages = .ok [] →
      Silent parse packages rule pass.outcome.output := by
    intro rule hcheck next hnext
    rw [← hmoved] at hnext
    rw [hread.moved source hsource moved hpass next hnext]
    exact hcheck
  rcases allRules_split hrules with ⟨heq, -⟩ | ⟨heq, rfl⟩ | ⟨heq, rfl⟩
  · exact .inl heq
  · have horder := hquiet StatementOrder.rule List.mem_cons_self (by simp [orderRules])
    rw [heq] at hpass
    exact .inr (.inl ⟨heq, hbefore _ horder, hafter _ (ImportSort.pass_keeps_order h hpass horder)⟩)
  · rw [heq] at hpass
    obtain ⟨hkeeps, hkeeps'⟩ := ImportNewlines.pass_keeps_order htidy hpass
    refine .inr (.inr ⟨heq, fun rule hrule => ?_⟩)
    have hcheck := hquiet rule hrule hrule
    refine ⟨hbefore rule hcheck, hafter rule ?_⟩
    simp only [orderRules, List.mem_cons, List.not_mem_nil, or_false] at hrule
    rcases hrule with rfl | rfl
    · exact hkeeps.2 hcheck
    · exact hkeeps'.2 hcheck

/-- Where the rules on order are silent, only blank lines are mended. -/
theorem Makes.newlines (h : Makes parse allRules packages text passes output)
    (hread : ∀ p ∈ passes, p.Reread parse packages)
    (hsilent : ∀ rule ∈ orderRules, Silent parse packages rule text) :
    ∀ p ∈ passes, p.rule = ImportNewlines.rule ∧ ∀ rule ∈ orderRules,
      Silent parse packages rule p.before ∧ Silent parse packages rule p.outcome.output := by
  induction h with
  | stop => simp
  | @pass pass passes output hdiagnose hled _ ih =>
    obtain ⟨hfirst, hothers⟩ := List.forall_mem_cons.1 hread
    have hnot := hled.not_silent hfirst hdiagnose
    rcases hled.silent hfirst hdiagnose with heq | ⟨heq, -⟩ | hlast
    · exact absurd (heq ▸ hsilent _ (by simp [orderRules])) hnot
    · exact absurd (heq ▸ hsilent _ (by simp [orderRules])) hnot
    · exact List.forall_mem_cons.2 ⟨hlast, ih hothers fun rule hrule => (hlast.2 rule hrule).2⟩

/-- Where the rule on the order of statements is silent, module paths are sorted first. -/
theorem Makes.sorts (h : Makes parse allRules packages text passes output)
    (hread : ∀ p ∈ passes, p.Reread parse packages)
    (hsilent : Silent parse packages StatementOrder.rule text) :
    ∃ sorts newlines, passes = sorts ++ newlines ∧
      (∀ p ∈ sorts, p.rule = ImportSort.rule ∧
        Silent parse packages StatementOrder.rule p.before ∧
        Silent parse packages StatementOrder.rule p.outcome.output) ∧
      ∀ p ∈ newlines, p.rule = ImportNewlines.rule ∧ ∀ rule ∈ orderRules,
        Silent parse packages rule p.before ∧ Silent parse packages rule p.outcome.output := by
  induction h with
  | stop => exact ⟨[], [], rfl, by simp, by simp⟩
  | @pass pass passes output hdiagnose hled hrest ih =>
    obtain ⟨hfirst, hothers⟩ := List.forall_mem_cons.1 hread
    have hnot := hled.not_silent hfirst hdiagnose
    rcases hled.silent hfirst hdiagnose with heq | hsort | hlast
    · exact absurd (heq ▸ hsilent) hnot
    · obtain ⟨sorts, newlines, rfl, hsorts, hnewlines⟩ := ih hothers hsort.2.2
      exact ⟨pass :: sorts, newlines, rfl, List.forall_mem_cons.2 ⟨hsort, hsorts⟩, hnewlines⟩
    · refine ⟨[], pass :: passes, rfl, by simp, List.forall_mem_cons.2 ⟨hlast, ?_⟩⟩
      exact hrest.newlines hothers fun rule hrule => (hlast.2 rule hrule).2

end Run

/-- Three imports as they are written, and after each of the passes that put them in order. -/
def settling : List Source :=
  [⟨"import c from'c'\nimport b from'b'\nimport'a'\n".toList,
    [⟨.importDecl, 1, false, some "c", ⟨0, 16⟩⟩, ⟨.importDecl, 1, false, some "b", ⟨17, 33⟩⟩,
      ⟨.importDecl, 0, false, some "a", ⟨34, 43⟩⟩], []⟩,
  ⟨"import'a'\nimport c from'c'\nimport b from'b'\n".toList,
    [⟨.importDecl, 0, false, some "a", ⟨0, 9⟩⟩, ⟨.importDecl, 1, false, some "c", ⟨10, 26⟩⟩,
      ⟨.importDecl, 1, false, some "b", ⟨27, 43⟩⟩], []⟩,
  ⟨"import'a'\nimport b from'b'\nimport c from'c'\n".toList,
    [⟨.importDecl, 0, false, some "a", ⟨0, 9⟩⟩, ⟨.importDecl, 1, false, some "b", ⟨10, 26⟩⟩,
      ⟨.importDecl, 1, false, some "c", ⟨27, 43⟩⟩], []⟩,
  ⟨"import'a'\n\nimport b from'b'\nimport c from'c'\n".toList,
    [⟨.importDecl, 0, false, some "a", ⟨0, 9⟩⟩, ⟨.importDecl, 1, false, some "b", ⟨11, 27⟩⟩,
      ⟨.importDecl, 1, false, some "c", ⟨28, 44⟩⟩], []⟩]

end Fixing

end ImportOrder
