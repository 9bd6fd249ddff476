import ImportOrder.Proofs.Rule.ImportNewlines
import ImportOrder.Proofs.Rule.ImportSort
import ImportOrder.Proofs.Rule.StatementOrder
import ImportOrder.Proofs.Run.FixedPoint

/-!
# Fixing keeps the code

Whatever fixes of the three rules a pass makes, in whatever mixture, the text that it gives out has
the statements and comments of the source as they were and as often, and the same characters other
than blanks. Fixes of the two rules on order keep all characters. Both carry over to runs of passes.

## Main statements

- `Source.Tidy.exists_reports`: the reports of the three rules and what their fixes do
- `Fixing.fixes_keep_code`: passes and runs keep the code
-/

namespace ImportOrder

namespace Source

variable {source : Source}

theorem Moves.swaps {above : Passage → Passage → Prop} {old new : Source}
    (h : Moves above old new) : Swaps old new := by
  obtain ⟨hb, hc, -, -, -⟩ := h
  exact .swap hb hc

/-- The reports of the three rules: those of the rules on order exchange pieces, and the others
replace blanks. -/
theorem Tidy.exists_reports (h : source.Tidy) (hh : source.HashbangApart) (packages : Packages) :
    ∃ orders sorts newlines, StatementOrder.rule.check source packages = .ok orders ∧
      ImportSort.rule.check source packages = .ok sorts ∧
      ImportNewlines.rule.check source packages = .ok newlines ∧
      (∀ d, d ∈ orders ∨ d ∈ sorts → ∀ fix ∈ d.fix, ∃ front old new back,
        fix.Changes source front old new back ∧ Swaps old new) ∧
      ∀ d ∈ newlines, ∀ fix ∈ d.fix, ∃ front old new back,
        fix.Changes source front old new back ∧ Respaces old new := by
  obtain ⟨orders, horders, hmoves, -⟩ := StatementOrder.exists_check h.toWellFormed hh packages
  obtain ⟨sorts, hsorts, hsettles, -⟩ := ImportSort.exists_check h.toWellFormed packages
  obtain ⟨newlines, hnewlines, hrespaces⟩ := ImportNewlines.exists_check h packages
  refine ⟨orders, sorts, newlines, horders, hsorts, hnewlines, ?_, hrespaces⟩
  rintro d (hd | hd) fix hfix
  · obtain ⟨fix', hfix', front, old, new, back, hchanges, hmove⟩ := (hmoves d hd).1
    obtain rfl : fix' = fix := Option.some.inj (hfix'.symm.trans hfix)
    exact ⟨front, old, new, back, hchanges, hmove.swaps⟩
  · obtain ⟨fix', hfix', front, old, new, back, hchanges, hmove, -⟩ := (hsettles d hd).1
    obtain rfl : fix' = fix := Option.some.inj (hfix'.symm.trans hfix)
    exact ⟨front, old, new, back, hchanges, hmove.swaps⟩

/-- A pass with any of the reports of the three rules keeps the code, and with reports of the rules
on order it keeps all characters. -/
theorem Tidy.exists_outcome_of_reports (h : source.Tidy) (hh : source.HashbangApart)
    (packages : Packages) :
    ∃ orders sorts newlines, StatementOrder.rule.check source packages = .ok orders ∧
      ImportSort.rule.check source packages = .ok sorts ∧
      ImportNewlines.rule.check source packages = .ok newlines ∧
      ∀ ds : List Diagnostic, (∀ d ∈ ds, d ∈ orders ∨ d ∈ sorts ∨ d ∈ newlines) →
        ∃ outcome, source.text.applyFixes ds = .ok outcome ∧
          (source.after ds).text = outcome.output ∧ (source.after ds).WellFormed ∧
          source.Preserves (source.after ds) ∧
          ((∀ d ∈ ds, d ∈ orders ∨ d ∈ sorts) → outcome.output.Perm source.text) := by
  obtain ⟨orders, sorts, newlines, horders, hsorts, hnewlines, hswaps, hrespaces⟩ :=
    h.exists_reports hh packages
  refine ⟨orders, sorts, newlines, horders, hsorts, hnewlines, fun ds hds => ?_⟩
  obtain ⟨outcome, happly, htext, hafter, hsteps, -⟩ :=
    h.toWellFormed.exists_outcome (R := Rewrites) fun fix (hfix : fix ∈ ds.filterMap (·.fix)) => by
      obtain ⟨d, hd, hfix⟩ := List.mem_filterMap.1 hfix
      rcases or_assoc.2 (hds d hd) with hd | hd
      · obtain ⟨front, old, new, back, hchanges, hR⟩ := hswaps d hd fix hfix
        exact ⟨front, old, new, back, hchanges, .inl hR⟩
      · obtain ⟨front, old, new, back, hchanges, hR⟩ := hrespaces d hd fix hfix
        exact ⟨front, old, new, back, hchanges, .inr hR⟩
  refine ⟨outcome, happly, htext, hafter, .of_steps hsteps, fun honly => ?_⟩
  obtain ⟨-, -, -, -, hsteps', -⟩ :=
    h.toWellFormed.exists_outcome (R := Swaps) fun fix (hfix : fix ∈ ds.filterMap (·.fix)) => by
      obtain ⟨d, hd, hfix⟩ := List.mem_filterMap.1 hfix
      exact hswaps d (honly d hd) fix hfix
  rw [← htext]
  exact text_perm_of_steps hsteps'

end Source

namespace Fixing

/-- The rules on the order of statements and of module paths. -/
def orderRules : List Rule := [StatementOrder.rule, ImportSort.rule]

/-- The three rules. -/
def allRules : List Rule := [StatementOrder.rule, ImportSort.rule, ImportNewlines.rule]

/-- What a text has in common with what some of the rules make of it. -/
structure Keeps (rules : List Rule) (text output : Text) : Prop where
  /-- The same characters other than blanks, as often. -/
  visible_perm : output.visible.Perm text.visible
  /-- The same characters, as often, if the rules are on order only. -/
  perm : rules ⊆ orderRules → output.Perm text

theorem Keeps.refl (rules : List Rule) (text : Text) : Keeps rules text text :=
  ⟨.refl _, fun _ => .refl _⟩

theorem Keeps.trans {rules : List Rule} {a b c : Text} (h : Keeps rules a b)
    (h' : Keeps rules b c) : Keeps rules a c :=
  ⟨h'.visible_perm.trans h.visible_perm, fun hr => (h'.perm hr).trans (h.perm hr)⟩

variable {packages : Packages} {rules : List Rule}

/-- The reports of some of the three rules about a source, and the passes with them. -/
theorem exists_diagnostics {source : Source} (h : source.Tidy) (hh : source.HashbangApart)
    (packages : Packages) (hrules : rules ⊆ allRules) :
    ∃ ds, source.diagnostics rules packages = .ok ds ∧ ∀ ds' : List Diagnostic, ds' ⊆ ds →
      ∃ outcome, source.text.applyFixes ds' = .ok outcome ∧
        Keeps rules source.text outcome.output := by
  obtain ⟨orders, sorts, newlines, horders, hsorts, hnewlines, hpass⟩ :=
    h.exists_outcome_of_reports hh packages
  have hcheck : ∀ rule ∈ rules, ∃ ds, rule.check source packages = .ok ds ∧
      (∀ d ∈ ds, d ∈ orders ∨ d ∈ sorts ∨ d ∈ newlines) ∧
      (rule ∈ orderRules → ∀ d ∈ ds, d ∈ orders ∨ d ∈ sorts) := by
    intro rule hrule
    have hmem := hrules hrule
    simp only [allRules, List.mem_cons, List.not_mem_nil, or_false] at hmem
    rcases hmem with rfl | rfl | rfl
    · exact ⟨orders, horders, fun d hd => .inl hd, fun _ d hd => .inl hd⟩
    · exact ⟨sorts, hsorts, fun d hd => .inr (.inl hd), fun _ d hd => .inr hd⟩
    · refine ⟨newlines, hnewlines, fun d hd => .inr (.inr hd), fun horder => ?_⟩
      -- the rules have different names
      simp only [orderRules, List.mem_cons, List.not_mem_nil, or_false] at horder
      rcases horder with heq | heq
      · exact absurd (congrArg Rule.name heq) (by decide)
      · exact absurd (congrArg Rule.name heq) (by decide)
  choose! reports hreports hamong honly using hcheck
  refine ⟨(rules.map reports).flatten, ?_, fun ds' hds' => ?_⟩
  · simp only [Source.diagnostics, Checked.mapM_eq_ok hreports, bind, Except.bind]
    rfl
  · have hsome : ∀ d ∈ ds', ∃ rule ∈ rules, d ∈ reports rule := fun d hd => by
      simpa using hds' hd
    obtain ⟨outcome, happly, htext, -, hkeeps, hperm⟩ := hpass ds' fun d hd => by
      obtain ⟨rule, hrule, hd⟩ := hsome d hd
      exact hamong rule hrule d hd
    refine ⟨outcome, happly, htext ▸ hkeeps.visible_perm, fun horder => hperm fun d hd => ?_⟩
    obtain ⟨rule, hrule, hd⟩ := hsome d hd
    exact honly rule hrule (horder hrule) d hd

section Run

variable {parse : Text → Option Source}
  (hparse : ∀ text source, parse text = some source →
    source.text = text ∧ source.Tidy ∧ source.HashbangApart)
  (hrules : rules ⊆ allRules)

include hparse hrules

theorem exists_diagnose (packages : Packages) (text : Text) :
    diagnose parse rules packages text = .error .unreadable ∨
      ∃ ds, diagnose parse rules packages text = .ok ds ∧ ∀ ds' : List Diagnostic, ds' ⊆ ds →
        ∃ outcome, text.applyFixes ds' = .ok outcome ∧ Keeps rules text outcome.output := by
  rw [diagnose]
  cases hsource : parse text with
  | none => exact .inl rfl
  | some source =>
    obtain ⟨rfl, htidy, hapart⟩ := hparse text source hsource
    obtain ⟨ds, hds, hfix⟩ := exists_diagnostics htidy hapart packages hrules
    exact .inr ⟨ds, by simp only [hds]; rfl, hfix⟩

/-- A run of passes makes no bad cut, and it keeps the code. -/
theorem untilStable_keeps (packages : Packages) (cap : Nat) (text : Text) :
    (∀ cut, untilStable parse rules packages cap text ≠ .error (.badSlice cut)) ∧
      ∀ run, untilStable parse rules packages cap text = .ok run →
        Keeps rules text run.output := by
  refine untilStable_invariant (fun text' hkeeps => ?_) cap (Keeps.refl rules text)
  refine (exists_diagnose hparse hrules packages text').imp_right ?_
  rintro ⟨ds, hds, hfix⟩
  refine ⟨ds, hds, fun ds' hds' => ?_⟩
  obtain ⟨outcome, happly, hpass⟩ := hfix ds' hds'
  exact ⟨outcome, happly, hkeeps.trans hpass⟩

end Run

/-- Of a tidy source whose `#!` line lies outside of all statements, take any of the reports of the
three rules. A pass with them succeeds, and its output is the text of a tidy source with the same
statements and the same comments outside of them, each as often, and with the same characters other
than blanks; with reports of the rules on order only, the output is a rearrangement of all
characters. A run of passes, whose texts are read as such sources, makes no bad cut and keeps the
characters in the same way. -/
theorem fixes_keep_code {source : Source} (h : source.Tidy) (hh : source.HashbangApart)
    (packages : Packages) :
    (∃ orders sorts newlines, StatementOrder.rule.check source packages = .ok orders ∧
      ImportSort.rule.check source packages = .ok sorts ∧
      ImportNewlines.rule.check source packages = .ok newlines ∧
      ∀ ds : List Diagnostic, (∀ d ∈ ds, d ∈ orders ∨ d ∈ sorts ∨ d ∈ newlines) →
        ∃ outcome, source.text.applyFixes ds = .ok outcome ∧
          (source.after ds).text = outcome.output ∧ (source.after ds).Tidy ∧
          (source.after ds).passages.Perm source.passages ∧
          (source.after ds).remarks.Perm source.remarks ∧
          outcome.output.visible.Perm source.text.visible ∧
          ((∀ d ∈ ds, d ∈ orders ∨ d ∈ sorts) → outcome.output.Perm source.text)) ∧
    ∀ (parse : Text → Option Source) (rules : List Rule),
      (∀ text source, parse text = some source →
        source.text = text ∧ source.Tidy ∧ source.HashbangApart) →
      rules ⊆ allRules → ∀ cap text,
        (∀ cut, untilStable parse rules packages cap text ≠ .error (.badSlice cut)) ∧
        ∀ run, untilStable parse rules packages cap text = .ok run →
          run.output.visible.Perm text.visible ∧
          (rules ⊆ orderRules → run.output.Perm text) := by
  refine ⟨?_, fun parse rules hparse hrules cap text => ?_⟩
  · obtain ⟨orders, sorts, newlines, horders, hsorts, hnewlines, hpass⟩ :=
      h.exists_outcome_of_reports hh packages
    refine ⟨orders, sorts, newlines, horders, hsorts, hnewlines, fun ds hds => ?_⟩
    obtain ⟨outcome, happly, htext, hafter, hkeeps, hperm⟩ := hpass ds hds
    exact ⟨outcome, happly, htext, ⟨hafter, hkeeps.blank_outside h.blank_outside⟩,
      hkeeps.passages_perm, hkeeps.remarks_perm, htext ▸ hkeeps.visible_perm, hperm⟩
  · obtain ⟨hcut, hrun⟩ := untilStable_keeps hparse hrules packages cap text
    exact ⟨hcut, fun run heq => ⟨(hrun run heq).visible_perm, (hrun run heq).perm⟩⟩

/-- A reader that knows one source. -/
def readOnly (source : Source) (text : Text) : Option Source :=
  if text = source.text then some source else none

/-- Code above imports below a `#!` line is kept, in one pass and in a run of passes. -/
theorem fixes_keep_unordered : StatementOrder.unordered.Tidy ∧
    StatementOrder.unordered.HashbangApart ∧
    (∃ orders, StatementOrder.rule.check StatementOrder.unordered [] = .ok orders ∧
      ∃ outcome, StatementOrder.unordered.text.applyFixes orders = .ok outcome ∧
        outcome.output.Perm StatementOrder.unordered.text) ∧
    ∀ run, untilStable (readOnly StatementOrder.unordered) allRules [] 10
        StatementOrder.unordered.text = .ok run →
      run.output.visible.Perm StatementOrder.unordered.text.visible := by
  have h : StatementOrder.unordered.Tidy := by decide
  have hh : StatementOrder.unordered.HashbangApart := h.hashbangApart (by decide)
  obtain ⟨⟨orders, sorts, newlines, horders, -, -, hpass⟩, hruns⟩ := fixes_keep_code h hh []
  obtain ⟨outcome, happly, -, -, -, -, -, hperm⟩ := hpass orders fun d hd => .inl hd
  refine ⟨h, hh, ⟨orders, horders, outcome, happly, hperm fun d hd => .inl hd⟩, fun run hrun => ?_⟩
  refine ((hruns (readOnly StatementOrder.unordered) allRules (fun text source heq => ?_)
    (List.Subset.refl _) 10 _).2 run hrun).1
  rw [readOnly] at heq
  split at heq
  · next htext =>
    obtain rfl := Option.some.inj heq
    exact ⟨htext.symm, h, hh⟩
  · exact absurd heq nofun

/-- Two imports with a byte order mark between them. -/
def markedGap : Source where
  text := "import 'a';\n\uFEFF\nimport 'b';\n".toList
  statements := [⟨.importDecl, 0, false, some "a", ⟨0, 11⟩⟩,
    ⟨.importDecl, 0, false, some "b", ⟨16, 27⟩⟩]
  comments := []

/-- A fix may tear a statement that starts with a `#!` comment, and a fix of blank lines removes
byte order marks with the other blanks. -/
theorem fixes_tear_and_respace :
    (StatementOrder.hashbangStatement.Tidy ∧ ∃ ds outcome,
      StatementOrder.rule.check StatementOrder.hashbangStatement [] = .ok ds ∧
      StatementOrder.hashbangStatement.text.applyFixes ds = .ok outcome ∧
      ¬ "#!a\n1;".toList <:+: outcome.output) ∧
    (markedGap.Tidy ∧ Character.byteOrderMark ∈ markedGap.text ∧ ∃ ds outcome,
      ImportNewlines.rule.check markedGap [] = .ok ds ∧
      markedGap.text.applyFixes ds = .ok outcome ∧
      Character.byteOrderMark ∉ outcome.output) := by
  refine ⟨⟨by decide, ?_⟩, by decide, by decide, ?_⟩
  · obtain ⟨d, hcheck, happly⟩ := StatementOrder.hashbangStatement_outcome
    exact ⟨[d], _, hcheck, happly, by simp [List.infix_cons_iff, List.cons_prefix_cons]⟩
  · have hcheck : ImportNewlines.rule.check markedGap [] = .ok [Diagnostic.make markedGap
        ImportNewlines.name "removeNewline" "Remove the extra newline between imports" ⟨16, 16⟩
        (some ⟨[⟨⟨11, 16⟩, ['\n']⟩]⟩)] := by
      decide
    have happly : markedGap.text.applyFixes [Diagnostic.make markedGap ImportNewlines.name
        "removeNewline" "Remove the extra newline between imports" ⟨16, 16⟩
        (some ⟨[⟨⟨11, 16⟩, ['\n']⟩]⟩)] =
        .ok ⟨"import 'a';\nimport 'b';\n".toList, 1, 0⟩ := by
      have hmerged : Fix.merged ⟨[⟨⟨11, 16⟩, ['\n']⟩]⟩ markedGap.text =
          .ok (some ⟨⟨11, 16⟩, ['\n']⟩) := by
        rw [Fix.merged, List.mergeSort_singleton]
        decide
      rw [Text.applyFixes_singleton rfl hmerged]
      decide
    exact ⟨_, _, hcheck, happly, by decide⟩

end Fixing

end ImportOrder
