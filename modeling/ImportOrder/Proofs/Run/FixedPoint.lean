import ImportOrder.Fixing
import ImportOrder.Proofs.Text.Cut
import Mathlib

/-!
# Where runs of passes stop

A run is a sequence of passes, each made of the fixes of the earliest rule that has one to apply. It
stops at the cap or at a text on which no rule has a fix to apply, and a run from such a text makes
no pass. Nothing is assumed of the rules or of the reader of texts.

## Main definitions

- `Fixing.Idle`: a rule without a fix to apply
- `Fixing.Pass`, `Fixing.Pass.Led`: a pass, and the rule whose fixes it makes
- `Fixing.Makes`: the sequences of passes

## Main statements

- `Fixing.untilStable_succ_eq_ok`: the first step of a run
- `Fixing.untilStable_invariant`: a run keeps what every pass keeps
- `Fixing.exists_makes`: a run is a sequence of passes
- `Fixing.run_stops_at_fixed_point`: a run below the cap ends at a fixed point
-/

namespace ImportOrder

theorem Text.applyFixes_of_fixless {text : Text} {ds : List Diagnostic}
    (h : ∀ d ∈ ds, d.fix = none) : text.applyFixes ds = .ok ⟨text, 0, 0⟩ := by
  have hnone : ds.filterMap (·.fix) = [] := List.filterMap_eq_nil_iff.2 h
  have hall : text.sliceFrom 0 = .ok text := Text.sliceFrom_append [] text
  simp only [applyFixes, hnone, List.mapM_nil, List.filterMap_nil, List.mergeSort_nil, applyEdits,
    pure, Except.pure, bind, Except.bind, hall, List.length_nil]

namespace Fixing

/-- None of the fixes in the reports that bear the name of the rule applies. -/
def Idle (text : Text) (diagnostics : List Diagnostic) (rule : Rule) : Prop :=
  ∃ outcome, text.applyFixes (diagnostics.filter (·.rule = rule.name)) = .ok outcome ∧
    outcome.applied = 0

/-- A pass over a text: the reports of all rules about it, the rule whose fixes are made, and what
comes of them. -/
structure Pass where
  /-- The text before the pass. -/
  before : Text
  /-- The reports of all rules about the text. -/
  diagnostics : List Diagnostic
  /-- The rule whose fixes are made. -/
  rule : Rule
  /-- What comes of the fixes. -/
  outcome : FixOutcome

/-- The fixes of a pass are those of the earliest rule that has one to apply. -/
structure Pass.Led (rules : List Rule) (pass : Pass) : Prop where
  /-- No rule in front of it has a fix to apply. -/
  earliest : ∃ earlier later, rules = earlier ++ pass.rule :: later ∧
    ∀ rule ∈ earlier, Idle pass.before pass.diagnostics rule
  /-- The fixes are those in the reports that bear the name of the rule. -/
  applies : pass.before.applyFixes (pass.diagnostics.filter (·.rule = pass.rule.name)) =
    .ok pass.outcome
  /-- There is a fix to apply. -/
  applied_pos : 0 < pass.outcome.applied

/-- The sequences of passes from one text to another. -/
inductive Makes (parse : Text → Option Source) (rules : List Rule) (packages : Packages) :
    Text → List Pass → Text → Prop where
  /-- No pass is made. -/
  | stop (text : Text) : Makes parse rules packages text [] text
  /-- A pass is made, and others on its output. -/
  | pass {pass : Pass} {passes : List Pass} {output : Text}
      (hdiagnose : diagnose parse rules packages pass.before = .ok pass.diagnostics)
      (hled : pass.Led rules) (hrest : Makes parse rules packages pass.outcome.output passes output) :
      Makes parse rules packages pass.before (pass :: passes) output

section Leading

variable {text : Text} {ds : List Diagnostic} {rules : List Rule}

theorem leading?_eq_none (h : leading? text ds rules = .ok none) :
    ∀ rule ∈ rules, Idle text ds rule := by
  induction rules with
  | nil => exact fun rule hrule => absurd hrule List.not_mem_nil
  | cons rule rules ih =>
    obtain ⟨outcome, happly, h⟩ := Checked.bind_eq_ok.1 h
    by_cases hpos : outcome.applied > 0
    · rw [if_pos hpos] at h
      exact absurd (Except.ok.inj h) nofun
    · rw [if_neg hpos] at h
      exact List.forall_mem_cons.2 ⟨⟨outcome, happly, by omega⟩, ih h⟩

/-- The pass for the first rule that has a fix to apply is led by that rule. -/
theorem leading?_eq_some {outcome : FixOutcome} (h : leading? text ds rules = .ok (some outcome)) :
    ∃ rule, Pass.Led rules ⟨text, ds, rule, outcome⟩ := by
  induction rules with
  | nil => exact absurd (Except.ok.inj h) nofun
  | cons rule rules ih =>
    obtain ⟨own, happly, h⟩ := Checked.bind_eq_ok.1 h
    by_cases hpos : own.applied > 0
    · rw [if_pos hpos] at h
      obtain rfl := Option.some.inj (Except.ok.inj h)
      exact ⟨rule, ⟨[], rules, rfl, by simp⟩, happly, hpos⟩
    · rw [if_neg hpos] at h
      obtain ⟨leader, ⟨earlier, later, heq, hidle⟩, hfixes, happlied⟩ := ih h
      simp only at heq hidle
      refine ⟨leader, ⟨rule :: earlier, later, by rw [heq, List.cons_append], ?_⟩, hfixes, happlied⟩
      exact List.forall_mem_cons.2 ⟨⟨own, happly, by omega⟩, hidle⟩

/-- The pass for the first rule with a fix to make is one of the passes with some of the reports. -/
theorem leading?_eq_ok {text : Text} {ds : List Diagnostic} {P : FixOutcome → Prop}
    (hfix : ∀ ds' : List Diagnostic, ds' ⊆ ds →
      ∃ outcome, text.applyFixes ds' = .ok outcome ∧ P outcome) (rules : List Rule) :
    ∃ leading, leading? text ds rules = .ok leading ∧ ∀ outcome ∈ leading, P outcome := by
  induction rules with
  | nil => exact ⟨none, rfl, by simp⟩
  | cons rule rules ih =>
    obtain ⟨outcome, happly, hP⟩ :=
      hfix (ds.filter (·.rule = rule.name)) List.filter_sublist.subset
    simp only [leading?, happly, bind, Except.bind]
    split
    · exact ⟨some outcome, rfl, by simpa using hP⟩
    · exact ih

theorem leading?_of_idle (h : ∀ rule ∈ rules, Idle text ds rule) :
    leading? text ds rules = .ok none := by
  induction rules with
  | nil => rfl
  | cons rule rules ih =>
    obtain ⟨⟨outcome, happly, hzero⟩, hrules⟩ := List.forall_mem_cons.1 h
    simp only [leading?, happly, bind, Except.bind, hzero, Nat.lt_irrefl, gt_iff_lt, if_false]
    exact ih hrules

theorem idle_of_fixless (h : ∀ d ∈ ds, d.fix = none) (rule : Rule) : Idle text ds rule :=
  ⟨_, Text.applyFixes_of_fixless fun d hd => h d (List.mem_filter.1 hd).1, rfl⟩

end Leading

section Run

variable {parse : Text → Option Source} {rules : List Rule} {packages : Packages} {text : Text}
  {ds : List Diagnostic} {run : FixRun}

theorem diagnose_eq_ok (h : diagnose parse rules packages text = .ok ds) :
    ∃ source, parse text = some source ∧ source.diagnostics rules packages = .ok ds := by
  unfold diagnose at h
  cases hparse : parse text with
  | none => simp [hparse] at h
  | some source =>
    refine ⟨source, rfl, ?_⟩
    cases hds : source.diagnostics rules packages with
    | error cut => simp [hparse, hds, Except.mapError] at h
    | ok ds' => simpa [hparse, hds, Except.mapError] using h

/-- A run stops at once on a text on which no rule has a fix to apply. -/
theorem untilStable_of_idle (hds : diagnose parse rules packages text = .ok ds)
    (hidle : ∀ rule ∈ rules, Idle text ds rule) (cap : Nat) :
    untilStable parse rules packages cap text = .ok ⟨text, 0, ds⟩ := by
  cases cap with
  | zero =>
    rw [untilStable, hds]
    rfl
  | succ cap =>
    simp only [untilStable, hds, bind, Except.bind, leading?_of_idle hidle, Except.mapError]
    split <;> rfl

/-- The first step of a run: it stops, or it makes a pass and goes on with its output. -/
theorem untilStable_succ_eq_ok {cap : Nat}
    (h : untilStable parse rules packages (cap + 1) text = .ok run) :
    ∃ ds, diagnose parse rules packages text = .ok ds ∧
      ((∀ rule ∈ rules, Idle text ds rule) ∧ run = ⟨text, 0, ds⟩ ∨
        ∃ rule outcome rest, Pass.Led rules ⟨text, ds, rule, outcome⟩ ∧
          untilStable parse rules packages cap outcome.output = .ok rest ∧
          run = { rest with passes := rest.passes + 1 }) := by
  rw [untilStable] at h
  obtain ⟨ds, hds, h⟩ := Checked.bind_eq_ok.1 h
  refine ⟨ds, hds, ?_⟩
  by_cases hfixless : ds.all (·.fix.isNone) = true
  · rw [if_pos hfixless] at h
    refine .inl ⟨fun rule _ => idle_of_fixless (fun d hd => ?_) rule, (Except.ok.inj h).symm⟩
    simpa using List.all_eq_true.1 hfixless d hd
  · rw [if_neg hfixless] at h
    obtain ⟨leading, hleading, h⟩ := Checked.bind_eq_ok.1 h
    have hleading' : leading? text ds rules = .ok leading := by
      cases hcase : leading? text ds rules with
      | error cut => simp [hcase, Except.mapError] at hleading
      | ok leading' => simpa [hcase, Except.mapError] using hleading
    cases leading with
    | none => exact .inl ⟨leading?_eq_none hleading', (Except.ok.inj h).symm⟩
    | some outcome =>
      obtain ⟨rule, hled⟩ := leading?_eq_some hleading'
      obtain ⟨rest, hrest, h⟩ := Checked.bind_eq_ok.1 h
      exact .inr ⟨rule, outcome, rest, hled, hrest, (Except.ok.inj h).symm⟩

/-- A run makes no bad cut and keeps what every pass with some of the reports keeps. -/
theorem untilStable_invariant {P : Text → Prop}
    (hpass : ∀ text, P text → diagnose parse rules packages text = .error .unreadable ∨
      ∃ ds, diagnose parse rules packages text = .ok ds ∧ ∀ ds' : List Diagnostic, ds' ⊆ ds →
        ∃ outcome, text.applyFixes ds' = .ok outcome ∧ P outcome.output)
    (cap : Nat) (h : P text) :
    (∀ cut, untilStable parse rules packages cap text ≠ .error (.badSlice cut)) ∧
      ∀ run, untilStable parse rules packages cap text = .ok run → P run.output := by
  have hstop : ∀ text ds, P text → ∀ result : Except FixError FixRun,
      result = .ok ⟨text, 0, ds⟩ → (∀ cut, result ≠ .error (.badSlice cut)) ∧
        ∀ run, result = .ok run → P run.output := by
    rintro text ds h result rfl
    refine ⟨nofun, fun run heq => ?_⟩
    obtain rfl := Except.ok.inj heq
    exact h
  induction cap generalizing text with
  | zero =>
    rw [untilStable]
    rcases hpass text h with hds | ⟨ds, hds, -⟩
    · rw [hds]
      exact ⟨nofun, nofun⟩
    · rw [hds]
      exact hstop text ds h _ rfl
  | succ cap ih =>
    rw [untilStable]
    rcases hpass text h with hds | ⟨ds, hds, hfix⟩
    · rw [hds]
      exact ⟨nofun, nofun⟩
    · obtain ⟨leading, hleading, hkept⟩ := leading?_eq_ok hfix rules
      simp only [hds, Checked.ok_bind, hleading, Except.mapError]
      split
      · exact hstop text ds h _ rfl
      · cases leading with
        | none => exact hstop text ds h _ rfl
        | some outcome =>
          -- one pass, and then the rest of the run on its output
          obtain ⟨hcut, hrun⟩ := ih (hkept outcome rfl)
          dsimp only
          cases hrest : untilStable parse rules packages cap outcome.output with
          | error e =>
            refine ⟨fun cut heq => ?_, nofun⟩
            obtain rfl := Except.error.inj heq
            exact hcut cut hrest
          | ok run =>
            refine ⟨nofun, fun run' heq => ?_⟩
            obtain rfl := Except.ok.inj heq
            exact hrun run hrest

/-- A run is a sequence of passes, no more than the cap, and below the cap it ends where no rule has
a fix to apply. -/
theorem exists_makes {cap : Nat} (h : untilStable parse rules packages cap text = .ok run) :
    diagnose parse rules packages run.output = .ok run.remaining ∧ run.passes ≤ cap ∧
      (run.passes < cap → ∀ rule ∈ rules, Idle run.output run.remaining rule) ∧
      ∃ passes, passes.length = run.passes ∧ Makes parse rules packages text passes run.output := by
  induction cap generalizing text run with
  | zero =>
    obtain ⟨ds, hds, h⟩ := Checked.bind_eq_ok.1 h
    obtain rfl := Except.ok.inj h
    exact ⟨hds, Nat.le_refl _, fun hlt => absurd hlt (Nat.lt_irrefl _), [], rfl, .stop text⟩
  | succ cap ih =>
    obtain ⟨ds, hds, ⟨hidle, rfl⟩ | ⟨rule, outcome, rest, hled, hrest, rfl⟩⟩ :=
      untilStable_succ_eq_ok h
    · exact ⟨hds, Nat.zero_le _, fun _ => hidle, [], rfl, .stop text⟩
    · obtain ⟨hremaining, hle, hidle, passes, hlength, hmakes⟩ := ih hrest
      exact ⟨hremaining, Nat.succ_le_succ hle, fun hlt => hidle (Nat.lt_of_succ_lt_succ hlt),
        _ :: passes, congrArg Nat.succ hlength, .pass hds hled hmakes⟩

/-- A run makes at most as many passes as the cap allows and reports what all rules report about its
output. Each of its passes makes the fixes of the earliest rule that has one to apply, and no
others. If it makes fewer passes than allowed, no rule has a fix to apply on the output, and a run
from there gives the same again without a pass. -/
theorem run_stops_at_fixed_point {parse : Text → Option Source} {rules : List Rule}
    {packages : Packages} {cap : Nat} {text : Text} {run : FixRun}
    (h : untilStable parse rules packages cap text = .ok run) :
    run.passes ≤ cap ∧
    (∃ source, parse run.output = some source ∧
      source.diagnostics rules packages = .ok run.remaining) ∧
    (run.passes < cap →
      (∀ rule ∈ rules, ∃ outcome,
        run.output.applyFixes (run.remaining.filter (·.rule = rule.name)) = .ok outcome ∧
        outcome.applied = 0) ∧
      ∀ cap', untilStable parse rules packages cap' run.output =
        .ok ⟨run.output, 0, run.remaining⟩) ∧
    ∃ passes, passes.length = run.passes ∧ Makes parse rules packages text passes run.output := by
  obtain ⟨hremaining, hle, hidle, hpasses⟩ := exists_makes h
  exact ⟨hle, diagnose_eq_ok hremaining,
    fun hlt => ⟨hidle hlt, untilStable_of_idle hremaining (hidle hlt)⟩, hpasses⟩

end Run

/-- A reader that knows some sources. -/
def readOneOf (sources : List Source) (text : Text) : Option Source :=
  sources.find? (·.text = text)

theorem readOneOf_eq_some {sources : List Source} {text : Text} {source : Source}
    (h : readOneOf sources text = some source) : source ∈ sources ∧ source.text = text :=
  ⟨List.mem_of_find?_eq_some h, by simpa using List.find?_some h⟩

/-- The rule that wants one letter in place of another in a text of one letter. -/
def letterRule (name : String) (old new : Char) : Rule where
  name := name
  check source _ := .ok (if source.text = [old] then
    [Diagnostic.make source name "letter" "Wrong letter" ⟨0, 1⟩ (some ⟨[⟨⟨0, 1⟩, [new]⟩]⟩)] else [])

/-- The rules that want `c` for `b` and `b` for `a`, in this order. -/
def letterRules : List Rule := [letterRule "second" 'b' 'c', letterRule "first" 'a' 'b']

/-- The later rule makes the first pass, and the earlier one the second and last. -/
theorem letters_stop_at_fixed_point :
    untilStable (some ∘ fun text => ⟨text, [], []⟩) letterRules [] 5 ['a'] = .ok ⟨['c'], 2, []⟩ ∧
    (∀ cap, untilStable (some ∘ fun text => ⟨text, [], []⟩) letterRules [] cap ['c'] =
      .ok ⟨['c'], 0, []⟩) ∧
    ∃ passes, passes.length = 2 ∧
      Makes (some ∘ fun text => ⟨text, [], []⟩) letterRules [] ['a'] passes ['c'] := by
  have hrun : untilStable (some ∘ fun text => ⟨text, [], []⟩) letterRules [] 5 ['a'] =
      .ok ⟨['c'], 2, []⟩ := by
    cbv
  obtain ⟨-, -, hstop, hpasses⟩ := run_stops_at_fixed_point hrun
  exact ⟨hrun, (hstop (by decide)).2, hpasses⟩

end Fixing

end ImportOrder
