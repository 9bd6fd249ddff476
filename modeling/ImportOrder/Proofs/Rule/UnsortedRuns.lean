import ImportOrder.Proofs.Rule.Safety

/-!
# Which runs are reported as unsorted

The rule on the order of paths looks at the maximal runs of neighbouring statements of one category,
one after the other, and reports a run exactly if two of its statements that name modules are in the
wrong order. The report is about the statement that the stable sort puts at the first place where
the run differs from it.

## Main definitions

- `ImportSort.MaximalRuns`: the statements of a source by category
- `ImportSort.InOrder`: a run that is in the order of its paths
- `ImportSort.TellsRun`: what the report about a run says

## Main statements

- `ImportSort.maximalRuns_runsBy`
- `ImportSort.exists_tellsRun`: the report about a run
- `ImportSort.reports_tell_unsorted_runs`
-/

namespace ImportOrder

namespace ImportSort

variable {source : Source} {packages : Packages} {run : List Statement}

/-- The statements of a source, cut wherever the category changes. -/
structure MaximalRuns (source : Source) (runs : List (List Statement)) : Prop where
  flatten_eq : runs.flatten = source.statements
  ne_nil : ∀ run ∈ runs, run ≠ []
  classify_eq : ∀ run ∈ runs, ∀ s ∈ run, ∀ t ∈ run, source.classify s = source.classify t
  classify_ne : runs.IsChain fun run next =>
    ∀ s ∈ run, ∀ t ∈ next, source.classify s ≠ source.classify t

/-- Of two statements with paths the first is not the larger one. -/
def InOrder (packages : Packages) (run : List Statement) : Prop :=
  run.Pairwise fun s t =>
    ∀ a ∈ s.path?, ∀ b ∈ t.path?, ModulePath.compare packages a b ≠ .gt

/-- What the rule says about a run: nothing if it is in order, and else that the first misplaced
statement belongs in front of the one that stands in its place. -/
structure TellsRun (source : Source) (packages : Packages) (run : List Statement)
    (report? : Option Diagnostic) : Prop where
  eq_none_iff : report? = none ↔ InOrder packages run
  names : ∀ d ∈ report?, ∃ (m : Misplacement packages (run.filter namesModule))
    (range target : AttachedRange) (fix : Fix),
    source.attachedRange m.least.span = .ok range ∧
    source.attachedRange m.first.span = .ok target ∧
    Fix.relocate source.text range.full target.full.start = .ok fix ∧
    d = Diagnostic.make source name wrongOrder wrongOrderMessage range.full (some fix)

theorem maximalRuns_runsBy (h : source.Sliceable) :
    MaximalRuns source (runsBy (categoryOf source) source.statements) := by
  have hmem : ∀ run ∈ runsBy (categoryOf source) source.statements, ∀ s ∈ run,
      source.classify s = .ok (categoryOf source s) := by
    intro run hrun s hs
    refine h.classify_eq ?_
    rw [← flatten_runsBy (categoryOf source) source.statements]
    exact List.mem_flatten.2 ⟨run, hrun, hs⟩
  refine ⟨flatten_runsBy _ _, fun run hrun => List.ne_nil_of_mem_splitBy hrun,
    fun run hrun s hs t ht => ?_, ?_⟩
  · rw [hmem run hrun s hs, hmem run hrun t ht, key_eq_of_mem_runsBy hrun hs ht]
  · -- the last statement of a run and the first of the next one stand for all of their runs
    refine (List.isChain_getLast_head_splitBy _ _).imp_of_mem_imp ?_
    rintro run next hrun hnext ⟨hrun_ne, hnext_ne, hne⟩ s hs t ht heq
    rw [hmem run hrun s hs, hmem next hnext t ht, Except.ok.injEq,
      key_eq_of_mem_runsBy hrun hs (List.getLast_mem hrun_ne),
      key_eq_of_mem_runsBy hnext ht (List.head_mem hnext_ne)] at heq
    exact of_decide_eq_false hne heq

/-- A run is in order exactly if its statements with paths are sorted. -/
theorem inOrder_iff : InOrder packages run ↔
    (run.filter namesModule).Pairwise fun s t => statementLE packages s t := by
  rw [InOrder, List.pairwise_filter]
  apply iff_of_eq
  congr 1
  funext s t
  simp only [namesModule, statementLE]
  cases s.path? with
  | none => simp
  | some a =>
    cases t.path? with
    | none => simp
    | some b => simp

theorem inOrder_iff_mergeSort_eq : InOrder packages run ↔
    (run.filter namesModule).mergeSort (statementLE packages) = run.filter namesModule := by
  rw [inOrder_iff]
  constructor
  · exact List.mergeSort_of_pairwise
  · intro heq
    rw [← heq]
    exact List.pairwise_mergeSort statementLE_trans statementLE_total _

theorem Misplacement.mem {named : List Statement} (m : Misplacement packages named) :
    m.first ∈ named ∧ m.least ∈ named := by
  obtain ⟨P, a, Y, b, Z, S, rfl, -, -, -⟩ := m
  simp

/-- A misplaced statement stands behind one with a larger path. -/
theorem Misplacement.not_inOrder (m : Misplacement packages (run.filter namesModule)) :
    ¬ InOrder packages run := by
  rw [inOrder_iff, m.named_eq, List.append_assoc, List.append_assoc, List.pairwise_append,
    List.pairwise_append]
  rintro ⟨-, ⟨-, -, hpair⟩, -⟩
  have hle := hpair m.first List.mem_cons_self m.least (by simp)
  rw [m.larger m.first List.mem_cons_self] at hle
  exact absurd hle Bool.false_ne_true

theorem exists_tellsRun (h : source.Sliceable) (hnodup : (run.map Statement.span).Nodup)
    (hrun : ∀ s ∈ run, s ∈ source.statements) (packages : Packages) :
    ∃ report? : Option Diagnostic,
      checkRun source packages (entries (run.map fun s => (categoryOf source s, s))) =
        .ok report?.toList ∧ TellsRun source packages run report? := by
  rw [checkRun, entries_eq]
  obtain ⟨hnone, hsorted⟩ | ⟨m, hsome⟩ :=
    exists_misplacement packages (hnodup.sublist (List.filter_sublist.map _))
  · rw [hnone]
    exact ⟨none, rfl, iff_of_true rfl (inOrder_iff_mergeSort_eq.2 hsorted),
      fun d hd => absurd hd (Option.not_mem_none d)⟩
  · have hmem : ∀ s ∈ run.filter namesModule, source.text.HasSpan s.span := fun s hs =>
      h.statements s (hrun s (List.mem_of_mem_filter hs))
    obtain ⟨range, hrange, hfull, -⟩ :=
      h.exists_attachedRange (hmem m.least m.mem.2)
    obtain ⟨target, htarget, htarget_full, -⟩ :=
      h.exists_attachedRange (hmem m.first m.mem.1)
    obtain ⟨fix, hfix, -⟩ := Source.Sliceable.exists_relocate hfull htarget_full.start_boundary
      (Nat.zero_le _) (Nat.zero_le _)
    simp only [hsome, hrange, htarget, hfix, Checked.ok_bind]
    refine ⟨some _, rfl, iff_of_false (Option.some_ne_none _) m.not_inOrder, fun d hd => ?_⟩
    exact ⟨m, range, target, fix, hrange, htarget, hfix, (Option.some.inj hd).symm⟩

/-- The rule goes through the maximal runs of statements of one category. It reports the first
misplaced statement of each run that is not in the order of its paths, with a fix that moves the
statement to its place, and nothing about the others. -/
theorem reports_tell_unsorted_runs {source : Source} (h : source.Sliceable)
    (hnodup : source.spans.Nodup) (packages : Packages) :
    ∃ (runs : List (List Statement)) (reports : List (Option Diagnostic)),
      MaximalRuns source runs ∧
      rule.check source packages = .ok reports.reduceOption ∧
      List.Forall₂ (TellsRun source packages) runs reports ∧
      (reports.reduceOption = [] ↔ ∀ run ∈ runs, InOrder packages run) := by
  have hrun : ∀ run ∈ runsBy (categoryOf source) source.statements, ∃ report?,
      checkRun source packages (entries (run.map fun s => (categoryOf source s, s))) =
        .ok report?.toList ∧ TellsRun source packages run report? := by
    intro run hrun
    have hsub : run.Sublist source.statements := by
      rw [← flatten_runsBy (categoryOf source) source.statements]
      exact List.sublist_flatten_of_mem hrun
    exact exists_tellsRun h (hnodup.sublist (hsub.map _)) (fun s hs => hsub.subset hs) packages
  obtain ⟨reports, hreports, htells⟩ := Checked.exists_mapM_flatten hrun
  refine ⟨_, reports, maximalRuns_runsBy h, ?_, htells,
    reduceOption_eq_nil_iff_of_forall₂ htells fun _ _ htells => htells.eq_none_iff⟩
  rw [check_eq_mapM (fun s hs => h.classify_eq hs) packages, hreports]

/-- The last of three imports belongs in front of the first, and the run behind them is in order. -/
theorem reports_tell_shuffled : shuffled.Sliceable ∧ shuffled.spans.Nodup ∧
    ∃ (runs : List (List Statement)) (reports : List (Option Diagnostic)),
      MaximalRuns shuffled runs ∧ rule.check shuffled [] = .ok reports.reduceOption ∧
      List.Forall₂ (TellsRun shuffled []) runs reports ∧
      (reports.reduceOption = [] ↔ ∀ run ∈ runs, InOrder [] run) := by
  have h : shuffled.Sliceable := ⟨by decide, by decide⟩
  have hnodup : shuffled.spans.Nodup := by decide
  exact ⟨h, hnodup, reports_tell_unsorted_runs h hnodup []⟩

end ImportSort

end ImportOrder
