import ImportOrder.Proofs.Attachment

/-!
# Which statements are reported as out of order

The rule on the order of statements reports a statement exactly if its category is of lower rank
than that of the statement right before it. Over a well-formed source the fix of a single report
takes the statement and its comments over a block of statements that all outrank it, and leaves
everything else in place.

## Main definitions

- `StatementOrder.Reports`: the report about a statement right behind another one
- `StatementOrder.Tells`: what such a report says
- `StatementOrder.Refits`: what its fix does when it is made alone

## Main statements

- `StatementOrder.reportAfter_cons_eq_ok`: the reports about a statement behind others
- `StatementOrder.exists_reports`: the reports of the rule, one pair of neighbours after the other
- `StatementOrder.reports_tell_descents_and_refit`
- `StatementOrder.fixes_tear_marked_statements`
-/

namespace ImportOrder

namespace StatementOrder

variable {source : Source} {s t : Statement} {report? : Option Diagnostic}

theorem reportAfter_cons_eq_ok {before here : Category} {last span : Span}
    {seen : List (Category × Span)} {ds : List Diagnostic} :
    reportAfter source ((before, last) :: seen) here span = .ok ds ↔
      Violation.between before here = none ∧ ds = [] ∨
      ∃ violation d, Violation.between before here = some violation ∧
        report source ((before, last) :: seen) here span violation = .ok d ∧ ds = [d] := by
  simp only [reportAfter, List.head?_cons, Option.bind_some]
  cases Violation.between before here with
  | none => simp [eq_comm]
  | some violation =>
    rw [Checked.map_eq_ok]
    simp [eq_comm]

/-- The report about the statement `t`, which stands right behind `s`. -/
def Reports (source : Source) (s t : Statement) (report? : Option Diagnostic) : Prop :=
  ∃ done rest, source.statements = done ++ s :: t :: rest ∧
    reportAfter source (seenOf source (done ++ [s])) (source.passage t).category t.span =
      .ok report?.toList

/-- The report about a statement tells whether it is of lower rank than the one before it, and in
which way it is out of order with it. -/
def Tells (source : Source) (s t : Statement) (report? : Option Diagnostic) : Prop :=
  ∃ before here range, source.classify s = .ok before ∧ source.classify t = .ok here ∧
    source.attachedRange t.span = .ok range ∧
    (report?.isSome = true ↔ here.rank < before.rank) ∧
    ∀ d ∈ report?, d.rule = name ∧ d.span = range.full ∧
      ∃ violation, Violation.between before here = some violation ∧ d.id = violation.id ∧
        d.message = violation.message

/-- The fix of a report, made alone, moves the statement with its comments to a place where it fits,
and all others stay in order. -/
def Refits (source : Source) (s : Statement) (d : Diagnostic) : Prop :=
  ∃ fix, d.fix = some fix ∧ ∃ refit : Refit source s fix,
    source.text.applyFixes [d] = .ok ⟨(source.after [d]).text, 1, 0⟩ ∧
    source.after [d] = refit.front ++ (refit.moved ++ refit.passed) ++ refit.back ∧
    source.passages = refit.front.passages ++ refit.passed.passages ++ [source.passage s] ++
      refit.back.passages ∧
    (source.after [d]).passages = refit.front.passages ++ [source.passage s] ++
      refit.passed.passages ++ refit.back.passages

/-! ## The reports one by one -/

theorem mem_spans_of_mem_seenOf {done : List Statement}
    (hdone : ∀ x ∈ done, x ∈ source.statements) : ∀ x ∈ seenOf source done, x.2 ∈ source.spans := by
  intro x hx
  obtain ⟨y, hy, rfl⟩ := List.mem_map.1 hx
  exact List.mem_map_of_mem (hdone y (List.mem_reverse.1 hy))

/-- A statement behind another one is reported once or not at all. -/
theorem exists_reports_pair (h : source.Sliceable) {done rest : List Statement}
    (hst : source.statements = done ++ s :: t :: rest) :
    ∃ report? : Option Diagnostic,
      reportAfter source (seenOf source (done ++ [s])) (source.passage t).category t.span =
        .ok report?.toList := by
  have hmem : ∀ x ∈ done ++ [s], x ∈ source.statements := fun x hx => by
    rw [hst]
    simp only [List.mem_append, List.mem_cons, List.not_mem_nil, or_false] at hx ⊢
    tauto
  have ht : t.span ∈ source.spans := List.mem_map_of_mem (by simp [hst])
  obtain ⟨ds, hds, -⟩ := exists_reportAfter_fits h source.floor_zero
    (mem_spans_of_mem_seenOf hmem) ht (source.passage t).category
  rw [seenOf_append_singleton] at hds ⊢
  obtain ⟨-, rfl⟩ | ⟨violation, d, -, -, rfl⟩ := reportAfter_cons_eq_ok.1 hds
  · exact ⟨none, hds⟩
  · exact ⟨some d, hds⟩

theorem exists_checkFrom_reports (h : source.Sliceable) {done rest : List Statement}
    (hst : source.statements = done ++ s :: rest) :
    ∃ reports, checkFrom source (seenOf source (done ++ [s])) rest = .ok reports.reduceOption ∧
      List.Forall₂ (fun pair => Reports source pair.1 pair.2) ((s :: rest).zip rest) reports := by
  induction rest generalizing done s with
  | nil => exact ⟨[], rfl, .nil⟩
  | cons t rest ih =>
    obtain ⟨report?, hreport⟩ := exists_reports_pair h hst
    obtain ⟨reports, hreports, hall⟩ := @ih t (done ++ [s]) (by simp [hst])
    refine ⟨report? :: reports, ?_, .cons ⟨done, rest, hst, hreport⟩ hall⟩
    rw [seenOf_append_singleton] at hreports
    rw [checkFrom, h.classify_eq (by simp [hst]), Checked.ok_bind, hreport, Checked.ok_bind,
      hreports, Checked.ok_bind, reduceOption_cons]
    rfl

theorem exists_reports (h : source.Sliceable) (packages : Packages) :
    ∃ reports, rule.check source packages = .ok reports.reduceOption ∧
      List.Forall₂ (fun pair => Reports source pair.1 pair.2)
        (source.statements.zip source.statements.tail) reports := by
  show ∃ reports : List (Option Diagnostic),
    checkFrom source [] source.statements = .ok reports.reduceOption ∧ _
  cases hst : source.statements with
  | nil => exact ⟨[], rfl, .nil⟩
  | cons s rest =>
    -- nothing stands before the first statement
    obtain ⟨reports, hreports, hall⟩ := @exists_checkFrom_reports _ s h [] rest hst
    refine ⟨reports, ?_, hall⟩
    rw [checkFrom, h.classify_eq (by simp [hst]), Checked.ok_bind]
    show (checkFrom source (seenOf source ([] ++ [s])) rest >>= fun later => .ok later) = _
    rw [hreports, Checked.ok_bind]

theorem Reports.eq_none_iff (hreport : Reports source s t report?) :
    report? = none ↔ (source.passage s).category.rank ≤ (source.passage t).category.rank := by
  obtain ⟨done, rest, -, hreport⟩ := hreport
  rw [seenOf_append_singleton, reportAfter_cons_eq_ok] at hreport
  rw [← Violation.between_eq_none_iff]
  obtain ⟨hnone, hnil⟩ | ⟨violation, d, hsome, -, hone⟩ := hreport
  · exact iff_of_true (Option.toList_eq_nil_iff.1 hnil) hnone
  · obtain rfl := Option.toList_eq_singleton_iff.1 hone
    exact iff_of_false nofun (hsome ▸ nofun)

/-- A statement is reported exactly if the one before it outranks it. -/
theorem Reports.tells (h : source.Sliceable) (hreport : Reports source s t report?) :
    Tells source s t report? := by
  have hnone := hreport.eq_none_iff
  obtain ⟨done, rest, hst, hreport⟩ := hreport
  have hs : s ∈ source.statements := by simp [hst]
  have ht : t ∈ source.statements := by simp [hst]
  obtain ⟨range, hrange, -⟩ := h.exists_attachedRange (h.statements t ht)
  refine ⟨_, _, range, h.classify_eq hs, h.classify_eq ht, hrange, ?_, fun d hd => ?_⟩
  · rw [Option.isSome_iff_ne_none, ne_eq, hnone, Nat.not_le]
  · obtain rfl := Option.mem_def.1 hd
    rw [seenOf_append_singleton, reportAfter_cons_eq_ok] at hreport
    obtain ⟨-, hnil⟩ | ⟨violation, d', hsome, hd', hone⟩ := hreport
    · exact absurd hnil nofun
    · obtain rfl : d = d' := by simpa using hone
      rw [StatementOrder.report, hrange, Checked.ok_bind] at hd'
      obtain ⟨n, -, hd'⟩ := Checked.bind_eq_ok.1 hd'
      obtain ⟨fix, -, hd'⟩ := Checked.bind_eq_ok.1 hd'
      obtain rfl := Except.ok.inj hd'
      exact ⟨rfl, rfl, violation, hsome, rfl, rfl⟩

/-! ## One fix alone -/

theorem Refit.refits {fix : Fix} {d : Diagnostic} (refit : Refit source s fix)
    (h : source.WellFormed) (hd : d.fix = some fix) : Refits source s d := by
  have hchanges := refit.changes
  have hpassed := refit.passed_wellFormed
  have hmoved := refit.moved_wellFormed
  have hfront := hchanges.front_wellFormed
  have happlied := Text.appliedFixes_singleton hd hchanges.merged
  have hafter : source.after [d] = refit.front ++ (refit.moved ++ refit.passed) ++ refit.back := by
    rw [Source.after, happlied, List.foldr_cons, List.foldr_nil]
    nth_rewrite 1 [hchanges.eq]
    exact hchanges.amended refit.back hchanges.back_wellFormed
  refine ⟨fix, hd, refit, ?_, hafter, ?_, ?_⟩
  · have hone : ∀ own ∈ [d].filterMap (·.fix), ∃ front old new back,
        own.Changes source front old new back ∧ True := by
      intro own hown
      obtain rfl : own = fix := by simpa [hd] using hown
      exact ⟨_, _, _, _, hchanges, trivial⟩
    obtain ⟨outcome, happly, htext, -, -, hcount⟩ :=
      h.exists_outcome (R := fun _ _ => True) hone
    have hall := Text.applyFixes_count happly
    rw [happlied, List.length_singleton] at hcount
    simp only [List.filterMap_cons, hd, List.filterMap_nil, List.length_singleton] at hall
    obtain ⟨output, applied, skipped⟩ := outcome
    simp only at htext hcount hall
    rw [happly, htext, hcount, show skipped = 0 by omega]
  · nth_rewrite 1 [hchanges.eq]
    rw [Source.passages_append (hfront.append (hpassed.append hmoved)),
      Source.passages_append hfront, Source.passages_append hpassed, refit.moved_passages,
      ← List.append_assoc]
  · rw [hafter, Source.passages_append (hfront.append (hmoved.append hpassed)),
      Source.passages_append hfront, Source.passages_append hmoved, refit.moved_passages,
      ← List.append_assoc]

theorem Reports.refits (h : source.WellFormed) (hh : source.HashbangOutside)
    (hreport : Reports source s t report?) : ∀ d ∈ report?, Refits source t d := by
  rintro d rfl
  have hrank := Nat.lt_of_not_le (mt hreport.eq_none_iff.2 nofun)
  obtain ⟨done, rest, hst, hreport⟩ := hreport
  rw [seenOf_append_singleton, reportAfter_cons_eq_ok] at hreport
  obtain ⟨-, hnil⟩ | ⟨violation, d', -, hd', hone⟩ := hreport
  · exact absurd hnil nofun
  · obtain rfl : d = d' := by simpa using hone
    have hst' : source.statements = done ++ [s] ++ t :: rest := by simp [hst]
    obtain ⟨fix, hreport', ⟨refit⟩⟩ := exists_report h (h.hashbangApart hh) hst'
      List.getLast?_concat hrank violation
    rw [seenOf_append_singleton, hd'] at hreport'
    obtain rfl := Except.ok.inj hreport'
    exact refit.refits h rfl

theorem isChain_iff_forall_mem_zip_tail {α : Type} {R : α → α → Prop} {l : List α} :
    l.IsChain R ↔ ∀ pair ∈ l.zip l.tail, R pair.1 pair.2 := by
  induction l with
  | nil => simp
  | cons x l ih =>
    cases l with
    | nil => simp
    | cons y l =>
      simp only [List.isChain_cons_cons, ih, List.tail_cons, List.zip_cons_cons,
        List.forall_mem_cons]

/-- The rule goes through the pairs of neighbouring statements and reports the second of each pair
whose first outranks it, so that it reports nothing exactly if the ranks do not decrease. Over a
well-formed source in which no statement starts with a `#!` comment, each fix made alone moves the
reported statement to a place where it fits. -/
theorem reports_tell_descents_and_refit {source : Source} (h : source.Sliceable)
    (packages : Packages) :
    ∃ (categories : List Category) (reports : List (Option Diagnostic)),
      source.statements.mapM source.classify = .ok categories ∧
      rule.check source packages = .ok reports.reduceOption ∧
      List.Forall₂ (fun pair => Tells source pair.1 pair.2)
        (source.statements.zip source.statements.tail) reports ∧
      (reports.reduceOption = [] ↔ categories.Pairwise (·.rank ≤ ·.rank)) ∧
      (source.WellFormed → source.HashbangOutside →
        List.Forall₂ (fun pair report? => ∀ d ∈ report?, Refits source pair.2 d)
          (source.statements.zip source.statements.tail) reports) := by
  obtain ⟨reports, hcheck, hreports⟩ := exists_reports h packages
  have htrans : IsTrans Statement fun s t =>
      (source.passage s).category.rank ≤ (source.passage t).category.rank :=
    ⟨fun _ _ _ => Nat.le_trans⟩
  refine ⟨source.statements.map fun s => (source.passage s).category, reports,
    Checked.mapM_eq_ok fun s hs => h.classify_eq hs, hcheck,
    hreports.imp fun _ _ hreport => hreport.tells h, ?_,
    fun hwell hh => hreports.imp fun _ _ hreport => hreport.refits hwell hh⟩
  rw [reduceOption_eq_nil_iff_of_forall₂ hreports fun _ _ hreport => hreport.eq_none_iff,
    List.pairwise_map, ← List.isChain_iff_pairwise, isChain_iff_forall_mem_zip_tail]

/-- Two reports, the fixes of which move the imports above the code, the second import first. -/
theorem reports_tell_unordered : unordered.WellFormed ∧ unordered.HashbangOutside ∧
    ∃ (categories : List Category) (reports : List (Option Diagnostic)),
      unordered.statements.mapM unordered.classify = .ok categories ∧
      rule.check unordered [] = .ok reports.reduceOption ∧
      List.Forall₂ (fun pair => Tells unordered pair.1 pair.2)
        (unordered.statements.zip unordered.statements.tail) reports ∧
      categories = [.plain, .valueImport, .moduleImport] ∧
      List.Forall₂ (fun pair report? => ∀ d ∈ report?, Refits unordered pair.2 d)
        (unordered.statements.zip unordered.statements.tail) reports := by
  have h : unordered.WellFormed := by decide
  have hh : unordered.HashbangOutside := by decide
  obtain ⟨categories, reports, hclassify, hcheck, htells, -, hrefits⟩ :=
    reports_tell_descents_and_refit h.arranged.toSliceable []
  exact ⟨h, hh, categories, reports, hclassify, hcheck, htells,
    Except.ok.inj (hclassify.symm.trans (by decide)), hrefits h hh⟩

/-- The fix of the only report gives out the text of no source that has the same statements. -/
def Tears (source : Source) : Prop :=
  ∃ d outcome, rule.check source [] = .ok [d] ∧ source.text.applyFixes [d] = .ok outcome ∧
    ∀ next : Source, next.text = outcome.output → ¬ next.passages.Perm source.passages

theorem tears_of_absent {passage : Passage} {d : Diagnostic} {outcome : FixOutcome}
    (hcheck : rule.check source [] = .ok [d]) (happly : source.text.applyFixes [d] = .ok outcome)
    (hmem : passage ∈ source.passages) (habsent : ¬ passage.text <:+: outcome.output) :
    Tears source :=
  ⟨d, outcome, hcheck, happly, fun _ htext => Source.not_perm_passages hmem (htext ▸ habsent)⟩

/-- A single fix may tear a statement: one that starts with a `#!` comment, and one that starts with
a byte order mark, which has not the property `White_Space`. -/
theorem fixes_tear_marked_statements :
    (hashbangStatement.WellFormed ∧ Tears hashbangStatement) ∧
    markedNeighbour.Arranged ∧ markedNeighbour.comments = [] ∧
    (∀ x ∈ markedNeighbour.spans, ∃ c part, markedNeighbour.text.slice? x = some (c :: part) ∧
      Character.isWhiteSpace c = false) ∧
    Tears markedNeighbour := by
  have hlegible : markedNeighbour.Legible := by decide
  refine ⟨⟨by decide, ?_⟩, hlegible.arranged, rfl,
    fun x hx => hlegible.visible x (List.mem_append_left _ hx), ?_⟩
  · obtain ⟨d, outcome, passage, hcheck, happly, hmem, habsent⟩ := hashbangStatement_torn
    exact tears_of_absent hcheck happly hmem habsent
  · obtain ⟨d, outcome, passage, hcheck, happly, hmem, habsent⟩ := markedNeighbour_torn
    exact tears_of_absent hcheck happly hmem habsent

end StatementOrder

end ImportOrder
