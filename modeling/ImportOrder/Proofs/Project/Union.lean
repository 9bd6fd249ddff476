import ImportOrder.Proofs.Order.StableSort
import ImportOrder.Proofs.Project.FileReport
import ImportOrder.Proofs.Rule.Safety
import Mathlib

/-!
# Checks with the rules of several parts

A check with the rules of several parts is the union of the checks with the rules of each part. It
succeeds if all of them do, it reads the same files, and what it reports about a file is what they
report, merged in document order, where reports about one span stay in the order of the parts.

## Main definitions

- `Diagnostic.merged`: the stable merge of reports
- `Project.Setup.diagnosticsOf`: what is reported about a file, as a total function

## Main statements

- `Source.check_flatMap`: rules are checked part by part
- `Project.check_eq_ok_iff`: what a check that succeeds is made of
- `Project.exists_check_badSlice_iff`: when a check ends with a bad cut
- `Project.exists_check_flatMap_iff`, `Project.exists_check_flatMap_total_iff`,
  `Project.exists_check_flatMap_badSlice_iff`: how a check of all parts ends
-/

namespace ImportOrder

theorem Checked.mapM_map {ε α β γ : Type} (f : α → Except ε β) (g : β → γ) (l : List α) :
    (l.mapM fun a => g <$> f a) = List.map g <$> l.mapM f := by
  induction l with
  | nil => rfl
  | cons a l ih =>
    rw [List.mapM_cons, List.mapM_cons, ih]
    cases f a with
    | error e => rfl
    | ok b => cases l.mapM f <;> rfl

theorem Checked.exists_mapM_iff {ε α β : Type} {f : α → Except ε β} {l : List α} :
    (∃ m, l.mapM f = .ok m) ↔ ∀ a ∈ l, ∃ b, f a = .ok b := by
  constructor
  · rintro ⟨m, hm⟩ a ha
    obtain ⟨b, -, hb⟩ := exists_mem_of_mapM hm ha
    exact ⟨b, hb⟩
  · intro h
    obtain ⟨m, hm, -⟩ := @exists_mapM ε α β f (fun _ => True) l fun a ha => by simpa using h a ha
    exact ⟨m, hm⟩

theorem Checked.exists_map_iff {ε α β : Type} {f : α → β} {x : Except ε α} :
    (∃ b, f <$> x = .ok b) ↔ ∃ a, x = .ok a := by
  cases x <;> simp [Functor.map, Except.map]

namespace Diagnostic

theorem precedes_iff {d e : Diagnostic} : d.precedes e = true ↔
    d.span.start < e.span.start ∨ d.span.start = e.span.start ∧ d.span.stop ≤ e.span.stop := by
  simp [precedes]

theorem precedes_trans (a b c : Diagnostic) (hab : a.precedes b = true)
    (hbc : b.precedes c = true) : a.precedes c = true := by
  rw [precedes_iff] at hab hbc ⊢
  omega

theorem precedes_total (a b : Diagnostic) : (a.precedes b || b.precedes a) = true := by
  rw [Bool.or_eq_true, precedes_iff, precedes_iff]
  omega

/-- The stable merge of lists of reports in document order: reports about one span stay in the order
of the lists. -/
def merged (reports : List (List Diagnostic)) : List Diagnostic :=
  reports.foldl (fun earlier later => earlier.merge later precedes) []

theorem foldl_merge_perm (reports : List (List Diagnostic)) (earlier : List Diagnostic) :
    (reports.foldl (fun earlier later => earlier.merge later precedes) earlier).Perm
      (earlier ++ reports.flatten) := by
  induction reports generalizing earlier with
  | nil => simp
  | cons later reports ih =>
    rw [List.foldl_cons, List.flatten_cons, ← List.append_assoc]
    exact (ih _).trans ((List.merge_perm_append precedes).append_right _)

theorem merged_perm (reports : List (List Diagnostic)) : (merged reports).Perm reports.flatten :=
  foldl_merge_perm reports []

theorem merged_ne_nil_iff {reports : List (List Diagnostic)} :
    merged reports ≠ [] ↔ ∃ own ∈ reports, own ≠ [] := by
  rw [← List.length_pos_iff, (merged_perm reports).length_eq, List.length_pos_iff]
  simp

theorem foldl_merge_mergeSort (reports : List (List Diagnostic)) (earlier : List Diagnostic) :
    (reports.map (·.mergeSort precedes)).foldl (fun earlier later => earlier.merge later precedes)
        (earlier.mergeSort precedes) =
      (earlier ++ reports.flatten).mergeSort precedes := by
  induction reports generalizing earlier with
  | nil => simp
  | cons later reports ih =>
    rw [List.map_cons, List.foldl_cons, ← mergeSort_append precedes_trans precedes_total, ih,
      List.flatten_cons, List.append_assoc]

theorem mergeSort_flatten (reports : List (List Diagnostic)) :
    reports.flatten.mergeSort precedes = merged (reports.map (·.mergeSort precedes)) := by
  have h := foldl_merge_mergeSort reports []
  rw [List.mergeSort_nil, List.nil_append] at h
  exact h.symm

end Diagnostic

/-! ## Rules part by part -/

section Parts

variable {ι : Type} (rules : ι → List Rule) (parts : List ι)

namespace Source

variable (source : Source) (packages : Packages)

theorem diagnostics_append (first second : List Rule) :
    source.diagnostics (first ++ second) packages = do
      let earlier ← source.diagnostics first packages
      let later ← source.diagnostics second packages
      return earlier ++ later := by
  unfold diagnostics
  rw [List.mapM_append]
  cases first.mapM (·.check source packages) with
  | error e => rfl
  | ok earlier =>
    cases second.mapM (·.check source packages) with
    | error e => rfl
    | ok later => exact congrArg Except.ok List.flatten_append

theorem diagnostics_flatMap : source.diagnostics (parts.flatMap rules) packages =
    List.flatten <$> parts.mapM fun part => source.diagnostics (rules part) packages := by
  induction parts with
  | nil => rfl
  | cons part parts ih =>
    rw [List.mapM_cons, List.flatMap_cons, diagnostics_append, ih]
    cases source.diagnostics (rules part) packages with
    | error e => rfl
    | ok earlier => cases parts.mapM fun part => source.diagnostics (rules part) packages <;> rfl

/-- A check with the rules of all parts merges the checks with the rules of each. -/
theorem check_flatMap : source.check (parts.flatMap rules) packages =
    Diagnostic.merged <$> parts.mapM fun part => source.check (rules part) packages := by
  have hsort : ∀ rules, source.check rules packages =
      (·.mergeSort Diagnostic.precedes) <$> source.diagnostics rules packages := by
    intro rules
    rw [check, map_eq_pure_bind]
  have hmap : (parts.mapM fun part => source.check (rules part) packages) =
      List.map (·.mergeSort Diagnostic.precedes) <$>
        parts.mapM fun part => source.diagnostics (rules part) packages := by
    rw [← Checked.mapM_map]
    simp only [hsort]
  rw [hsort, diagnostics_flatMap, hmap, Functor.map_map, Functor.map_map]
  congr 1
  funext reports
  exact Diagnostic.mergeSort_flatten reports

end Source

end Parts

/-! ## A check, file by file -/

namespace Project

theorem flatMap_diagnostics_filter (reports : List FileReport) :
    (reports.filter (!·.diagnostics.isEmpty)).flatMap (·.diagnostics) =
      reports.flatMap (·.diagnostics) := by
  induction reports with
  | nil => rfl
  | cons report reports ih =>
    rw [List.filter_cons, List.flatMap_cons, ← ih]
    by_cases h : report.diagnostics = []
    · simp [h]
    · simp [h]

variable [Readers] {tree : FileTree} {config : Config} {setup : Setup} {names : List String}
  {result : CheckResult}

namespace Setup

variable (setup : Setup) (tree : FileTree)

/-- The known packages for a file. -/
def packagesOf (names : List String) : Packages :=
  setup.settings.knownPackages ++ setup.found tree names

/-- What is reported about a file, which is nothing if it cannot be read, parsed or checked. -/
def diagnosticsOf (rules : List Rule) (names : List String) : List Diagnostic :=
  match setup.fileReport tree rules names with
  | .ok (some own) => own.diagnostics
  | _ => []

/-- The report about a file that can be checked. -/
def reportOf (rules : List Rule) (names : List String) : Option FileReport :=
  (source? tree (setup.location ++ names)).map fun _ =>
    ⟨reportPath names, setup.diagnosticsOf tree rules names⟩

/-- Does checking a file succeed? It does if the file is passed over. -/
def Succeeds (rules : List Rule) (names : List String) : Prop :=
  ∃ report, setup.fileReport tree rules names = .ok report

end Setup

theorem fileReport_of_none (h : source? tree (setup.location ++ names) = none)
    (rules : List Rule) : setup.fileReport tree rules names = .ok none := by
  rw [Setup.fileReport, Setup.reportWith, h]

theorem fileReport_of_some {source : Source}
    (h : source? tree (setup.location ++ names) = some source) (rules : List Rule) :
    setup.fileReport tree rules names =
      (fun own => some ⟨reportPath names, own⟩) <$>
        source.check rules (setup.packagesOf tree names) := by
  rw [Setup.fileReport, Setup.reportWith, h, map_eq_pure_bind]
  rfl

theorem diagnosticsOf_of_none (h : source? tree (setup.location ++ names) = none)
    (rules : List Rule) : setup.diagnosticsOf tree rules names = [] := by
  rw [Setup.diagnosticsOf, fileReport_of_none h]

theorem diagnosticsOf_of_some {source : Source} {own : List Diagnostic} {rules : List Rule}
    (h : source? tree (setup.location ++ names) = some source)
    (hown : source.check rules (setup.packagesOf tree names) = .ok own) :
    setup.diagnosticsOf tree rules names = own := by
  rw [Setup.diagnosticsOf, fileReport_of_some h, hown]
  rfl

theorem reportOf_of_none (h : source? tree (setup.location ++ names) = none) (rules : List Rule) :
    setup.reportOf tree rules names = none := by
  rw [Setup.reportOf, h]
  rfl

theorem reportOf_of_some {source : Source}
    (h : source? tree (setup.location ++ names) = some source) (rules : List Rule) :
    setup.reportOf tree rules names =
      some ⟨reportPath names, setup.diagnosticsOf tree rules names⟩ := by
  rw [Setup.reportOf, h]
  rfl

theorem Setup.Succeeds.fileReport_eq {rules : List Rule} (h : setup.Succeeds tree rules names) :
    setup.fileReport tree rules names = .ok (setup.reportOf tree rules names) := by
  cases hsource : source? tree (setup.location ++ names) with
  | none => rw [fileReport_of_none hsource, reportOf_of_none hsource]
  | some source =>
    obtain ⟨report, hreport⟩ := h
    rw [fileReport_of_some hsource] at hreport ⊢
    obtain ⟨own, hown, -⟩ := Checked.map_eq_ok.1 hreport
    rw [reportOf_of_some hsource, diagnosticsOf_of_some hsource hown, hown]
    rfl

/-- A check that succeeds finds out what to check, can check all files and sums up. -/
theorem check_eq_ok_iff {rules : List Rule} : check tree config rules = .ok result ↔
    ∃ setup, Project.setup tree config = .ok setup ∧
      (∀ names ∈ setup.files, setup.Succeeds tree rules names) ∧
      result = summarize setup.root (setup.files.map (setup.reportOf tree rules)) := by
  rw [check_eq, Checked.bind_eq_ok]
  refine exists_congr fun setup => and_congr_right fun _ => ?_
  rw [Checked.bind_eq_ok, setup.checkFiles_eq_mapM]
  simp only [Checked.mapError_eq_ok]
  constructor
  · rintro ⟨checked, hchecked, hresult⟩
    have hall : ∀ names ∈ setup.files, setup.Succeeds tree rules names :=
      Checked.exists_mapM_iff.1 ⟨checked, hchecked⟩
    rw [Checked.mapM_eq_ok fun names hnames => (hall names hnames).fileReport_eq] at hchecked
    obtain rfl := Except.ok.inj hchecked
    exact ⟨hall, (Except.ok.inj hresult).symm⟩
  · rintro ⟨hall, rfl⟩
    exact ⟨_, Checked.mapM_eq_ok fun names hnames => (hall names hnames).fileReport_eq, rfl⟩

theorem exists_check_and_iff {rules : List Rule} {P : CheckResult → Prop} :
    (∃ result, check tree config rules = .ok result ∧ P result) ↔
      ∃ setup, Project.setup tree config = .ok setup ∧
        (∀ names ∈ setup.files, setup.Succeeds tree rules names) ∧
        P (summarize setup.root (setup.files.map (setup.reportOf tree rules))) := by
  constructor
  · rintro ⟨result, hresult, hP⟩
    obtain ⟨setup, hsetup, hall, rfl⟩ := check_eq_ok_iff.1 hresult
    exact ⟨setup, hsetup, hall, hP⟩
  · rintro ⟨setup, hsetup, hall, hP⟩
    exact ⟨_, check_eq_ok_iff.2 ⟨setup, hsetup, hall, rfl⟩, hP⟩

theorem exists_check_iff {rules : List Rule} : (∃ result, check tree config rules = .ok result) ↔
    ∃ setup, Project.setup tree config = .ok setup ∧
      ∀ names ∈ setup.files, setup.Succeeds tree rules names := by
  simpa using @exists_check_and_iff _ tree config rules fun _ => True

/-- What keeps a check from starting is not a bad cut. -/
theorem setup_ne_badSlice (cut : BadSlice) : Project.setup tree config ≠ .error (.badSlice cut) := by
  unfold Project.setup
  cases (config.resolve tree).2 with
  | error e => rintro ⟨⟩
  | ok _ =>
    cases hroot : (config.resolve tree).1.resolvedRoot with
    | error e =>
      simp only [hroot]
      rintro ⟨⟩
    | ok root =>
      simp only [hroot, Except.mapError, Checked.ok_bind]
      split
      · rintro ⟨⟩
      · split
        · rintro ⟨⟩
        · rintro ⟨⟩
        · rintro ⟨⟩

/-- A check ends with a bad cut if it can start and cannot check some file. -/
theorem exists_check_badSlice_iff {rules : List Rule} :
    (∃ cut, check tree config rules = .error (.badSlice cut)) ↔
      ∃ setup, Project.setup tree config = .ok setup ∧
        ∃ names ∈ setup.files, ¬ setup.Succeeds tree rules names := by
  rw [check_eq]
  cases hsetup : Project.setup tree config with
  | error cause =>
    constructor
    · rintro ⟨cut, hcut⟩
      obtain rfl : cause = .badSlice cut := Except.error.inj hcut
      exact absurd hsetup (setup_ne_badSlice cut)
    · rintro ⟨setup, ⟨⟩, -⟩
  | ok setup =>
    have hiff := @Checked.exists_mapM_iff _ _ _ (setup.fileReport tree rules) setup.files
    rw [Checked.ok_bind, setup.checkFiles_eq_mapM]
    cases hall : setup.files.mapM (setup.fileReport tree rules) with
    | ok checked =>
      constructor
      · rintro ⟨cut, ⟨⟩⟩
      · rintro ⟨setup', ⟨⟩, names, hnames, hfails⟩
        exact absurd (hiff.1 ⟨checked, hall⟩ names hnames) hfails
    | error cut =>
      refine iff_of_true ⟨cut, rfl⟩ ⟨setup, rfl, ?_⟩
      by_contra hnone
      push Not at hnone
      obtain ⟨checked, hchecked⟩ := hiff.2 hnone
      cases hall.symm.trans hchecked

/-- All rules can check a file whose spans can be cut out of it. -/
theorem succeeds_of_sliceable
    (h : ∀ source ∈ source? tree (setup.location ++ names), source.Sliceable) :
    setup.Succeeds tree Fixing.allRules names := by
  unfold Setup.Succeeds
  cases hsource : source? tree (setup.location ++ names) with
  | none => exact ⟨none, fileReport_of_none hsource _⟩
  | some source =>
    obtain ⟨own, hown, -⟩ :=
      Fixing.exists_checkAll_fits (h source hsource) (setup.packagesOf tree names)
    rw [fileReport_of_some hsource, hown]
    exact ⟨_, rfl⟩

/-! ## Sums over files -/

theorem filesAnalyzed_summarize (rules : List Rule) :
    (summarize setup.root (setup.files.map (setup.reportOf tree rules))).filesAnalyzed =
      setup.files.countP fun names => (source? tree (setup.location ++ names)).isSome := by
  simp only [summarize]
  rw [List.filterMap_map, List.length_filterMap_eq_countP]
  simp [Setup.reportOf]

theorem total_summarize (rules : List Rule) :
    (summarize setup.root (setup.files.map (setup.reportOf tree rules))).total =
      (setup.files.flatMap (setup.diagnosticsOf tree rules)).length := by
  rw [CheckResult.total, summarize, ((List.mergeSort_perm _ _).flatMap_right _).length_eq,
    flatMap_diagnostics_filter]
  congr 1
  induction setup.files with
  | nil => rfl
  | cons names files ih =>
    rw [List.flatMap_cons, ← ih]
    cases hsource : source? tree (setup.location ++ names) with
    | none =>
      rw [List.map_cons, reportOf_of_none hsource, diagnosticsOf_of_none hsource]
      rfl
    | some source =>
      rw [List.map_cons, reportOf_of_some hsource]
      rfl

theorem mem_paths_summarize {rules : List Rule} {path : String} :
    path ∈ (summarize setup.root (setup.files.map (setup.reportOf tree rules))).reports.map
        (·.path) ↔
      ∃ names ∈ setup.files, reportPath names = path ∧
        setup.diagnosticsOf tree rules names ≠ [] := by
  simp only [List.mem_map, mem_summarize]
  constructor
  · rintro ⟨own, ⟨⟨names, hnames, hown⟩, hne⟩, rfl⟩
    obtain ⟨source, -, rfl⟩ := Option.map_eq_some_iff.1 hown
    exact ⟨names, hnames, rfl, hne⟩
  · rintro ⟨names, hnames, rfl, hne⟩
    cases hsource : source? tree (setup.location ++ names) with
    | none => exact absurd (diagnosticsOf_of_none hsource rules) hne
    | some source =>
      exact ⟨⟨reportPath names, setup.diagnosticsOf tree rules names⟩,
        ⟨⟨names, hnames, reportOf_of_some hsource rules⟩, hne⟩, rfl⟩

/-! ## Parts of the rules -/

section Parts

variable {ι : Type} (rules : ι → List Rule) (parts : List ι)

theorem succeeds_flatMap_iff : setup.Succeeds tree (parts.flatMap rules) names ↔
    ∀ part ∈ parts, setup.Succeeds tree (rules part) names := by
  unfold Setup.Succeeds
  cases hsource : source? tree (setup.location ++ names) with
  | none =>
    simp only [fileReport_of_none hsource]
    exact iff_of_true ⟨none, rfl⟩ fun _ _ => ⟨none, rfl⟩
  | some source =>
    simp only [fileReport_of_some hsource, Source.check_flatMap, Checked.exists_map_iff,
      Checked.exists_mapM_iff]

variable {rules parts}

theorem diagnosticsOf_flatMap (h : ∀ part ∈ parts, setup.Succeeds tree (rules part) names) :
    setup.diagnosticsOf tree (parts.flatMap rules) names =
      Diagnostic.merged (parts.map fun part => setup.diagnosticsOf tree (rules part) names) := by
  cases hsource : source? tree (setup.location ++ names) with
  | none =>
    simp only [diagnosticsOf_of_none hsource]
    apply Eq.symm
    apply not_not.1
    rw [← Ne, Diagnostic.merged_ne_nil_iff]
    simp
  | some source =>
    apply diagnosticsOf_of_some hsource
    rw [Source.check_flatMap]
    have hall : (parts.mapM fun part => source.check (rules part) (setup.packagesOf tree names)) =
        .ok (parts.map fun part => setup.diagnosticsOf tree (rules part) names) := by
      apply Checked.mapM_eq_ok
      intro part hpart
      obtain ⟨report, hreport⟩ := h part hpart
      rw [fileReport_of_some hsource] at hreport
      obtain ⟨own, hown, -⟩ := Checked.map_eq_ok.1 hreport
      rw [hown, diagnosticsOf_of_some hsource hown]
    rw [hall]
    rfl

theorem diagnosticsOf_flatMap_ne_nil_iff
    (h : ∀ part ∈ parts, setup.Succeeds tree (rules part) names) :
    setup.diagnosticsOf tree (parts.flatMap rules) names ≠ [] ↔
      ∃ part ∈ parts, setup.diagnosticsOf tree (rules part) names ≠ [] := by
  rw [diagnosticsOf_flatMap h, Diagnostic.merged_ne_nil_iff]
  simp

theorem forall_succeeds_flatMap_iff {files : List (List String)} :
    (∀ names ∈ files, setup.Succeeds tree (parts.flatMap rules) names) ↔
      ∀ part ∈ parts, ∀ names ∈ files, setup.Succeeds tree (rules part) names := by
  simp only [succeeds_flatMap_iff]
  exact ⟨fun h part hpart names hnames => h names hnames part hpart,
    fun h names hnames part hpart => h part hpart names hnames⟩

/-- All reports with the rules of all parts are those with the rules of each. -/
theorem flatMap_diagnosticsOf_perm
    (h : ∀ part ∈ parts, ∀ names ∈ setup.files, setup.Succeeds tree (rules part) names) :
    (setup.files.flatMap (setup.diagnosticsOf tree (parts.flatMap rules))).Perm
      (parts.flatMap fun part => setup.files.flatMap (setup.diagnosticsOf tree (rules part))) := by
  generalize setup.files = files at h ⊢
  induction files with
  | nil => simp
  | cons names files ih =>
    have hnames := diagnosticsOf_flatMap fun part hpart => h part hpart names List.mem_cons_self
    have hfile : (setup.diagnosticsOf tree (parts.flatMap rules) names).Perm
        (parts.flatMap fun part => setup.diagnosticsOf tree (rules part) names) := by
      rw [hnames, List.flatMap_def]
      exact Diagnostic.merged_perm _
    have hfiles := ih fun part hpart other hother =>
      h part hpart other (List.mem_cons_of_mem names hother)
    simp only [List.flatMap_cons]
    exact (hfile.append hfiles).trans (List.flatMap_append_perm _ _ _)

theorem exists_path_flatMap_iff
    (h : ∀ part ∈ parts, ∀ names ∈ setup.files, setup.Succeeds tree (rules part) names)
    {path : String} :
    (∃ names ∈ setup.files, reportPath names = path ∧
        setup.diagnosticsOf tree (parts.flatMap rules) names ≠ []) ↔
      ∃ part ∈ parts, ∃ names ∈ setup.files, reportPath names = path ∧
        setup.diagnosticsOf tree (rules part) names ≠ [] := by
  constructor
  · rintro ⟨names, hnames, hpath, hne⟩
    obtain ⟨part, hpart, hne⟩ :=
      (diagnosticsOf_flatMap_ne_nil_iff fun part hpart => h part hpart names hnames).1 hne
    exact ⟨part, hpart, names, hnames, hpath, hne⟩
  · rintro ⟨part, hpart, names, hnames, hpath, hne⟩
    refine ⟨names, hnames, hpath, ?_⟩
    exact (diagnosticsOf_flatMap_ne_nil_iff fun part hpart => h part hpart names hnames).2
      ⟨part, hpart, hne⟩

/-- All parts find out the same about what to check. -/
theorem exists_setup_iff {P : ι → Setup → Prop} (hparts : parts ≠ []) :
    (∃ setup, Project.setup tree config = .ok setup ∧ ∀ part ∈ parts, P part setup) ↔
      ∀ part ∈ parts, ∃ setup, Project.setup tree config = .ok setup ∧ P part setup := by
  constructor
  · rintro ⟨setup, hsetup, h⟩ part hpart
    exact ⟨setup, hsetup, h part hpart⟩
  · intro h
    obtain ⟨first, hfirst⟩ := List.exists_mem_of_ne_nil parts hparts
    obtain ⟨setup, hsetup, -⟩ := h first hfirst
    refine ⟨setup, hsetup, fun part hpart => ?_⟩
    obtain ⟨setup', hsetup', hpart'⟩ := h part hpart
    rwa [Except.ok.inj (hsetup.symm.trans hsetup')]

/-- A check with the rules of all parts succeeds if the checks with the rules of each do. -/
theorem exists_check_flatMap_iff (hparts : parts ≠ []) :
    (∃ result, check tree config (parts.flatMap rules) = .ok result) ↔
      ∀ part ∈ parts, ∃ result, check tree config (rules part) = .ok result := by
  simp only [exists_check_iff, forall_succeeds_flatMap_iff]
  exact exists_setup_iff hparts

/-- A check with the rules of all parts finds nothing if the checks with the rules of each find
nothing. -/
theorem exists_check_flatMap_total_iff (hparts : parts ≠ []) :
    (∃ result, check tree config (parts.flatMap rules) = .ok result ∧ result.total = 0) ↔
      ∀ part ∈ parts, ∃ result, check tree config (rules part) = .ok result ∧ result.total = 0 := by
  simp only [exists_check_and_iff, total_summarize]
  rw [← exists_setup_iff hparts]
  refine exists_congr fun setup => and_congr_right fun _ => ?_
  rw [forall_succeeds_flatMap_iff, forall₂_and]
  refine and_congr_right fun hall => ?_
  rw [(flatMap_diagnosticsOf_perm hall).length_eq, List.length_eq_zero_iff,
    List.flatMap_eq_nil_iff]
  simp only [List.length_eq_zero_iff]

/-- A check with the rules of all parts ends with a bad cut if the check with those of some part
does. -/
theorem exists_check_flatMap_badSlice_iff :
    (∃ cut, check tree config (parts.flatMap rules) = .error (.badSlice cut)) ↔
      ∃ part ∈ parts, ∃ cut, check tree config (rules part) = .error (.badSlice cut) := by
  simp only [exists_check_badSlice_iff, succeeds_flatMap_iff, not_forall, exists_prop]
  constructor
  · rintro ⟨setup, hsetup, names, hnames, part, hpart, hfails⟩
    exact ⟨part, hpart, setup, hsetup, names, hnames, hfails⟩
  · rintro ⟨part, hpart, setup, hsetup, names, hnames, hfails⟩
    exact ⟨setup, hsetup, names, hnames, part, hpart, hfails⟩

end Parts

end Project

end ImportOrder
