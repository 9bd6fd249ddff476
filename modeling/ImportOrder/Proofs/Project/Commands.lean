import ImportOrder.CommandLine
import ImportOrder.Proofs.Project.Union
import Mathlib

/-!
# The command that checks everything

The rules of the command that checks everything are those of the commands for one rule each. So it
is the union of these commands, and it ends with the status of a problem if one of them does.

## Main definitions

- `Command.singles`: the commands for one rule
- `CommandLine.statusOf`: the exit status of a command with options
- `Project.Unites`: what all commands say of one file

## Main statements

- `CommandLine.parseOptions_eq`: all commands take the same options
- `CommandLine.status_runCommand_check_iff`: how the status for all rules comes from those for one
- `Project.check_unites_commands`
-/

namespace ImportOrder

namespace Command

/-- The commands for one rule each, in the order of the rules. -/
def singles : List Command := [statementOrder, importSort, importNewlines]

/-- The name of a command. -/
def name : Command → String
  | statementOrder => "statement-order"
  | importSort => "import-sort"
  | importNewlines => "import-newlines"
  | check => "check"

theorem ofName?_name (command : Command) : ofName? command.name = some command := by
  cases command <;> rfl

theorem rules_check : Command.check.rules = singles.flatMap rules := rfl

theorem singles_ne_nil : singles ≠ [] := List.cons_ne_nil _ _

end Command

/-- The same request to another command. -/
def Request.withCommand (command : Command) : Request → Request
  | .run _ config => .run command config
  | .help => .help
  | .invalid => .invalid

namespace CommandLine

/-- All commands take the same options. -/
theorem parseOptions_eq (command other : Command) (config : Config) (arguments : List String) :
    parseOptions command config arguments =
      (parseOptions other config arguments).withCommand command := by
  -- the command is only passed on, wherever the reader ends
  fun_induction parseOptions other config arguments
  all_goals
    rw [parseOptions]
    simp_all [Request.withCommand]

/-- A command with options runs with the configuration that all commands read from them, unless they
all explain the program or refuse the options. -/
theorem run_name [Readers] (tree : FileTree) (color : Bool) (command : Command) (options : List String) :
    run tree color (command.name :: options) =
      match parseOptions .check Config.empty options with
      | .run _ config => runCommand tree color command config
      | .help => .help
      | .invalid => .usage := by
  have hparse : parse (command.name :: options) = parseOptions command Config.empty options := by
    have hhelp : asksForHelp command.name = false := by cases command <;> decide
    have hname : command.name ≠ "help" := by cases command <;> decide
    rw [parse, hhelp, if_neg Bool.false_ne_true, if_neg hname, Command.ofName?_name]
  rw [run, hparse, parseOptions_eq command .check]
  cases parseOptions .check Config.empty options <;> rfl

section Status

variable [Readers] {tree : FileTree} {color : Bool} {command : Command} {config : Config}

/-- A command that runs ends with status 0 if it finds nothing. -/
theorem status_runCommand_eq_zero_iff : (runCommand tree color command config).status = 0 ↔
    ∃ result, Project.check tree config command.rules = .ok result ∧ result.total = 0 := by
  rw [runCommand]
  cases Project.check tree config command.rules with
  | error cause => cases cause <;> simp [Response.status]
  | ok result => simp [Response.status]

theorem status_runCommand_eq_badSlice_iff :
    (runCommand tree color command config).status = 101 ↔
      ∃ cut, Project.check tree config command.rules = .error (.badSlice cut) := by
  rw [runCommand]
  cases Project.check tree config command.rules with
  | error cause => cases cause <;> simp [Response.status]
  | ok result => by_cases h : 0 < result.total <;> simp [Response.status, h]

/-- If nothing is cut badly, a command that runs ends with status 1 or 0. -/
theorem status_runCommand_eq_one_iff (h : (runCommand tree color command config).status ≠ 101) :
    (runCommand tree color command config).status = 1 ↔
      (runCommand tree color command config).status ≠ 0 := by
  revert h
  rw [runCommand]
  cases Project.check tree config command.rules with
  | error cause => cases cause <;> simp [Response.status]
  | ok result => simp [Response.status]

/-- If nothing is cut badly, the command that checks everything ends with status 1 if one of those
for one rule does. -/
theorem status_runCommand_check_iff
    (hcheck : (runCommand tree color .check config).status ≠ 101)
    (hsingles : ∀ command ∈ Command.singles, (runCommand tree color command config).status ≠ 101) :
    (runCommand tree color .check config).status = 1 ↔
      ∃ command ∈ Command.singles, (runCommand tree color command config).status = 1 := by
  have hone : ∀ command ∈ Command.singles, ((runCommand tree color command config).status = 1 ↔
      ¬ ∃ result, Project.check tree config command.rules = .ok result ∧ result.total = 0) := by
    intro command hcommand
    rw [status_runCommand_eq_one_iff (hsingles command hcommand), Ne, status_runCommand_eq_zero_iff]
  rw [status_runCommand_eq_one_iff hcheck, Ne, status_runCommand_eq_zero_iff, Command.rules_check,
    Project.exists_check_flatMap_total_iff Command.singles_ne_nil]
  simp only [not_forall, exists_prop]
  exact exists_congr fun command => and_congr_right fun hcommand => (hone command hcommand).symm

/-- The exit status of a command with options. -/
def statusOf (tree : FileTree) (color : Bool) (options : List String) (command : Command) : Nat :=
  (run tree color (command.name :: options)).status

end Status

end CommandLine

namespace Project

section WithReaders

variable [Readers]

/-- What all commands say of one file of a project. -/
structure Unites (tree : FileTree) (setup : Setup) (result : Command → CheckResult)
    (names : List String) (own : Command → Option FileReport) : Prop where
  /-- These are their reports. -/
  reports : ∀ command, Reports tree command.rules setup (result command) names (own command)
  /-- All of them can read and parse the file, or none can. -/
  analyzed : ∀ command, (own command).isSome = (own .check).isSome
  path : ∀ command, ∀ report ∈ own command, report.path = reportPath names
  /-- The reports of the rules are merged in document order, and in the order of the rules where
  they are about one span. -/
  merged : ∀ whole ∈ own .check, ∀ orders ∈ own .statementOrder, ∀ sorts ∈ own .importSort,
    ∀ newlines ∈ own .importNewlines, whole.diagnostics =
      (orders.diagnostics.merge sorts.diagnostics Diagnostic.precedes).merge newlines.diagnostics
        Diagnostic.precedes
  /-- The file stands in the result for all rules if it stands in that for one. -/
  mem_iff : (∃ whole ∈ own .check, whole ∈ (result .check).reports) ↔
    ∃ command ∈ Command.singles, ∃ part ∈ own command, part ∈ (result command).reports

variable {tree : FileTree} {config : Config} {setup : Setup} {names : List String}
  {result : Command → CheckResult}

theorem diagnosticsOf_check
    (h : ∀ command ∈ Command.singles, setup.Succeeds tree command.rules names) :
    setup.diagnosticsOf tree Command.check.rules names =
      ((setup.diagnosticsOf tree Command.statementOrder.rules names).merge
        (setup.diagnosticsOf tree Command.importSort.rules names) Diagnostic.precedes).merge
        (setup.diagnosticsOf tree Command.importNewlines.rules names) Diagnostic.precedes := by
  rw [Command.rules_check, diagnosticsOf_flatMap h]
  simp only [Command.singles, List.map_cons, List.map_nil, Diagnostic.merged, List.foldl_cons,
    List.foldl_nil, List.nil_merge]

theorem succeeds_of_check_eq (hsetup : Project.setup tree config = .ok setup)
    (hcheck : ∀ command : Command, check tree config command.rules = .ok (result command))
    (command : Command) :
    (∀ names ∈ setup.files, setup.Succeeds tree command.rules names) ∧ result command =
      summarize setup.root (setup.files.map (setup.reportOf tree command.rules)) := by
  obtain ⟨setup', hsetup', hall, hresult⟩ := check_eq_ok_iff.1 (hcheck command)
  obtain rfl := Except.ok.inj (hsetup.symm.trans hsetup')
  exact ⟨hall, hresult⟩

theorem unites_reportOf (hsetup : Project.setup tree config = .ok setup)
    (hcheck : ∀ command : Command, check tree config command.rules = .ok (result command))
    (hnames : names ∈ setup.files) :
    Unites tree setup result names fun command => setup.reportOf tree command.rules names := by
  have hreports : ∀ command : Command, Reports tree command.rules setup (result command) names
      (setup.reportOf tree command.rules names) := by
    intro command
    obtain ⟨report, hreport, hreports⟩ := exists_reports hsetup (hcheck command) hnames
    have heq := Setup.Succeeds.fileReport_eq ⟨report, hreport⟩
    rwa [Except.ok.inj (hreport.symm.trans heq)] at hreports
  have hpart : ∀ command ∈ Command.singles, setup.Succeeds tree command.rules names :=
    fun command _ => (succeeds_of_check_eq hsetup hcheck command).1 names hnames
  cases hsource : source? tree (setup.location ++ names) with
  | none =>
    simp only [reportOf_of_none hsource] at hreports ⊢
    exact ⟨hreports, fun _ => rfl, by simp, by simp, by simp⟩
  | some source =>
    simp only [reportOf_of_some hsource] at hreports ⊢
    refine ⟨hreports, fun _ => rfl, ?_, ?_, ?_⟩
    · rintro command report ⟨⟩
      rfl
    · rintro whole ⟨⟩ orders ⟨⟩ sorts ⟨⟩ newlines ⟨⟩
      exact diagnosticsOf_check hpart
    · have hmem : ∀ command : Command,
          (∃ part ∈ some ⟨reportPath names, setup.diagnosticsOf tree command.rules names⟩,
            part ∈ (result command).reports) ↔
          setup.diagnosticsOf tree command.rules names ≠ [] := by
        intro command
        simpa using (hreports command).mem_iff _ rfl
      simp only [hmem]
      rw [Command.rules_check]
      exact diagnosticsOf_flatMap_ne_nil_iff hpart

/-- The command that checks everything is the union of the commands for one rule each.

It succeeds if they all do. Then all four read and parse the same files, the reports about a file
are merged from theirs, a file has reports if it has some from one of them, and the numbers of
reports add up.

With any options, it is stopped by a bad cut if one of them is, and that cannot be if the spans of
all sources can be cut out of their texts. Otherwise it ends with status 1 if one of them does. -/
theorem check_unites_commands (tree : FileTree) (config : Config) :
    ((∃ result, check tree config Command.check.rules = .ok result) ↔
      ∀ command ∈ Command.singles, ∃ result, check tree config command.rules = .ok result) ∧
    (∀ result : Command → CheckResult,
      (∀ command, check tree config command.rules = .ok (result command)) →
      ∃ setup, Project.setup tree config = .ok setup ∧
        (∀ command, (result command).filesAnalyzed = (result .check).filesAnalyzed) ∧
        (∀ names ∈ setup.files, ∃ own, Unites tree setup result names own) ∧
        (∀ path, path ∈ (result .check).reports.map (·.path) ↔
          ∃ command ∈ Command.singles, path ∈ (result command).reports.map (·.path)) ∧
        (result .check).total = (result .statementOrder).total + (result .importSort).total +
          (result .importNewlines).total) ∧
    ∀ (color : Bool) (options : List String),
      let status := CommandLine.statusOf tree color options
      (status .check = 101 ↔ ∃ command ∈ Command.singles, status command = 101) ∧
      ((∀ location, ∀ source ∈ source? tree location, source.Sliceable) → status .check ≠ 101) ∧
      (status .check ≠ 101 →
        (status .check = 1 ↔ ∃ command ∈ Command.singles, status command = 1)) := by
  refine ⟨?_, ?_, ?_⟩
  · rw [Command.rules_check]
    exact exists_check_flatMap_iff Command.singles_ne_nil
  · intro result hcheck
    obtain ⟨setup, hsetup, -⟩ := check_eq_ok_iff.1 (hcheck .check)
    have hall := fun command => (succeeds_of_check_eq hsetup hcheck command).1
    have hresult := fun command => (succeeds_of_check_eq hsetup hcheck command).2
    refine ⟨setup, hsetup, ?_, ?_, ?_, ?_⟩
    · intro command
      rw [hresult command, hresult .check, filesAnalyzed_summarize, filesAnalyzed_summarize]
    · intro names hnames
      exact ⟨_, unites_reportOf hsetup hcheck hnames⟩
    · intro path
      simp only [hresult, mem_paths_summarize]
      exact @exists_path_flatMap_iff _ tree setup _ Command.rules Command.singles
        (fun command _ => hall command) path
    · simp only [hresult, total_summarize]
      rw [Command.rules_check,
        (flatMap_diagnosticsOf_perm fun command _ => hall command).length_eq]
      simp [Command.singles, Nat.add_assoc]
  · intro color options
    simp only [CommandLine.statusOf, CommandLine.run_name]
    cases CommandLine.parseOptions .check Config.empty options with
    | help => simp [Response.status]
    | invalid => simp [Response.status]
    | run command config =>
      have hcut : (CommandLine.runCommand tree color .check config).status = 101 ↔
          ∃ command ∈ Command.singles,
            (CommandLine.runCommand tree color command config).status = 101 := by
        simp only [CommandLine.status_runCommand_eq_badSlice_iff, Command.rules_check,
          exists_check_flatMap_badSlice_iff]
      refine ⟨hcut, fun hsliceable => ?_, fun hcheck => ?_⟩
      · rw [Ne, CommandLine.status_runCommand_eq_badSlice_iff, exists_check_badSlice_iff]
        rintro ⟨setup, -, names, -, hfails⟩
        exact hfails (succeeds_of_sliceable (hsliceable _))
      · refine CommandLine.status_runCommand_check_iff hcheck fun command hcommand hstatus => ?_
        exact hcheck (hcut.2 ⟨command, hcommand, hstatus⟩)

end WithReaders

/-- A file with imports below its code, and not in the order of their paths. -/
def mixedTree : FileTree where
  entries := [(["p", "a.ts"], .file "1;\nimport'b'\nimport'a'\n".toUTF8)]
  cwd := []

def mixedSetup : Setup := ⟨"/p", ["p"], [["a.ts"]], false, Settings.empty⟩

def mixedSource : Source where
  text := "1;\nimport'b'\nimport'a'\n".toList
  statements := [.plain ⟨0, 2⟩, ⟨.importDecl, 0, false, some "b", ⟨3, 12⟩⟩,
    ⟨.importDecl, 0, false, some "a", ⟨13, 22⟩⟩]
  comments := []

theorem exists_check_mixed {rules : List Rule} {n : Nat}
    (h : (mixedSource.check rules []).toOption.map List.length = some n) :
    ∃ result, check mixedTree (rootedAt "/p") rules = .ok result ∧ result.total = n := by
  have hsetup : Project.setup mixedTree (rootedAt "/p") = .ok mixedSetup := by decide +kernel
  have hsource : source? mixedTree (mixedSetup.location ++ ["a.ts"]) = some mixedSource := by
    decide +kernel
  have hpackages : mixedSetup.packagesOf mixedTree ["a.ts"] = [] := by decide +kernel
  obtain ⟨own, hown, hlength⟩ : ∃ own, mixedSource.check rules [] = .ok own ∧ own.length = n := by
    cases hcheck : mixedSource.check rules [] with
    | error e => simp [hcheck, Except.toOption] at h
    | ok own => exact ⟨own, rfl, by simpa [hcheck, Except.toOption] using h⟩
  rw [← hpackages] at hown
  refine exists_check_and_iff.2 ⟨mixedSetup, hsetup, ?_, ?_⟩
  · intro names hnames
    obtain rfl := List.mem_singleton.1 hnames
    exact ⟨_, by rw [fileReport_of_some hsource, hown]; rfl⟩
  · rw [total_summarize]
    change (mixedSetup.diagnosticsOf mixedTree rules ["a.ts"] ++ []).length = n
    rw [diagnosticsOf_of_some hsource hown, List.append_nil, hlength]

theorem sliceable_mixed (location : FileTree.Location) :
    ∀ source ∈ source? mixedTree location, source.Sliceable := by
  by_cases hfile : location = ["p", "a.ts"]
  · subst hfile
    have hsource : source? mixedTree ["p", "a.ts"] = some mixedSource := by decide +kernel
    rw [hsource]
    rintro source ⟨⟩
    exact ⟨by decide +kernel, by decide +kernel⟩
  · have hentry : mixedTree.entries.lookup location = none := by
      simp [mixedTree, List.lookup_cons, beq_eq_false_iff_ne.2 hfile]
    have hnone : source? mixedTree location = none := by
      simp [source?, FileTree.textAt?, FileTree.file?, hentry]
    rw [hnone]
    rintro source ⟨⟩

/-- One report of the first rule and one of the second make two, and the first is enough for status
1. -/
theorem mixed_check_unites_commands : (∃ result : Command → CheckResult,
    (∀ command, check mixedTree (rootedAt "/p") command.rules = .ok (result command)) ∧
    (result .statementOrder).total = 1 ∧ (result .importSort).total = 1 ∧
    (result .importNewlines).total = 0 ∧ (result .check).total = 2) ∧
    CommandLine.statusOf mixedTree false ["--root", "/p"] .check = 1 := by
  obtain ⟨orders, horders, hone⟩ := @exists_check_mixed Command.statementOrder.rules 1 (by cbv)
  obtain ⟨sorts, hsorts, hone'⟩ := @exists_check_mixed Command.importSort.rules 1 (by cbv)
  obtain ⟨newlines, hnewlines, hnone⟩ := @exists_check_mixed Command.importNewlines.rules 0 (by cbv)
  obtain ⟨hsucceeds, hunion, hstatuses⟩ := check_unites_commands mixedTree (rootedAt "/p")
  obtain ⟨whole, hwhole⟩ := hsucceeds.2 <| by
    simpa [Command.singles] using ⟨⟨orders, horders⟩, ⟨sorts, hsorts⟩, ⟨newlines, hnewlines⟩⟩
  let result : Command → CheckResult
    | .statementOrder => orders
    | .importSort => sorts
    | .importNewlines => newlines
    | .check => whole
  have hcheck : ∀ command,
      check mixedTree (rootedAt "/p") command.rules = .ok (result command) := by
    intro command
    cases command <;> assumption
  constructor
  · obtain ⟨-, -, -, -, -, htotal⟩ := hunion result hcheck
    refine ⟨result, hcheck, hone, hone', hnone, ?_⟩
    rw [htotal]
    change orders.total + sorts.total + newlines.total = 2
    omega
  · have hparse : CommandLine.parseOptions .check Config.empty ["--root", "/p"] =
        .run .check (rootedAt "/p") := by
      decide +kernel
    have hstatus : CommandLine.statusOf mixedTree false ["--root", "/p"] .statementOrder = 1 := by
      rw [CommandLine.statusOf, CommandLine.run_name, hparse]
      simp [CommandLine.runCommand, horders, Response.status, hone]
    obtain ⟨-, hcut, hiff⟩ := hstatuses false ["--root", "/p"]
    exact (hiff (hcut sliceable_mixed)).2 ⟨.statementOrder, List.mem_cons_self, hstatus⟩

end Project

end ImportOrder
