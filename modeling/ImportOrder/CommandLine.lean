import ImportOrder.Report
import ImportOrder.Rule.ImportNewlines
import ImportOrder.Rule.ImportSort
import ImportOrder.Rule.StatementOrder

/-!
# The command line

A command names the rules to check, and its options make up the configuration.

## Main definitions

- `Command`, `Command.rules`
- `CommandLine.parse`: what arguments ask for
- `CommandLine.run`: the answer to arguments on a file tree

## Design notes

Arguments are read from left to right, and the first that is wrong or asks for help decides. An
option takes its value from behind an equals sign or from the next argument, which must not look
like an option itself.
-/

namespace ImportOrder

/-- What can be checked. -/
inductive Command where
  /-- The order of statements. -/
  | statementOrder
  /-- The order of module paths. -/
  | importSort
  /-- Blank lines between groups. -/
  | importNewlines
  /-- Everything. -/
  | check
deriving DecidableEq, Repr, Inhabited

namespace Command

/-- The rules that a command checks, in order. -/
def rules : Command → List Rule
  | statementOrder => [StatementOrder.rule]
  | importSort => [ImportSort.rule]
  | importNewlines => [ImportNewlines.rule]
  | check => [StatementOrder.rule, ImportSort.rule, ImportNewlines.rule]

/-- The command with a name. -/
def ofName? : String → Option Command
  | "statement-order" => some statementOrder
  | "import-sort" => some importSort
  | "import-newlines" => some importNewlines
  | "check" => some check
  | _ => none

end Command

/-- What arguments ask for. -/
inductive Request where
  /-- To run a command. -/
  | run (command : Command) (config : Config)
  /-- To explain the program. -/
  | help
  /-- Nothing that can be done. -/
  | invalid
deriving DecidableEq, Repr, Inhabited

/-- The answer to a request. -/
inductive Response where
  /-- The lines that tell the result of a check, and whether there are problems. -/
  | report (lines : List String) (problems : Bool) (filesAnalyzed : Nat)
  /-- The check could not be made. -/
  | failure (cause : CheckError)
  /-- An explanation of the program. -/
  | help
  /-- The arguments are wrong. -/
  | usage
deriving DecidableEq, Repr, Inhabited

/-- The exit status of the program. A bad cut stops it wherever it is. -/
def Response.status : Response → Nat
  | report _ problems _ => if problems then 1 else 0
  | failure (.badSlice _) => 101
  | failure _ => 1
  | help => 0
  | usage => 2

namespace CommandLine

/-- Options that take a value. -/
inductive ValueOption where
  /-- The root of the project. -/
  | root
  /-- What the path of a file must contain. -/
  | entryPattern
  /-- The settings file. -/
  | settings
deriving DecidableEq, Repr, Inhabited

/-- The option with a name. -/
def ValueOption.ofName? : String → Option ValueOption
  | "--root" => some root
  | "--entry-glob" => some entryPattern
  | "--settings" => some settings
  | _ => none

/-- The configuration with the value of an option, which must not have one yet. A path must not be
empty. -/
def ValueOption.set (option : ValueOption) (value : String) (config : Config) : Option Config :=
  match option with
  | root =>
    if config.root.isSome || value.isEmpty then none else some { config with root := some value }
  | entryPattern =>
    if config.entryPattern.isSome then none else some { config with entryPattern := some value }
  | settings =>
    if config.settingsPath.isSome || value.isEmpty then none
    else some { config with settingsPath := some value }

/-- An argument split at its first equals sign. -/
def splitEquals (argument : String) : String × Option String :=
  let name := argument.toList.takeWhile (· != '=')
  match argument.toList.dropWhile (· != '=') with
  | _ :: value => (String.ofList name, some (String.ofList value))
  | [] => (argument, none)

/-- Does an argument look like an option? A single dash does not. -/
def looksLikeOption (argument : String) : Bool :=
  argument.toList.head? == some '-' && argument.length > 1

/-- Does an argument ask for help? Short options may be run together, and the first decides. -/
def asksForHelp (argument : String) : Bool :=
  argument == "--help" || "-h".toList.isPrefixOf argument.toList

/-- Reads the options of a command. -/
def parseOptions (command : Command) : Config → List String → Request
  | config, [] => .run command config
  | config, argument :: arguments =>
    if asksForHelp argument then .help
    else if argument = "--" then if arguments.isEmpty then .run command config else .invalid
    else if argument = "--no-manifest" then
      if config.noManifest then .invalid
      else parseOptions command { config with noManifest := true } arguments
    else
      let (name, given) := splitEquals argument
      match ValueOption.ofName? name, given, arguments with
      | none, _, _ => .invalid
      | some option, some value, arguments => match option.set value config with
        | some config => parseOptions command config arguments
        | none => .invalid
      | some _, none, [] => .invalid
      | some option, none, value :: arguments =>
        if looksLikeOption value then .invalid
        else match option.set value config with
          | some config => parseOptions command config arguments
          | none => .invalid

/-- Reads the arguments of the explaining command: the name of one command at most. -/
def parseHelp : List String → Request
  | [] => .help
  | [name] => if (Command.ofName? name).isSome || name = "help" then .help else .invalid
  | _ => .invalid

/-- What arguments ask for. -/
def parse : List String → Request
  | [] => .invalid
  | argument :: arguments =>
    if asksForHelp argument then .help
    else if argument = "help" then parseHelp arguments
    else match Command.ofName? argument with
      | some command => parseOptions command Config.empty arguments
      | none => .invalid

/-- The lines that tell the result of a check. -/
def reportLines (tree : FileTree) (color : Bool) (result : CheckResult) : List String :=
  if result.total > 0 then Report.tree color (FileTree.Location.path tree.cwd) result
  else Report.noIssues color result.filesAnalyzed

variable [Readers]

/-- Runs a command. -/
def runCommand (tree : FileTree) (color : Bool) (command : Command) (config : Config) : Response :=
  match Project.check tree config command.rules with
  | .ok result =>
    .report (reportLines tree color result) (result.total > 0) result.filesAnalyzed
  | .error cause => .failure cause

/-- The answer to arguments on a file tree. -/
def run (tree : FileTree) (color : Bool) (arguments : List String) : Response :=
  match parse arguments with
  | .run command config => runCommand tree color command config
  | .help => .help
  | .invalid => .usage

end CommandLine

end ImportOrder
