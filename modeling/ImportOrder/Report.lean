import ImportOrder.Project

/-!
# Reports

The text that tells the result of a check: the problems of each file as a tree, and a summary.

## Main definitions

- `Style`, `Style.paint`: coloured text
- `Report.tree`: the problems of a project
- `Report.noIssues`: the line that says that there are none
-/

namespace ImportOrder

/-- How a piece of text is shown. -/
inductive Style where
  /-- Bold. -/
  | bold
  /-- Dimmed. -/
  | dimmed
  /-- Red. -/
  | red
  /-- Green. -/
  | green
  /-- Yellow. -/
  | yellow
  /-- Bold and green. -/
  | boldGreen
  /-- Bold and yellow. -/
  | boldYellow
  /-- Bold and bright white. -/
  | boldWhite
deriving DecidableEq, Repr, Inhabited

namespace Style

/-- The codes that switch a style on. -/
def codes : Style → String
  | bold => "1"
  | dimmed => "2"
  | red => "31"
  | green => "32"
  | yellow => "33"
  | boldGreen => "1;32"
  | boldYellow => "1;33"
  | boldWhite => "1;97"

/-- A piece of text in a style, if colours are on. -/
def paint (style : Style) (color : Bool) (text : String) : String :=
  if color then "\x1b[" ++ style.codes ++ "m" ++ text ++ "\x1b[0m" else text

end Style

namespace Report

/-- The path of a file as seen from the working directory, or as it stands if the root is not given
from the same place. -/
def shownPath (root : String) (path : String) (cwd : Path) : String :=
  match Path.relativeTo? (Path.ofText (Path.joinText root path)) cwd with
  | some shown => shown.toText
  | none => path

/-- A text filled up with blanks on the left. -/
def padLeft (width : Nat) (text : String) : String :=
  String.ofList (List.replicate (width - text.length) ' ') ++ text

/-- A line and a column. -/
def place (position : Position) : String :=
  toString position.line ++ ":" ++ toString position.column

/-- A report in one line. -/
def problem (color : Bool) (d : Diagnostic) : String :=
  Style.dimmed.paint color (padLeft 5 (place d.start)) ++ "  " ++ d.message ++ "  " ++
    Style.dimmed.paint color (d.rule ++ "/" ++ d.id) ++
    if d.isFixable then "  " ++ Style.green.paint color "(fixable)" else ""

/-- The reports about a file as branches of a tree. -/
def branches (color : Bool) : List Diagnostic → List String
  | [] => []
  | [d] => [Style.dimmed.paint color "└──" ++ "  " ++ problem color d]
  | d :: ds => (Style.dimmed.paint color "├──" ++ "  " ++ problem color d) :: branches color ds

/-- The path of a file, its reports and an empty line. -/
def fileLines (color : Bool) (root : String) (cwd : Path) (report : FileReport) : List String :=
  Style.boldWhite.paint color (shownPath root report.path cwd) ::
    branches color report.diagnostics ++ [""]

/-- The names of the rules that reported something, in order, each once. -/
def ruleNames (diagnostics : List Diagnostic) : List String :=
  ((diagnostics.map (·.rule)).mergeSort fun a b => !(b < a)).eraseDups

/-- How often a rule reported something. -/
def ruleLine (color : Bool) (diagnostics : List Diagnostic) (rule : String) : String :=
  "    " ++ rule ++ ": " ++
    Style.red.paint color (toString (diagnostics.countP (·.rule = rule)))

/-- The numbers of problems, if there are any. -/
def summary (color : Bool) (result : CheckResult) : List String :=
  let all := result.reports.flatMap (·.diagnostics)
  if result.total = 0 then []
  else
    [Style.dimmed.paint color (String.ofList (List.replicate 60 '─')),
      Style.bold.paint color "Summary",
      "  Total problems: " ++ Style.boldYellow.paint color (toString result.total) ++ " (" ++
        Style.green.paint color (toString (all.countP (·.isFixable))) ++ " fixable)",
      "  Files with problems: " ++ Style.yellow.paint color (toString result.reports.length),
      "  By rule:"] ++ (ruleNames all).map (ruleLine color all)

/-- The lines that tell all problems of a project, as seen from the working directory. -/
def tree (color : Bool) (cwd : Path) (result : CheckResult) : List String :=
  [Style.boldYellow.paint color "⚠" ++ " Import order issues detected (" ++
      Style.yellow.paint color (toString result.total) ++ " problems)", ""] ++
    result.reports.flatMap (fileLines color result.root cwd) ++ summary color result

/-- The lines that say that there are no problems. -/
def noIssues (color : Bool) (filesAnalyzed : Nat) : List String :=
  [Style.boldGreen.paint color "✓" ++ " Imports and exports are in order. Files checked: " ++
    toString filesAnalyzed]

end Report

end ImportOrder
