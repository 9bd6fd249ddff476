import ImportOrder.CommandLine
import ImportOrder.Readers.Standard
import ImportOrder.Snapshot

/-!
# The program

The program reads one line from standard input, the snapshot of a file tree, carries out its
arguments on that tree and prints the answer.

## Main definitions

- `Response.print`: prints an answer
- `main`
-/

namespace ImportOrder

/-- The explanation of the arguments. -/
def usageLines : List String :=
  ["Keeps imports and exports of JavaScript/TypeScript files in order",
    "",
    "Usage: <COMMAND> [OPTIONS]",
    "",
    "Commands:",
    "  statement-order  Check that imports and exports come first, grouped by kind",
    "  import-sort      Check that imports and exports of one kind are sorted by path",
    "  import-newlines  Check blank lines between groups of imports and exports",
    "  check            Run every check",
    "  help             Explain the commands",
    "",
    "Options:",
    "  --root <ROOT>              The root of the project",
    "  --entry-glob <ENTRY_GLOB>  What the paths of checked files contain",
    "  --settings <SETTINGS>      The settings file",
    "  --no-manifest              Take no packages from manifests"]

/-- Prints an answer: results and help to standard output, complaints to standard error. -/
def Response.print (response : Response) (elapsed : Nat) : IO Unit := do
  match response with
  | .report lines _ filesAnalyzed =>
    lines.forM fun line => IO.println line
    IO.println s!"\n● Finished in {elapsed}ms on {filesAnalyzed} files (using 1 threads)."
  | .failure cause => IO.eprintln s!"Error: {cause.message}"
  | .help => usageLines.forM fun line => IO.println line
  | .usage => usageLines.forM fun line => IO.eprintln line

end ImportOrder

/-- Carries out the arguments on the file tree that standard input describes. -/
def main (arguments : List String) : IO UInt32 := do
  let start ← IO.monoMsNow
  let line ← (← IO.getStdin).getLine
  match ImportOrder.FileTree.ofSnapshot? line with
  | none =>
    IO.eprintln "Error: The standard input holds no snapshot of a file tree"
    return 1
  | some tree =>
    let response := ImportOrder.CommandLine.run tree false arguments
    response.print ((← IO.monoMsNow) - start)
    return response.status.toUInt32
