import ImportOrder.Collection
import ImportOrder.Config
import ImportOrder.Manifest

/-!
# Checking a project

All source files of a project are checked, each with the packages that the settings and its nearest
manifest declare. Files that cannot be read or parsed are passed over.

## Main definitions

- `FileReport`, `CheckResult`, `CheckError`
- `Project.checkFile`: the reports about one file
- `Project.check`: the reports about all files
-/

namespace ImportOrder

/-- The reports about one file. -/
structure FileReport where
  /-- The path of the file from the root. -/
  path : String
  /-- The reports, in document order. -/
  diagnostics : List Diagnostic
deriving DecidableEq, Repr, Inhabited

/-- The reports about a project. -/
structure CheckResult where
  /-- The root of the project. -/
  root : String
  /-- The files with reports, by path. -/
  reports : List FileReport
  /-- The number of files that could be read and parsed. -/
  filesAnalyzed : Nat
deriving DecidableEq, Repr, Inhabited

/-- The number of reports about all files. -/
def CheckResult.total (result : CheckResult) : Nat :=
  (result.reports.flatMap (·.diagnostics)).length

/-- Why a project cannot be checked. -/
inductive CheckError where
  /-- The configuration cannot be resolved. -/
  | config (cause : ConfigError)
  /-- There is nothing at the root. -/
  | missingRoot
  /-- There are no source files below the root. -/
  | noSourceFiles (root : String)
  /-- A rule cut a text where it cannot be cut. -/
  | badSlice (cut : BadSlice)
deriving DecidableEq, Repr, Inhabited

/-- An error in words; that nothing is at the root is left to the system to say. -/
def CheckError.message : CheckError → String
  | config cause => cause.message
  | missingRoot => ""
  | noSourceFiles root => "No source files found under " ++ root
  | badSlice _ => ""

namespace Project

open FileTree (Location)

variable [Readers]

/-- The parsed file at a place. -/
def source? (tree : FileTree) (location : Location) : Option Source := do
  let text ← tree.textAt? location
  let dialect := Dialect.ofExtension location.path.extension?
  Readers.source? dialect text

/-- The path of a file in reports. -/
def reportPath (names : List String) : String :=
  (Collection.pathText names).map fun c => if c = '\\' then '/' else c

/-- The known packages for a file, and the cache after they were asked for. -/
def packagesFor (tree : FileTree) (known : Packages) (cache : Option ManifestCache) (file : Path) :
    Packages × Option ManifestCache :=
  match cache with
  | none => (known, none)
  | some cache =>
    let (packages, cache) := cache.packagesFor tree file
    (known ++ packages, some cache)

/-- The reports about the file to which names lead from the root, if it can be read and parsed, and
the cache after it was checked. -/
def checkFile (tree : FileTree) (rules : List Rule) (known : Packages) (root : Location)
    (cache : Option ManifestCache) (names : List String) :
    Checked (Option FileReport × Option ManifestCache) :=
  let location := root ++ names
  match source? tree location with
  | none => .ok (none, cache)
  | some source => do
    let (packages, cache) := packagesFor tree known cache (FileTree.Location.path location)
    let diagnostics ← source.check rules packages
    return (some ⟨reportPath names, diagnostics⟩, cache)

/-- The reports about files, in order; none for a file that cannot be read or parsed. -/
def checkFiles (tree : FileTree) (rules : List Rule) (known : Packages) (root : Location) :
    (cache : Option ManifestCache) → List (List String) → Checked (List (Option FileReport))
  | _, [] => .ok []
  | cache, names :: files => do
    let (report, cache) ← checkFile tree rules known root cache names
    let reports ← checkFiles tree rules known root cache files
    return report :: reports

/-- The reports of a whole project, from those about its files. -/
def summarize (root : String) (checked : List (Option FileReport)) : CheckResult :=
  let reports := checked.filterMap id
  { root := root
    reports := (reports.filter (!·.diagnostics.isEmpty)).mergeSort fun a b => !(b.path < a.path)
    filesAnalyzed := reports.length }

/-- Checks all source files of a project. -/
def check (tree : FileTree) (config : Config) (rules : List Rule) :
    Except CheckError CheckResult := do
  let (config, resolved) := config.resolve tree
  resolved.mapError .config
  let root ← config.resolvedRoot.mapError .config
  match tree.resolveText? root with
  | none => .error .missingRoot
  | some location => match Collection.collect? tree location config.entryPattern with
    | none => .error .missingRoot
    | some [] => .error (.noSourceFiles root)
    | some files =>
      let cache := if config.noManifest then none else some (ManifestCache.empty (Path.ofText root))
      let known := config.settings.knownPackages
      let checked ← (checkFiles tree rules known location cache files).mapError .badSlice
      return summarize root checked

end Project

end ImportOrder
