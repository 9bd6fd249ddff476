import ImportOrder.Project
import ImportOrder.Proofs.Manifest.Cache
import ImportOrder.Proofs.Text.Cut

/-!
# What is reported about one file

The files of a project are checked with one cache of manifests, which each of them leaves behind for
those that follow. What is reported about a file is nevertheless a function of the file alone and of
the manifests above it: `Project.fileReport` searches for the manifest anew, and checking files with
a shared cache, one after another in any order or at the same time, gives the same.

## Main definitions

- `Project.Setup`, `Project.setup`: what a check of a project starts from
- `Project.fileReport`: the reports about one file without a cache
- `Project.Reports`: what a check says of a file

## Main statements

- `Project.check_eq`: a check is its setup and the check of the files
- `Project.checkFiles_eq`: a cache that holds nothing wrong makes no difference
- `Project.report_independent_of_other_files`
-/

namespace ImportOrder

open FileTree (Location)

namespace FileTree

variable {tree : FileTree} {location next start : Location} {parts : List PathPart}

/-- The place after one more part of a path, if it is there. -/
def Location.followed (location : Location) : PathPart → Location
  | .root => []
  | .current => location
  | .up => location.dropLast
  | .name name => location ++ [name]

theorem eq_followed_of_follow {part : PathPart} (h : tree.follow location part = some next) :
    next = location.followed part := by
  unfold follow at h
  split at h
  · cases part with
    | root => exact (Option.some.inj h).symm
    | current => exact (Option.some.inj h).symm
    | up => exact (Option.some.inj h).symm
    | name name =>
      simp only at h
      split at h
      · exact (Option.some.inj h).symm
      · cases h
  · cases h

theorem eq_foldl_followed (h : parts.foldlM tree.follow start = some location) :
    location = parts.foldl Location.followed start := by
  induction parts generalizing start with
  | nil => exact (Option.some.inj h).symm
  | cons part parts ih =>
    rw [List.foldlM_cons] at h
    obtain ⟨next, hnext, h⟩ := Option.bind_eq_some_iff.1 h
    rw [List.foldl_cons, ← eq_followed_of_follow hnext]
    exact ih h

/-- A path from the root of the file system leads to one place in all trees in which it leads
anywhere, whatever their working directories are. -/
theorem resolve?_unique {tree' : FileTree} {path : Path} {location' : Location}
    (habsolute : path.isAbsolute = true) (h : tree.resolve? path = some location)
    (h' : tree'.resolve? path = some location') : location = location' := by
  obtain ⟨parts⟩ := path
  cases parts with
  | nil => cases habsolute
  | cons part parts =>
    obtain rfl : part = .root := by simpa [Path.isAbsolute] using habsolute
    have hplace : location = (PathPart.root :: parts).foldl Location.followed tree.cwd :=
      eq_foldl_followed h
    have hplace' : location' = (PathPart.root :: parts).foldl Location.followed tree'.cwd :=
      eq_foldl_followed h'
    -- the first part leads to the root from everywhere
    rw [hplace, hplace', List.foldl_cons, List.foldl_cons]
    rfl

theorem resolve?_of_resolveText? {text : String} (h : tree.resolveText? text = some location) :
    tree.resolve? (Path.ofText text) = some location := by
  obtain ⟨found, hfound, h⟩ := Option.bind_eq_some_iff.1 h
  split at h
  · cases h
  · rw [hfound, h]

end FileTree

theorem Path.isAbsolute_ofText {text : String} (h : text.toList.head? = some '/') :
    (Path.ofText text).isAbsolute = true := by
  obtain ⟨rest, hrest⟩ := List.head?_eq_some_iff.1 h
  simp [Path.ofText, hrest, Path.isAbsolute]

theorem FileTree.Location.isAbsolute_ofText_toText (location : Location) :
    (Path.ofText location.path.toText).isAbsolute = true := by
  refine Path.isAbsolute_ofText ?_
  cases location with
  | nil => decide
  | cons name names =>
    simp [FileTree.Location.path, Path.toText, PathPart.toText, String.toList_intercalate]

namespace Config

variable {tree : FileTree} {config : Config}

theorem exists_findRoot_of_resolve [Readers] (h : (config.resolve tree).2 = .ok ()) :
    ∃ root, findRoot tree config = .ok root ∧ (config.resolve tree).1.root = some root := by
  unfold resolve at h ⊢
  cases hroot : findRoot tree config with
  | error e => simp [hroot] at h
  | ok root =>
    refine ⟨root, rfl, ?_⟩
    simp only [hroot] at h ⊢
    split at h
    · rfl
    · split at h
      · cases h
      · rfl

/-- The root that a configuration is resolved to is given from the root of the file system, unless
there is nothing there. -/
theorem isAbsolute_of_findRoot {root : String} {location : Location}
    (h : findRoot tree config = .ok root) (hplace : tree.resolveText? root = some location) :
    (Path.ofText root).isAbsolute = true := by
  unfold findRoot at h
  split at h
  · obtain rfl := Except.ok.inj h
    unfold canonicalText at hplace ⊢
    split
    · exact Location.isAbsolute_ofText_toText _
    · next hnone => simp [hnone] at hplace
  · split at h
    · obtain rfl := Except.ok.inj h
      exact Location.isAbsolute_ofText_toText _
    · cases h

end Config

namespace Project

/-- What a check of a project starts from. -/
structure Setup where
  root : String
  location : Location
  /-- The files to check, as the names that lead to each from the root. -/
  files : List (List String)
  /-- Are manifests left aside? -/
  noManifest : Bool
  settings : Settings
deriving DecidableEq

theorem mem_summarize {root : String} {checked : List (Option FileReport)} {own : FileReport} :
    own ∈ (summarize root checked).reports ↔ some own ∈ checked ∧ own.diagnostics ≠ [] := by
  simp [summarize, List.mem_mergeSort, List.mem_filter, List.mem_filterMap]

section WithReaders

variable [Readers]

/-- Finds out what to check. -/
def setup (tree : FileTree) (config : Config) : Except CheckError Setup := do
  let resolved := (config.resolve tree).1
  (config.resolve tree).2.mapError .config
  let root ← resolved.resolvedRoot.mapError .config
  match tree.resolveText? root with
  | none => .error .missingRoot
  | some location => match Collection.collect? tree location resolved.entryPattern with
    | none => .error .missingRoot
    | some [] => .error (.noSourceFiles root)
    | some files => .ok ⟨root, location, files, resolved.noManifest, resolved.settings⟩

namespace Setup

variable (setup : Setup) (tree : FileTree) (rules : List Rule)

def rootPath : Path := Path.ofText setup.root

def path (names : List String) : Path := FileTree.Location.path (setup.location ++ names)

def directory (names : List String) : Path :=
  ManifestCache.directoryOf setup.rootPath (setup.path names)

/-- The cache that the files share. -/
def cache : Option ManifestCache :=
  if setup.noManifest then none else some (ManifestCache.empty setup.rootPath)

/-- The reports about files, checked one after another. -/
def checkFiles (files : List (List String)) : Checked (List (Option FileReport)) :=
  Project.checkFiles tree rules setup.settings.knownPackages setup.location setup.cache files

/-- The reports about a file for which the given packages were found. -/
def reportWith (names : List String) (found : List String) : Checked (Option FileReport) :=
  match source? tree (setup.location ++ names) with
  | none => .ok none
  | some source => do
    let diagnostics ← source.check rules (setup.settings.knownPackages ++ found)
    return some ⟨reportPath names, diagnostics⟩

/-- The packages that a search for a file finds. -/
def found (names : List String) : List String :=
  if setup.noManifest then []
  else Manifest.nearest tree setup.rootPath (setup.directory names)

/-- The reports about a file, without a cache. -/
def fileReport (names : List String) : Checked (Option FileReport) :=
  setup.reportWith tree rules names (setup.found tree names)

end Setup

variable {tree : FileTree} {config : Config} {rules : List Rule} {setup : Setup}
  {result : CheckResult} {names : List String}

/-- A check finds out what to check, checks it and sums up. -/
theorem check_eq (tree : FileTree) (config : Config) (rules : List Rule) :
    check tree config rules = do
      let setup ← Project.setup tree config
      let checked ← (setup.checkFiles tree rules setup.files).mapError .badSlice
      return summarize setup.root checked := by
  unfold check Project.setup
  rcases config.resolve tree with ⟨config, outcome⟩
  cases outcome with
  | error e => rfl
  | ok _ =>
    cases hroot : config.resolvedRoot with
    | error e => simp only [hroot]; rfl
    | ok root =>
      simp only [hroot, Except.mapError, Checked.ok_bind]
      cases tree.resolveText? root with
      | none => rfl
      | some location =>
        simp only
        cases Collection.collect? tree location config.entryPattern with
        | none => rfl
        | some files =>
          cases files with
          | nil => rfl
          | cons file files => rfl

/-- The root of a project is given from the root of the file system, and there is something. -/
theorem resolveText?_root (h : Project.setup tree config = .ok setup) :
    setup.rootPath.isAbsolute = true ∧ tree.resolveText? setup.root = some setup.location := by
  obtain ⟨_, houtcome, h⟩ := Checked.bind_eq_ok.1 h
  obtain ⟨root, hroot, h⟩ := Checked.bind_eq_ok.1 h
  obtain ⟨found, hfound, hresolved⟩ :=
    Config.exists_findRoot_of_resolve (Checked.mapError_eq_ok.1 houtcome)
  rw [Config.resolvedRoot, hresolved] at hroot
  obtain rfl := Except.ok.inj hroot
  cases hplace : tree.resolveText? found with
  | none => simp [hplace] at h
  | some location =>
    simp only [hplace] at h
    split at h
    · cases h
    · cases h
    · obtain rfl := Except.ok.inj h
      exact ⟨Config.isAbsolute_of_findRoot hfound hplace, hplace⟩

/-- Two checks with one root text start from one place. -/
theorem location_unique {tree' : FileTree} {config' : Config} {setup' : Setup}
    (h : Project.setup tree config = .ok setup) (h' : Project.setup tree' config' = .ok setup')
    (hroot : setup.root = setup'.root) : setup.location = setup'.location := by
  obtain ⟨habsolute, hplace⟩ := resolveText?_root h
  obtain ⟨-, hplace'⟩ := resolveText?_root h'
  rw [← hroot] at hplace'
  exact FileTree.resolve?_unique habsolute (FileTree.resolve?_of_resolveText? hplace)
    (FileTree.resolve?_of_resolveText? hplace')

/-! ## A shared cache -/

/-- A cache, if there is to be one, that holds nothing but what a search finds. -/
def Setup.Serves (setup : Setup) (tree : FileTree) : Option ManifestCache → Prop
  | none => setup.noManifest = true
  | some cache => setup.noManifest = false ∧ cache.root = setup.rootPath ∧ cache.Fresh tree

theorem serves_cache (setup : Setup) (tree : FileTree) : setup.Serves tree setup.cache := by
  unfold Setup.cache
  cases hflag : setup.noManifest with
  | true => exact hflag
  | false => exact ⟨hflag, rfl, ManifestCache.records_empty _ _⟩

/-- With such a cache, the packages for a file are those that a search finds. -/
theorem packagesFor_eq {cache : Option ManifestCache} (h : setup.Serves tree cache)
    (known : Packages) (names : List String) :
    (packagesFor tree known cache (setup.path names)).1 = known ++ setup.found tree names ∧
      setup.Serves tree (packagesFor tree known cache (setup.path names)).2 := by
  cases cache with
  | none =>
    have hflag : setup.noManifest = true := h
    exact ⟨by simp [packagesFor, Setup.found, hflag], hflag⟩
  | some cache =>
    obtain ⟨hflag, hroot, hfresh⟩ := h
    obtain ⟨hanswer, hkept, hafter⟩ := hfresh.packagesFor tree (setup.path names) fun _ => rfl
    rw [← hkept] at hafter
    refine ⟨?_, hflag, hkept.trans hroot, hafter.fresh⟩
    simp [packagesFor, Setup.found, Setup.directory, hflag, hanswer, hroot]

/-- Checking a file gives what is reported about it without a cache, and leaves such a cache. -/
theorem checkFile_eq {cache : Option ManifestCache} (h : setup.Serves tree cache)
    (rules : List Rule) (names : List String) :
    ∃ cache', setup.Serves tree cache' ∧
      checkFile tree rules setup.settings.knownPackages setup.location cache names =
        (·, cache') <$> setup.fileReport tree rules names := by
  unfold Setup.fileReport Setup.reportWith
  cases hsource : source? tree (setup.location ++ names) with
  | none => exact ⟨cache, h, by simp only [checkFile, hsource]; rfl⟩
  | some source =>
    obtain ⟨hpackages, hserves⟩ := packagesFor_eq h setup.settings.knownPackages names
    refine ⟨_, hserves, ?_⟩
    rw [← hpackages]
    simp only [checkFile, hsource, Setup.path, map_bind, map_pure]

theorem checkFiles_eq {cache : Option ManifestCache} (h : setup.Serves tree cache)
    (rules : List Rule) (files : List (List String)) :
    checkFiles tree rules setup.settings.knownPackages setup.location cache files =
      files.mapM (setup.fileReport tree rules) := by
  induction files generalizing cache with
  | nil => rfl
  | cons names files ih =>
    obtain ⟨cache', hserves, hfile⟩ := checkFile_eq h rules names
    rw [checkFiles, hfile, List.mapM_cons, ← ih hserves]
    cases setup.fileReport tree rules names <;> rfl

/-! ## One file among others -/

/-- What a check says of a file; it says nothing of one that cannot be read or parsed. -/
structure Reports (tree : FileTree) (rules : List Rule) (setup : Setup) (result : CheckResult)
    (names : List String) (report : Option FileReport) : Prop where
  /-- The file gets this report if the files are checked one after another, in any order. -/
  in_turn : ∀ order : List (List String), order.Perm setup.files →
    ∃ reports, setup.checkFiles tree rules order = .ok reports ∧
      ∀ k : Nat, order[k]? = some names → reports[k]? = some report
  /-- It gets this report if the packages for all files are looked up at the same time. -/
  at_once : setup.noManifest = false → ∀ (schedule : List Nat) (k : Nat) (packages : List String),
    ((ManifestCache.Crew.start setup.rootPath (setup.files.map setup.path)).run
        tree schedule).workers[k]? = some ⟨setup.path names, .answered packages⟩ →
      setup.reportWith tree rules names packages = .ok report
  /-- The result is made of the reports about all files. -/
  result_eq : ∀ reports, setup.checkFiles tree rules setup.files = .ok reports →
    result = summarize setup.root reports
  /-- The report stands in the result if there is something in it. -/
  mem_iff : ∀ own : FileReport, report = some own →
    (own ∈ result.reports ↔ own.diagnostics ≠ [])

theorem Setup.checkFiles_eq_mapM (setup : Setup) (tree : FileTree) (rules : List Rule)
    (files : List (List String)) :
    setup.checkFiles tree rules files = files.mapM (setup.fileReport tree rules) :=
  Project.checkFiles_eq (serves_cache setup tree) rules files

/-- A check that succeeds says of every file what is reported without a cache. -/
theorem exists_reports (hsetup : Project.setup tree config = .ok setup)
    (hcheck : check tree config rules = .ok result) (hnames : names ∈ setup.files) :
    ∃ report, setup.fileReport tree rules names = .ok report ∧
      Reports tree rules setup result names report := by
  rw [check_eq, hsetup, Checked.ok_bind] at hcheck
  obtain ⟨checked, hchecked, hresult⟩ := Checked.bind_eq_ok.1 hcheck
  rw [Checked.mapError_eq_ok] at hchecked
  obtain rfl := Except.ok.inj hresult
  have hall := hchecked
  rw [setup.checkFiles_eq_mapM] at hall
  obtain ⟨report, hmem, hreport⟩ := Checked.exists_mem_of_mapM hall hnames
  refine ⟨report, hreport, fun order horder => ?_, fun hflag schedule k packages hanswer => ?_,
    fun reports hreports => ?_, fun own hown => ?_⟩
  · have hevery : ∀ file ∈ order, ∃ own, setup.fileReport tree rules file = .ok own ∧
        own ∈ checked := by
      intro file hfile
      obtain ⟨own, hmem, hown⟩ := Checked.exists_mem_of_mapM hall (horder.mem_iff.1 hfile)
      exact ⟨own, hown, hmem⟩
    obtain ⟨reports, hreports, -⟩ := Checked.exists_mapM hevery
    refine ⟨reports, (setup.checkFiles_eq_mapM tree rules order).trans hreports, fun k hk => ?_⟩
    exact Checked.getElem?_of_mapM hreports hk hreport
  · obtain ⟨-, rfl⟩ := ManifestCache.Crew.answered_run tree schedule hanswer
    simpa [Setup.fileReport, Setup.found, Setup.directory, hflag] using hreport
  · rw [Except.ok.inj (hchecked.symm.trans hreports)]
  · subst hown
    rw [mem_summarize]
    exact and_iff_right hmem

/-- What is reported about a file depends on its bytes and on the manifests above it. -/
theorem fileReport_congr {tree' : FileTree} {setup' : Setup} (rules : List Rule)
    (hroot : setup.root = setup'.root) (hlocation : setup.location = setup'.location)
    (hsettings : setup.settings = setup'.settings) (hflag : setup.noManifest = setup'.noManifest)
    (hbytes : tree.file? (setup.location ++ names) = tree'.file? (setup.location ++ names))
    (hmanifests : ∀ d, Manifest.InReach setup.rootPath (setup.directory names) d →
      tree.bytesAt? (d.child Manifest.fileName) = tree'.bytesAt? (d.child Manifest.fileName)) :
    setup.fileReport tree rules names = setup'.fileReport tree' rules names := by
  have hdirectory : setup.directory names = setup'.directory names := by
    simp only [Setup.directory, Setup.rootPath, Setup.path, hroot, hlocation]
  have hsource :
      source? tree (setup.location ++ names) = source? tree' (setup'.location ++ names) := by
    rw [← hlocation]
    simp only [source?, FileTree.textAt?, hbytes]
  have hfound : setup.found tree names = setup'.found tree' names := by
    rw [Setup.found, Setup.found, Manifest.nearest_congr hmanifests, hdirectory, hflag,
      Setup.rootPath, hroot]
    rfl
  simp only [Setup.fileReport, Setup.reportWith, hsource, hsettings, hfound]

/-- What is reported about a file does not depend on the other source files.

Two checks succeed, with the same root, the same settings and the same use of manifests. A file that
both collect has the same bytes in both trees, and so have the manifests that a search for its
packages can come by. Then both checks say the same of the file. -/
theorem report_independent_of_other_files {tree₁ tree₂ : FileTree} {config₁ config₂ : Config}
    {rules : List Rule} {setup₁ setup₂ : Setup} {result₁ result₂ : CheckResult}
    {names : List String} (hsetup₁ : Project.setup tree₁ config₁ = .ok setup₁)
    (hsetup₂ : Project.setup tree₂ config₂ = .ok setup₂)
    (hcheck₁ : check tree₁ config₁ rules = .ok result₁)
    (hcheck₂ : check tree₂ config₂ rules = .ok result₂)
    (hroot : setup₁.root = setup₂.root) (hsettings : setup₁.settings = setup₂.settings)
    (hflag : setup₁.noManifest = setup₂.noManifest)
    (hnames₁ : names ∈ setup₁.files) (hnames₂ : names ∈ setup₂.files)
    (hbytes : tree₁.file? (setup₁.location ++ names) = tree₂.file? (setup₂.location ++ names))
    (hmanifests : ∀ d, Manifest.InReach setup₁.rootPath (setup₁.directory names) d →
      tree₁.bytesAt? (d.child Manifest.fileName) = tree₂.bytesAt? (d.child Manifest.fileName)) :
    ∃ report, Reports tree₁ rules setup₁ result₁ names report ∧
      Reports tree₂ rules setup₂ result₂ names report := by
  have hlocation := location_unique hsetup₁ hsetup₂ hroot
  rw [← hlocation] at hbytes
  obtain ⟨report₁, hreport₁, hreports₁⟩ := exists_reports hsetup₁ hcheck₁ hnames₁
  obtain ⟨report₂, hreport₂, hreports₂⟩ := exists_reports hsetup₂ hcheck₂ hnames₂
  have heq := fileReport_congr rules hroot hlocation hsettings hflag hbytes hmanifests
  rw [hreport₁, hreport₂] at heq
  obtain rfl := Except.ok.inj heq
  exact ⟨report₁, hreports₁, hreports₂⟩

end WithReaders

/-- The rule that reports every statement whose path is not a known package. -/
def unknownImport : Rule where
  name := "unknown-import"
  check source packages := .ok <|
    (source.statements.filter fun s => s.modulePath.any fun path => !packages.contains path).map
      fun s => Diagnostic.make source "unknown-import" "unknown" "Unknown package" s.span none

/-- A project of one file and a manifest. -/
def aloneTree : FileTree where
  entries := [(["p", "package.json"], .file "\x7b\"dependencies\":\x7b\"x\":1\x7d\x7d".toUTF8),
    (["p", "b.ts"], .file "import'x'\nimport'y'\n".toUTF8)]
  cwd := []

/-- The same project with a file in a directory that has a manifest of its own. -/
def besideTree : FileTree where
  entries := [(["p", "a", "package.json"],
      .file "\x7b\"dependencies\":\x7b\"y\":1\x7d\x7d".toUTF8),
    (["p", "a", "c.ts"], .file "import'x'\nimport'y'\n".toUTF8)] ++ aloneTree.entries
  cwd := ["p", "a"]

/-- A configuration in which only the root is given. -/
def rootedAt (root : String) : Config := ⟨some root, none, none, false, Settings.empty⟩

/-- The report that `y` is not known at the given line. -/
def unknownAt (path : String) (span : Span) (line : UInt32) : FileReport :=
  ⟨path, [⟨"unknown-import", "unknown", "Unknown package", span, ⟨line, 1⟩, ⟨line, 10⟩, none⟩]⟩

def aloneSetup : Setup := ⟨"/p", ["p"], [["b.ts"]], false, Settings.empty⟩

def besideSetup : Setup := { aloneSetup with files := [["a", "c.ts"], ["b.ts"]] }

theorem setup_beside : Project.setup besideTree (rootedAt "..") = .ok besideSetup := by
  have hresolve : (rootedAt "..").resolve besideTree = (rootedAt "/p", .ok ()) := by
    decide +kernel
  have hplace : besideTree.resolveText? "/p" = some ["p"] := by
    decide +kernel
  have hfiles : (besideTree.entries.filterMap fun item =>
      if item.2.isDirectory then none else Collection.below? ["p"] item.1).filter
        (Collection.isCollected besideTree ["p"] none) = besideSetup.files := by
    decide +kernel
  have hcollect : Collection.collect? besideTree ["p"] none = some besideSetup.files := by
    rw [Collection.collect?, if_pos (by decide +kernel)]
    exact congrArg some ((congrArg (List.mergeSort · Collection.pathOrder) hfiles).trans
      (List.mergeSort_of_pairwise (by decide)))
  rw [Project.setup, hresolve]
  simp only [Except.mapError, Config.resolvedRoot, rootedAt, Checked.ok_bind, hplace, hcollect]
  rfl

/-- A manifest that counts for the file checked first does not count for the file beside it. -/
theorem report_beside_other_file :
    ∃ report,
      Reports aloneTree [unknownImport] aloneSetup
        (summarize "/p" [some (unknownAt "b.ts" ⟨10, 19⟩ 2)]) ["b.ts"] report ∧
      Reports besideTree [unknownImport] besideSetup
        (summarize "/p" [some (unknownAt "a/c.ts" ⟨0, 9⟩ 1), some (unknownAt "b.ts" ⟨10, 19⟩ 2)])
        ["b.ts"] report := by
  have halone : Project.setup aloneTree (rootedAt "/p") = .ok aloneSetup := by
    decide +kernel
  have hfile : aloneSetup.checkFiles aloneTree [unknownImport] aloneSetup.files =
      .ok [some (unknownAt "b.ts" ⟨10, 19⟩ 2)] := by
    decide +kernel
  have hfiles : besideSetup.checkFiles besideTree [unknownImport] besideSetup.files =
      .ok [some (unknownAt "a/c.ts" ⟨0, 9⟩ 1), some (unknownAt "b.ts" ⟨10, 19⟩ 2)] := by
    decide +kernel
  have hmanifests : ∀ d ∈ Manifest.upTo aloneSetup.rootPath
      (aloneSetup.directory ["b.ts"]).ancestors,
      aloneTree.bytesAt? (d.child Manifest.fileName) =
        besideTree.bytesAt? (d.child Manifest.fileName) := by
    decide +kernel
  refine report_independent_of_other_files halone setup_beside ?_ ?_ rfl rfl rfl (by decide)
    (by decide) (by decide +kernel) fun d hd => hmanifests d (Manifest.mem_upTo_ancestors.2 hd)
  · rw [check_eq, halone, Checked.ok_bind, hfile]
    rfl
  · rw [check_eq, setup_beside, Checked.ok_bind, hfiles]
    rfl

end Project

end ImportOrder
