import ImportOrder.Readers

/-!
# Package manifests

The dependencies of a project stand in the manifest that is nearest to a file: in its directory, or
else in the next directory above that has one, but not above the root of the project. What was found
for a directory is remembered.

## Main definitions

- `ManifestError`, `Manifest.read`: the dependencies that a manifest file declares
- `Manifest.nearest`: the dependencies of the nearest manifest
- `ManifestCache`, `ManifestCache.packagesFor`

## Design notes

A manifest that cannot be read declares nothing, and the search does not go on above it.
-/

namespace ImportOrder

/-- Why a manifest declares nothing. -/
inductive ManifestError where
  /-- The file cannot be read. -/
  | unreadable (path : String)
  /-- The file is no manifest. -/
  | invalid (path : String)
deriving DecidableEq, Repr, Inhabited

/-- An error in words. -/
def ManifestError.message : ManifestError → String
  | unreadable path => "Failed to read " ++ path
  | invalid path => "Failed to parse " ++ path

namespace Manifest

/-- The name of manifest files. -/
def fileName : String := "package.json"

variable [Readers]

/-- The packages that the text of a manifest declares, those for development last. -/
def packages? (text : Text) : Option (List String) :=
  (Readers.dependencies? text).map fun (dependencies, devDependencies) =>
    dependencies ++ devDependencies

/-- The dependencies that the manifest file at a path declares. -/
def read (tree : FileTree) (path : Path) : Except ManifestError (List String) :=
  match tree.readText? path with
  | none => .error (.unreadable path.toText)
  | some text => match packages? text with
    | some packages => .ok packages
    | none => .error (.invalid path.toText)

/-- The directories from one up to the root of the project, or to the top if the root is not above.
-/
def upTo (root : Path) : List Path → List Path
  | [] => []
  | path :: paths => if path = root then [path] else path :: upTo root paths

/-- The dependencies of the nearest manifest at or above a directory. -/
def nearest (tree : FileTree) (root directory : Path) : List String :=
  match (upTo root directory.ancestors).find? fun d => tree.leadsToFile (d.child fileName) with
  | some d => (read tree (d.child fileName)).toOption.getD []
  | none => []

end Manifest

/-- What was found for the directories searched so far. -/
structure ManifestCache where
  /-- The root of the project. -/
  root : Path
  /-- The directories with their packages. -/
  found : List (Path × List String)
deriving DecidableEq, Repr, Inhabited

namespace ManifestCache

/-- The cache of a project in which nothing was searched. -/
def empty (root : Path) : ManifestCache := ⟨root, []⟩

/-- The number of directories searched. -/
def size (cache : ManifestCache) : Nat := cache.found.length

/-- The packages for a file, and the cache after they were asked for. -/
def packagesFor [Readers] (cache : ManifestCache) (tree : FileTree) (file : Path) :
    List String × ManifestCache :=
  let directory := file.parent?.getD cache.root
  match cache.found.lookup directory with
  | some packages => (packages, cache)
  | none =>
    let packages := Manifest.nearest tree cache.root directory
    (packages, { cache with found := (directory, packages) :: cache.found })

end ManifestCache

end ImportOrder
