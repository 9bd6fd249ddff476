import ImportOrder.Readers

/-!
# Collecting source files

The source files below the root of a project, without those that ignore files leave out. An entry is
looked at only if none of the directories above it, up to the root, is left out.

## Main definitions

- `Collection.isReached`: is every entry on the way to a file looked at?
- `Collection.collect?`: the source files below a root
-/

namespace ImportOrder.Collection

open FileTree (Location)

variable [Readers]

/-- The extensions of source files. -/
def sourceExtensions : List String :=
  ["ts", "tsx", "mts", "cts", "js", "jsx", "mjs", "cjs"]

/-- Names of entries that are never looked at. -/
def skippedNames : List String :=
  ["node_modules", ".git"]

/-- Is the file name that of a source file? -/
def isSourceName (name : String) : Bool :=
  (Path.extensionOfName? name).any sourceExtensions.contains

/-- Is an entry with the given name looked at? -/
def isVisible (tree : FileTree) (directory : Location) (name : String) (isDirectory : Bool) :
    Bool :=
  !skippedNames.contains name && !Readers.isIgnored tree (directory ++ [name]) isDirectory

/-- Is the file to which names lead from a directory reached, every entry on the way being looked
at? -/
def isReached (tree : FileTree) (directory : Location) : List String → Bool
  | [] => true
  | [name] => isVisible tree directory name false
  | name :: names =>
    isVisible tree directory name true && isReached tree (directory ++ [name]) names

/-- The names that lead from a root to the place of a file below it or at it. -/
def below? (root location : Location) : Option (List String) :=
  if root.isPrefixOf location then some (location.drop root.length) else none

/-- The text of the path that names make. -/
def pathText (names : List String) : String :=
  "/".intercalate names

/-- Is the file to which names lead from the root a source file that is to be collected? -/
def isCollected (tree : FileTree) (root : Location) (pattern : Option String)
    (names : List String) : Bool :=
  isReached tree root names && (root ++ names).getLast?.any isSourceName &&
    pattern.all fun p => (Text.find? (pathText names).toList p.toList).isSome

/-- The order of paths: name by name. -/
def pathOrder : List String → List String → Bool
  | [], _ => true
  | _ :: _, [] => false
  | a :: as, b :: bs => if a = b then pathOrder as bs else a < b

/-- The source files below a root, as the names that lead to each, in order; none if there is
nothing at the root. With a pattern, only files whose path from the root contains it are collected.
-/
def collect? (tree : FileTree) (root : Location) (pattern : Option String) :
    Option (List (List String)) :=
  if tree.hasEntry root then
    let files := tree.entries.filterMap fun (location, entry) =>
      if entry.isDirectory then none else below? root location
    some ((files.filter (isCollected tree root pattern)).mergeSort pathOrder)
  else none

end ImportOrder.Collection
