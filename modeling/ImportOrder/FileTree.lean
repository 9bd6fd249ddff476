import ImportOrder.Path
import ImportOrder.Text.Basic

/-!
# File trees

The files that the program works on, as seen from a working directory. A place in the tree is the
list of names that leads to it from the root.

## Main definitions

- `FileTree`, `FileTree.Entry`, `FileTree.Location`
- `FileTree.resolve?`: the place that a path leads to
- `FileTree.readText?`: the text of a file
- `FileTree.write`: the tree after a file was written
-/

namespace ImportOrder

/-- A directory or a file with its bytes. -/
inductive FileTree.Entry where
  /-- A directory. -/
  | directory
  /-- A file. -/
  | file (bytes : ByteArray)

/-- Is it a directory? -/
def FileTree.Entry.isDirectory : FileTree.Entry → Bool
  | directory => true
  | file _ => false

/-- A place in a tree: the names that lead to it from the root. -/
abbrev FileTree.Location := List String

/-- Files and directories with their places, and the working directory. A directory with something
in it need not be listed. -/
structure FileTree where
  /-- The listed files and directories. -/
  entries : List (FileTree.Location × FileTree.Entry)
  /-- The working directory. -/
  cwd : FileTree.Location

namespace FileTree

/-- The path of a place. -/
def Location.path (location : Location) : Path :=
  ⟨.root :: location.map PathPart.name⟩

/-- The bytes of the file at a place. -/
def file? (tree : FileTree) (location : Location) : Option ByteArray :=
  match tree.entries.lookup location with
  | some (.file bytes) => some bytes
  | _ => none

/-- Is there a file at the place? -/
def isFile (tree : FileTree) (location : Location) : Bool :=
  (tree.file? location).isSome

/-- Is there a directory at the place? The root always is one. -/
def isDirectory (tree : FileTree) (location : Location) : Bool :=
  location.isEmpty || !tree.isFile location && tree.entries.any fun (place, entry) =>
    location.isPrefixOf place && (place ≠ location || entry.isDirectory)

/-- Is there anything at the place? -/
def hasEntry (tree : FileTree) (location : Location) : Bool :=
  tree.isFile location || tree.isDirectory location

/-- The place after one more part of a path, which must lead out of a directory. -/
def follow (tree : FileTree) (location : Location) (part : PathPart) : Option Location :=
  if tree.isDirectory location then
    match part with
    | .root => some []
    | .current => some location
    | .up => some location.dropLast
    | .name name =>
      let next := location ++ [name]
      if tree.hasEntry next then some next else none
  else none

/-- The place that a path leads to, if there is something there. -/
def resolve? (tree : FileTree) (path : Path) : Option Location :=
  if path.parts.isEmpty then none
  else path.parts.foldlM tree.follow tree.cwd

/-- The place that the text of a path leads to. A text that ends in a slash leads to a directory. -/
def resolveText? (tree : FileTree) (text : String) : Option Location := do
  let location ← tree.resolve? (Path.ofText text)
  if text.toList.getLast? = some '/' ∧ tree.isFile location then none else some location

/-- The text of the file at a place, if there is a file and its bytes are UTF-8. -/
def textAt? (tree : FileTree) (location : Location) : Option Text := do
  let bytes ← tree.file? location
  let text ← String.fromUTF8? bytes
  return text.toList

/-- Does a path lead to a file? -/
def leadsToFile (tree : FileTree) (path : Path) : Bool :=
  (tree.resolve? path).any tree.isFile

/-- The text of the file that a path leads to. -/
def readText? (tree : FileTree) (path : Path) : Option Text :=
  (tree.resolve? path).bind tree.textAt?

/-- The tree after a file was written. -/
def write (tree : FileTree) (location : Location) (bytes : ByteArray) : FileTree :=
  { tree with entries := (location, .file bytes) :: tree.entries.filter (·.1 ≠ location) }

end FileTree

end ImportOrder
