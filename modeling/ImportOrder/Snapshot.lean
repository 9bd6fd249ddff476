import ImportOrder.FileTree
import ImportOrder.Json.Reader

/-!
# Snapshots of file trees

A snapshot is a JSON object that describes a file tree: its member `cwd` is the path of the working
directory, and the keys of its member `files` are the paths of the files, with their texts as
values. A key that ends in a slash is a directory.

## Main definitions

- `FileTree.ofJson?`: the tree that a snapshot describes
- `FileTree.ofSnapshot?`: the tree that the text of a snapshot describes
-/

namespace ImportOrder

namespace FileTree

/-- The place that a path from the root of the tree leads to. -/
def Location.ofText (path : String) : Location :=
  (Path.ofText path).parts.filterMap fun
    | .name name => some name
    | _ => none

/-- The text that a JSON value holds. -/
def textOf? : Json → Option String
  | .string text => some text
  | _ => none

/-- The file or directory that a member of `files` describes. -/
def entryOf? (path : String) (content : Json) : Option (Location × Entry) :=
  if path.toList.getLast? = some '/' then some (Location.ofText path, .directory)
  else (textOf? content).map fun text => (Location.ofText path, .file text.toUTF8)

/-- The tree that a snapshot describes. The working directory is part of it. -/
def ofJson? (snapshot : Json) : Option FileTree := do
  let cwd := Location.ofText (← textOf? (← snapshot.get? "cwd"))
  match ← snapshot.get? "files" with
  | .object members =>
    let entries ← members.mapM fun (path, content) => entryOf? path content
    return ⟨entries ++ [(cwd, .directory)], cwd⟩
  | _ => none

/-- The tree that the text of a snapshot describes. -/
def ofSnapshot? (text : String) : Option FileTree :=
  (Json.parse? text.toList).bind ofJson?

end FileTree

end ImportOrder
