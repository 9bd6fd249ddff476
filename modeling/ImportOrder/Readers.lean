import ImportOrder.FileTree
import ImportOrder.Grammar.Dialect
import ImportOrder.Json.Value
import ImportOrder.Source

/-!
# Readers

A check is made with the help of readers for what others define: source texts, JSON, manifests and
ignore files. It may be made with any readers.

## Main definitions

- `Readers`
-/

namespace ImportOrder

/-- How the files of a project are read. -/
class Readers where
  /-- The source that a text holds, if it is well formed. -/
  source? (dialect : Dialect) (text : Text) : Option Source
  /-- The JSON value that a text holds, if it is well formed. -/
  json? (text : Text) : Option Json
  /-- The names of the dependencies that the text of a manifest declares, and of those for
  development, if it is well formed. -/
  dependencies? (text : Text) : Option (List String × List String)
  /-- Is an entry left out by ignore files? -/
  isIgnored (tree : FileTree) (entry : FileTree.Location) (isDirectory : Bool) : Bool

end ImportOrder
