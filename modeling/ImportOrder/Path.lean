import ImportOrder.Text.Split

/-!
# Paths

A path is read as its parts. Repeated and trailing slashes do not count, nor does `.`, unless a
relative path starts with it.

## Main definitions

- `PathPart`, `Path`, `Path.ofText`, `Path.toText`
- `Path.join`, `Path.parent?`, `Path.ancestors`
- `Path.extension?`
- `Path.relativeTo?`: the way from a directory to a path
-/

namespace ImportOrder

/-- A part of a path. -/
inductive PathPart where
  /-- The root of the file system. -/
  | root
  /-- The directory itself. -/
  | current
  /-- The directory above. -/
  | up
  /-- An entry of a directory. -/
  | name (text : String)
deriving DecidableEq, Repr, Inhabited

/-- A path as the list of its parts. -/
structure Path where
  /-- The parts, from left to right. -/
  parts : List PathPart
deriving DecidableEq, Repr, Inhabited

namespace PathPart

/-- The part that a piece between slashes stands for; empty pieces and `.` stand for none. -/
def ofPiece? (piece : List Char) : Option PathPart :=
  if piece = [] ∨ piece = ['.'] then none
  else if piece = ['.', '.'] then some up
  else some (name (String.ofList piece))

/-- The text of a part. -/
def toText : PathPart → String
  | root => ""
  | current => "."
  | up => ".."
  | name text => text

end PathPart

namespace Path

/-- The parts of the text of a path. -/
def ofText (text : String) : Path :=
  let pieces := Text.splitAt '/' text.toList
  let parts := pieces.filterMap PathPart.ofPiece?
  match text.toList, pieces with
  | '/' :: _, _ => ⟨.root :: parts⟩
  | _, ['.'] :: _ => ⟨.current :: parts⟩
  | _, _ => ⟨parts⟩

/-- The text of a path. -/
def toText (path : Path) : String :=
  match path.parts with
  | [.root] => "/"
  | parts => "/".intercalate (parts.map PathPart.toText)

/-- Is the path given from the root of the file system? -/
def isAbsolute (path : Path) : Bool :=
  path.parts.head? == some .root

/-- A path followed from another one. -/
def join (base path : Path) : Path :=
  if path.isAbsolute || base.parts.isEmpty then path
  else ⟨base.parts ++ path.parts.filter (· ≠ .current)⟩

/-- The text of a path followed from another one. -/
def joinText (base path : String) : String :=
  if path.toList.head? = some '/' ∨ base.isEmpty then path
  else if base.toList.getLast? = some '/' then base ++ path
  else base ++ "/" ++ path

/-- An entry of the directory with the given path. -/
def child (path : Path) (name : String) : Path :=
  ⟨path.parts ++ [.name name]⟩

/-- The path without its last part; the root and the empty path have none. -/
def parent? (path : Path) : Option Path :=
  match path.parts with
  | [] | [.root] => none
  | parts => some ⟨parts.dropLast⟩

/-- The path, its parent, and so on up, for the parts in reverse. -/
def ancestorsOfReverse : List PathPart → List Path
  | [] => [⟨[]⟩]
  | [.root] => [⟨[.root]⟩]
  | part :: parts => ⟨(part :: parts).reverse⟩ :: ancestorsOfReverse parts

/-- The path, its parent, and so on up. -/
def ancestors (path : Path) : List Path :=
  ancestorsOfReverse path.parts.reverse

/-- The extension of a file name: what follows its last dot, unless that is its first character. -/
def extensionOfName? (name : String) : Option String :=
  let reversed := name.toList.reverse
  match reversed.dropWhile (· != '.') with
  | _ :: _ :: _ => some (String.ofList (reversed.takeWhile (· != '.')).reverse)
  | _ => none

/-- The extension of the file that a path leads to. -/
def extension? (path : Path) : Option String :=
  match path.parts.getLast? with
  | some (.name name) => extensionOfName? name
  | _ => none

/-- The number of parts that two lists have in common at the front. -/
def commonLength : List PathPart → List PathPart → Nat
  | p :: ps, q :: qs => if p = q then commonLength ps qs + 1 else 0
  | _, _ => 0

/-- The way from the directory `base` to `target`: up out of the part of `base` that they do not
share, then down. It is missing if the two do not start from the same place. -/
def relativeTo? (target base : Path) : Option Path :=
  if target.parts.head? = base.parts.head? then
    let common := commonLength target.parts base.parts
    let ups := (base.parts.drop common).map fun _ => PathPart.up
    let downs := (target.parts.drop common).filter fun p => p ≠ .current ∧ p ≠ .root
    some ⟨if (ups ++ downs).isEmpty then [.current] else ups ++ downs⟩
  else none

end Path

end ImportOrder
