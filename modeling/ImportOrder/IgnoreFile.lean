import ImportOrder.FileTree
import ImportOrder.IgnorePattern

/-!
# Ignore files

`.ignore` files always count. `.gitignore` and `.git/info/exclude` count inside a repository, and
only up to the directory where it starts. Of several files of one kind the one closest to the entry
that says something decides, and `.ignore` goes before `.gitignore`, which goes before the exclude
file.

## Main definitions

- `IgnoreFile.isIgnored`: is an entry left out by ignore files?
-/

namespace ImportOrder.IgnoreFile

open FileTree (Location)

/-- The text of the lines of a file up to the first line that is not UTF-8. -/
def readableText (bytes : ByteArray) : Text :=
  let lines := bytes.toList.splitBy fun byte _ => byte ≠ 10
  let texts := lines.map fun line => String.fromUTF8? ⟨line.toArray⟩
  ((texts.takeWhile Option.isSome).filterMap id).flatMap String.toList

/-- The patterns of the ignore file at a place. -/
def patternsAt (tree : FileTree) (location : Location) : List IgnorePattern :=
  match tree.file? location with
  | some bytes => IgnorePattern.ofText (readableText bytes)
  | none => []

/-- A directory above an entry, with the names that lead from it to the entry. -/
structure Level where
  /-- The directory. -/
  directory : Location
  /-- The names from the directory to the entry. -/
  names : List String
deriving DecidableEq, Repr, Inhabited

/-- The directories above an entry, the highest first, given the names to the highest and on. -/
def levelsFrom (directory : Location) : List String → List Level
  | [] => []
  | name :: names => ⟨directory, name :: names⟩ :: levelsFrom (directory ++ [name]) names

/-- The directories above an entry, the closest first. -/
def levels (entry : Location) : List Level :=
  (levelsFrom [] entry).reverse

/-- Does a repository start in the directory? -/
def startsRepository (tree : FileTree) (directory : Location) : Bool :=
  tree.hasEntry (directory ++ [".git"])

/-- The levels of the repository that an entry is in, from the closest to the one where the
repository starts. -/
def repositoryLevels (tree : FileTree) : List Level → List Level
  | [] => []
  | level :: levels =>
    if startsRepository tree level.directory then [level]
    else level :: repositoryLevels tree levels

/-- What the ignore files with a given name say about an entry: the closest that says something
decides. -/
def verdictAt (tree : FileTree) (file : List String) (isDirectory : Bool) (levels : List Level) :
    Option IgnorePattern.Verdict :=
  levels.findSome? fun level =>
    IgnorePattern.verdict (patternsAt tree (level.directory ++ file)) level.names isDirectory

/-- Is an entry left out by ignore files? -/
def isIgnored (tree : FileTree) (entry : Location) (isDirectory : Bool) : Bool :=
  let all := levels entry
  let inRepository :=
    if all.any (startsRepository tree ·.directory) then repositoryLevels tree all else []
  let verdict := verdictAt tree [".ignore"] isDirectory all <|>
    verdictAt tree [".gitignore"] isDirectory inRepository <|>
    verdictAt tree [".git", "info", "exclude"] isDirectory inRepository
  verdict == some .leftOut

end ImportOrder.IgnoreFile
