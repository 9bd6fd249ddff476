import ImportOrder.Collation
import ImportOrder.Rule.Basic
import ImportOrder.Text.Split

/-!
# The order of module paths

Within a run of statements of one category, module paths sort by tier, then by how far they climb
out of their directory, and then by the natural order.

| Tier | Path                                    |
|------|-----------------------------------------|
| 0    | a known package with a scope            |
| 1    | another known package                   |
| 2    | an unknown name with a scope            |
| 3    | another unknown name                    |
| 4    | an absolute path                        |
| 5    | a relative path                         |

## Main definitions

- `ModulePath.tier`, `ModulePath.nesting`
- `ModulePath.compare`: the order
-/

namespace ImportOrder.ModulePath

/-- The tier of a path. -/
def tier (packages : Packages) (path : String) : Nat :=
  if packages.contains path then if path.toList.head? = some '@' then 0 else 1
  else match path.toList.head? with
    | some '/' => 4
    | some '.' => 5
    | some '@' => 2
    | _ => 3

/-- One segment onto a cleaned path, whose segments come last first: an empty segment and `.` change
nothing, and `..` cancels the segment before it unless that is `..` itself or missing. -/
def push (cleaned : List (List Char)) (segment : List Char) : List (List Char) :=
  if segment = [] ∨ segment = ['.'] then cleaned
  else if segment = ['.', '.'] then
    match cleaned with
    | [] => [['.', '.']]
    | last :: rest => if last = ['.', '.'] then segment :: cleaned else rest
  else segment :: cleaned

/-- The segments of a relative path with `.` dropped and every `x/..` cancelled. -/
def clean (path : List Char) : List (List Char) :=
  ((Text.splitAt '/' path).foldl push []).reverse

/-- The number of leading `../` of the cleaned path; a last `..` counts only if the path ends in a
slash. -/
def climb (path : List Char) : Nat :=
  let cleaned := clean path
  let ups := (cleaned.takeWhile (· = ['.', '.'])).length
  if ups = cleaned.length ∧ path.getLast? ≠ some '/' then ups - 1 else ups

/-- How far a relative path climbs, as a number that is smaller the further it climbs: for a path
that starts with a dot, minus its leading `../` minus one, and zero for any other path. -/
def nesting (path : String) : Int :=
  if path.toList.head? = some '.' then -(climb path.toList : Int) - 1 else 0

/-- The order of module paths. -/
def compare (packages : Packages) (a b : String) : Ordering :=
  (Ord.compare (tier packages a) (tier packages b)).then
    ((Ord.compare (nesting a) (nesting b)).then (Collation.natural a b))

end ImportOrder.ModulePath
