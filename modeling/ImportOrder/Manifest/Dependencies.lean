import ImportOrder.Json.Reader

/-!
# Dependencies in manifests

Only the two members with dependencies are built; all other members of a manifest are skipped.

## Main definitions

- `Manifest.dependencies?`: the dependencies that the text of a manifest declares
-/

namespace ImportOrder.Manifest

/-- A member of a manifest. -/
inductive Member where
  /-- The dependencies. -/
  | dependencies (names : List String)
  /-- The dependencies for development. -/
  | devDependencies (names : List String)
  /-- Any other member. -/
  | other
deriving DecidableEq, Repr, Inhabited

/-- The names in order, without repetitions. -/
def sortNames (names : List String) : List String :=
  (names.mergeSort fun a b => !(b < a)).eraseDups

/-- The names of an object that maps dependencies to anything, or of null. Values nest at most
`depth` deep inside the object. -/
def dependencyNames (depth : Nat) : Json.Reader (List String) := fun text =>
  match Json.skipBlanks text with
  | '{' :: rest =>
    (Json.delimited (Json.member (Json.value depth)) '}' rest).map fun (members, rest) =>
      (sortNames (members.map (·.1)), rest)
  | rest => Json.literal "null" [] rest

/-- The depth that is left for the values of dependencies: the manifest and the object that holds
them are two levels. -/
def valueDepth : Nat := Json.depthLimit - 2

/-- One member of a manifest. -/
def member : Json.Reader Member := fun text => do
  let (key, rest) ← Json.quoted text
  Json.behindColon (fun rest =>
    if key = "dependencies" then
      (dependencyNames valueDepth rest).map fun (names, rest) => (.dependencies names, rest)
    else if key = "devDependencies" then
      (dependencyNames valueDepth rest).map fun (names, rest) => (.devDependencies names, rest)
    else (Json.skipped rest).map fun (_, rest) => (.other, rest)) rest

/-- The names of the one member that holds them; none if there are several. -/
def single? : List (List String) → Option (List String)
  | [] => some []
  | [names] => some names
  | _ => none

/-- The dependencies that members declare, and those for development. Neither member may be
repeated. -/
def ofMembers? (members : List Member) : Option (List String × List String) := do
  let dependencies ← single? (members.filterMap fun
    | .dependencies names => some names
    | _ => none)
  let devDependencies ← single? (members.filterMap fun
    | .devDependencies names => some names
    | _ => none)
  return (dependencies, devDependencies)

/-- The dependencies that a manifest declares: an object, or an array of the two maps. -/
def dependenciesReader : Json.Reader (List String × List String) := fun text =>
  match Json.skipBlanks text with
  | '{' :: rest => do
    let (members, rest) ← Json.delimited member '}' rest
    let names ← ofMembers? members
    return (names, rest)
  | '[' :: rest => do
    let (maps, rest) ← Json.delimited (dependencyNames valueDepth) ']' rest
    match maps with
    | [dependencies, devDependencies] => some ((dependencies, devDependencies), rest)
    | _ => none
  | _ => none

/-- The dependencies that the text of a manifest declares, and those for development. -/
def dependencies? (text : Text) : Option (List String × List String) :=
  Json.whole? dependenciesReader text

end ImportOrder.Manifest
