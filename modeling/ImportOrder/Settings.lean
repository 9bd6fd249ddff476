import ImportOrder.Readers
import ImportOrder.Rule.Basic

/-!
# Settings

A settings file is a JSON object that may name builtin modules and packages. Both lists count as
known packages.

## Main definitions

- `Settings`, `Settings.knownPackages`
- `SettingsError`, `SettingsError.message`
- `Settings.ofJson`, `Settings.parse`
-/

namespace ImportOrder

/-- The modules that sort ahead of others. -/
structure Settings where
  /-- Builtin modules. -/
  builtins : List String
  /-- Packages. -/
  packages : List String
deriving DecidableEq, Repr, Inhabited

/-- What can be wrong with settings. -/
inductive SettingsError where
  /-- The text is no JSON. -/
  | notJson
  /-- The value under a key is no array. -/
  | notArray (key : String)
  /-- The array under a key has an element that is no string. -/
  | notString (key typeName : String)
deriving DecidableEq, Repr, Inhabited

/-- An error in words. -/
def SettingsError.message : SettingsError → String
  | notJson => "Settings are not valid JSON"
  | notArray key => "Expected the \"" ++ key ++ "\" setting to be an array of paths"
  | notString key typeName =>
    "Expected elements of the \"" ++ key ++
      "\" setting to be strings, instead found an element of type \"" ++ typeName ++ "\""

namespace Settings

/-- Settings that name nothing. -/
def empty : Settings := ⟨[], []⟩

/-- The key of the builtin modules. -/
def builtinsKey : String := "imports/builtins"

/-- The key of the packages. -/
def packagesKey : String := "imports/packages"

/-- One element of the list under a key. -/
def element (key : String) : Json → Except SettingsError String
  | .string name => .ok name
  | json => .error (.notString key json.typeName)

/-- The list of names under a key; without the key, or with null under it, the list is empty. -/
def names (json : Json) (key : String) : Except SettingsError (List String) :=
  match json.get? key with
  | none | some .null => .ok []
  | some (.array elements) => elements.mapM (element key)
  | some _ => .error (.notArray key)

/-- The settings that a JSON value holds. -/
def ofJson (json : Json) : Except SettingsError Settings := do
  let builtins ← names json builtinsKey
  let packages ← names json packagesKey
  return ⟨builtins, packages⟩

/-- The settings that a text holds. -/
def parse [Readers] (text : Text) : Except SettingsError Settings :=
  match Readers.json? text with
  | some json => ofJson json
  | none => .error .notJson

/-- All modules that the settings name. -/
def knownPackages (settings : Settings) : Packages :=
  settings.builtins ++ settings.packages

end Settings

end ImportOrder
