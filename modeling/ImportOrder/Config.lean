import ImportOrder.Settings

/-!
# Configuration

What a check is asked to do. Before a check runs, its configuration is resolved: the root of the
project is found and the settings are loaded.

## Main definitions

- `Config`, `ConfigError`, `ConfigError.message`
- `FileTree.gitRoot?`: the repository around the working directory
- `Config.resolve`: the configuration afterwards, and whether it could be resolved

## Design notes

Resolving takes the given root out of the configuration first and puts the resolved one in last, so
a configuration whose settings cannot be loaded has no root afterwards.
-/

namespace ImportOrder

/-- What a check is asked to do. -/
structure Config where
  /-- The root of the project, if given or found. -/
  root : Option String
  /-- What the path of a file must contain for the file to be checked. -/
  entryPattern : Option String
  /-- The settings file, if given. -/
  settingsPath : Option String
  /-- Are manifests left aside? -/
  noManifest : Bool
  /-- The settings loaded. -/
  settings : Settings
deriving DecidableEq, Repr, Inhabited

/-- Why a configuration cannot be used. -/
inductive ConfigError where
  /-- No root is given and the working directory is in no repository. -/
  | noRepository
  /-- The settings file cannot be read. -/
  | unreadableSettings (path : String)
  /-- The settings file does not hold settings. -/
  | invalidSettings (path : String) (cause : SettingsError)
  /-- The configuration has not been resolved. -/
  | unresolved
deriving DecidableEq, Repr, Inhabited

/-- An error in words. -/
def ConfigError.message : ConfigError → String
  | noRepository => "Could not find .git directory in any parent folder"
  | unreadableSettings path => "Failed to read settings from " ++ path
  | invalidSettings path cause => "Invalid settings in " ++ path ++ ": " ++ cause.message
  | unresolved => "Config used before initialize()"

namespace FileTree

/-- The first directory that holds a repository, from a place up, given by its names in reverse. -/
def gitRootAbove (tree : FileTree) : List String → Option Location
  | [] => if tree.hasEntry [".git"] then some [] else none
  | name :: names =>
    let directory := (name :: names).reverse
    if tree.hasEntry (directory ++ [".git"]) then some directory else gitRootAbove tree names

/-- The directory of the repository around the working directory. -/
def gitRoot? (tree : FileTree) : Option Location :=
  gitRootAbove tree tree.cwd.reverse

end FileTree

namespace Config

/-- The name of the settings file that is looked for at the root. -/
def settingsFile : String := ".oxiorder.json"

/-- A configuration that asks for nothing. -/
def empty : Config := ⟨none, none, none, false, Settings.empty⟩

/-- The root of a resolved configuration. -/
def resolvedRoot (config : Config) : Except ConfigError String :=
  match config.root with
  | some root => .ok root
  | none => .error .unresolved

/-- The text of the place that a path leads to, or the path as given if it leads nowhere. -/
def canonicalText (tree : FileTree) (path : String) : String :=
  match tree.resolveText? path with
  | some location => location.path.toText
  | none => path

/-- The root to use: the one given, or the repository around the working directory. -/
def findRoot (tree : FileTree) (config : Config) : Except ConfigError String :=
  match config.root with
  | some root => .ok (canonicalText tree root)
  | none => match tree.gitRoot? with
    | some location => .ok location.path.toText
    | none => .error .noRepository

/-- The settings file to load: the one given, or the one at the root if there is one. -/
def settingsToLoad? (tree : FileTree) (config : Config) (root : String) : Option String :=
  match config.settingsPath with
  | some path => some path
  | none =>
    let path := Path.joinText root settingsFile
    if (tree.resolveText? path).any tree.isFile then some path else none

/-- The settings in a file. -/
def loadSettings [Readers] (tree : FileTree) (path : String) : Except ConfigError Settings :=
  match (tree.resolveText? path).bind tree.textAt? with
  | none => .error (.unreadableSettings path)
  | some text => (Settings.parse text).mapError (.invalidSettings path)

/-- Finds the root and loads the settings: the configuration afterwards, and the error if there is
one. -/
def resolve [Readers] (tree : FileTree) (config : Config) : Config × Except ConfigError Unit :=
  match findRoot tree config with
  | .error e => (config, .error e)
  | .ok root =>
    match settingsToLoad? tree config root with
    | none => ({ config with root := some root }, .ok ())
    | some path => match loadSettings tree path with
      | .error e => ({ config with root := none }, .error e)
      | .ok settings => ({ config with root := some root, settings := settings }, .ok ())

end Config

end ImportOrder
