import ImportOrder.Proofs.Project.FileReport

/-!
# Configurations that cannot be resolved

A configuration is resolved in two parts: the root is found, then the settings are loaded. Either
part can fail. What a failure leaves behind is the configuration without its root, because the root
that was given is taken out first and put back last. All else is kept. Resolving the configuration
once more then searches for a root, and comes to the same error only if the search leads to the
settings file that could not be loaded.

## Main definitions

- `ConfigError.settingsFile?`: the settings file that an error is about

## Main statements

- `Config.resolve_snd_eq_error_iff`: how resolving fails
- `Config.resolve_fst_of_error`: what a failure leaves behind
- `Config.failed_resolve_forgets_root`
-/

namespace ImportOrder

/-- The settings file that an error is about. -/
def ConfigError.settingsFile? : ConfigError → Option String
  | unreadableSettings path => some path
  | invalidSettings path _ => some path
  | noRepository => none
  | unresolved => none

namespace Config

variable {tree : FileTree} {config : Config} {e : ConfigError}

theorem findRoot_eq_error_iff : findRoot tree config = .error e ↔
    config.root = none ∧ tree.gitRoot? = none ∧ e = .noRepository := by
  unfold findRoot
  cases config.root with
  | some root => simp
  | none => cases tree.gitRoot? <;> simp [eq_comm]

/-- Without a root that is given, the repository around the working directory is the root. -/
theorem findRoot_eq_ok_iff_of_none {root : String} :
    findRoot tree { config with root := none } = .ok root ↔
      ∃ location, tree.gitRoot? = some location ∧ location.path.toText = root := by
  unfold findRoot
  cases tree.gitRoot? <;> simp

section WithReaders

variable [Readers]

theorem settingsFile?_of_loadSettings {path : String} (h : loadSettings tree path = .error e) :
    e.settingsFile? = some path := by
  unfold loadSettings at h
  split at h
  · cases h
    rfl
  · next text _ =>
    cases hparse : Settings.parse text with
    | ok settings => rw [hparse] at h; cases h
    | error cause => rw [hparse] at h; cases h; rfl

/-- Resolving fails for want of a root, or when the settings file cannot be loaded. -/
theorem resolve_snd_eq_error_iff : (config.resolve tree).2 = .error e ↔
    findRoot tree config = .error e ∨ ∃ root path, findRoot tree config = .ok root ∧
      settingsToLoad? tree config root = some path ∧ loadSettings tree path = .error e := by
  unfold resolve
  cases findRoot tree config with
  | error cause => simp
  | ok root =>
    cases hpath : settingsToLoad? tree config root with
    | none => simp [hpath]
    | some path => cases hload : loadSettings tree path <;> simp [hpath, hload]

/-- A failure leaves the configuration without its root. -/
theorem resolve_fst_of_error (h : (config.resolve tree).2 = .error e) :
    (config.resolve tree).1 = { config with root := none } := by
  obtain hroot | ⟨root, path, hroot, hpath, hload⟩ := resolve_snd_eq_error_iff.1 h
  · obtain ⟨hnone, -⟩ := findRoot_eq_error_iff.1 hroot
    rw [resolve, hroot, ← hnone]
  · rw [resolve, hroot]
    simp only [hpath, hload]

/-- A second attempt fails as the first one did if it comes to the same settings file. -/
theorem resolve_again_iff {root path : String}
    (hpath : settingsToLoad? tree config root = some path)
    (hload : loadSettings tree path = .error e) :
    (resolve tree { config with root := none }).2 = .error e ↔
      ∃ location, tree.gitRoot? = some location ∧
        settingsToLoad? tree config location.path.toText = settingsToLoad? tree config root := by
  have hnames : e.settingsFile? = some path := settingsFile?_of_loadSettings hload
  rw [resolve_snd_eq_error_iff, hpath]
  constructor
  · rintro (hfind | ⟨found, other, hfind, hother, hagain⟩)
    · obtain ⟨-, -, rfl⟩ := findRoot_eq_error_iff.1 hfind
      cases hnames
    · -- the error tells which settings file it is about
      obtain ⟨location, hlocation, rfl⟩ := findRoot_eq_ok_iff_of_none.1 hfind
      have hsame := (settingsFile?_of_loadSettings hagain).symm.trans hnames
      exact ⟨location, hlocation, hother.trans hsame⟩
  · rintro ⟨location, hlocation, hsame⟩
    exact .inr ⟨_, path, findRoot_eq_ok_iff_of_none.2 ⟨location, hlocation, rfl⟩, hsame, hload⟩

/-- A configuration that cannot be resolved loses its root and keeps all else.

So it is what it was exactly if no root was given. If one was given, a second attempt searches for
the repository around the working directory, and fails with the same error exactly if there is one
and it leads to the settings file that could not be loaded. -/
theorem failed_resolve_forgets_root (h : (config.resolve tree).2 = .error e) :
    (config.resolve tree).1 = { config with root := none } ∧
      ((config.resolve tree).1 = config ↔ config.root = none) ∧
      (((config.resolve tree).1.resolve tree).2 = .error e ↔
        ∀ root, config.root = some root → ∃ location, tree.gitRoot? = some location ∧
          settingsToLoad? tree config location.path.toText =
            settingsToLoad? tree config (canonicalText tree root)) := by
  have hafter := resolve_fst_of_error h
  rw [hafter]
  refine ⟨rfl, ?_, ?_⟩
  · constructor
    · intro hsame
      rw [← hsame]
    · intro hnone
      rw [← hnone]
  · cases hgiven : config.root with
    | none =>
      have hsame : { config with root := none } = config := by rw [← hgiven]
      rw [hsame]
      exact iff_of_true h (by simp)
    | some given =>
      obtain hroot | ⟨root, path, hroot, hpath, hload⟩ := resolve_snd_eq_error_iff.1 h
      · obtain ⟨hnone, -⟩ := findRoot_eq_error_iff.1 hroot
        cases hnone.symm.trans hgiven
      · obtain rfl : canonicalText tree given = root := by
          rw [findRoot, hgiven] at hroot
          exact Except.ok.inj hroot
        rw [resolve_again_iff hpath hload]
        simp

end WithReaders

/-- A directory with broken settings inside of a repository. -/
def brokenTree : FileTree where
  entries := [(["p", ".git"], .directory), (["p", "a", settingsFile], .file "\x7b not json".toUTF8)]
  cwd := ["p"]

def brokenConfig : Config := { empty with root := some "a" }

def brokenError : ConfigError := .invalidSettings "/p/a/.oxiorder.json" .notJson

/-- The second attempt takes the repository for the root, where there are no settings to load. -/
theorem second_resolve_takes_repository :
    (brokenConfig.resolve brokenTree).2 = .error brokenError ∧
      (brokenConfig.resolve brokenTree).1 = empty ∧
      (brokenConfig.resolve brokenTree).1 ≠ brokenConfig ∧
      ((brokenConfig.resolve brokenTree).1.resolve brokenTree).2 ≠ .error brokenError := by
  have h : (brokenConfig.resolve brokenTree).2 = .error brokenError := by decide +kernel
  obtain ⟨hafter, hsame, hagain⟩ := failed_resolve_forgets_root h
  refine ⟨h, hafter, fun hkept => ?_, fun hfails => ?_⟩
  · cases hsame.1 hkept
  · obtain ⟨location, hlocation, hsettings⟩ := hagain.1 hfails "a" rfl
    have hrepository : brokenTree.gitRoot? = some ["p"] := by decide +kernel
    obtain rfl := Option.some.inj (hrepository.symm.trans hlocation)
    revert hsettings
    decide +kernel

end Config

end ImportOrder
