import ImportOrder.Manifest
import Mathlib.Data.List.Infix

/-!
# The search for the nearest manifest

A search looks at a directory and at those above it, from the inside out. If the root of the project
is at or above the directory, nothing above the root is looked at. What the first manifest on the
way declares is the answer, even if it cannot be read or parsed and declares nothing.

## Main definitions

- `Path.Encloses`: a directory at or above a path
- `Manifest.InReach`: the directories that a search looks at
- `Manifest.IsNearest`, `Manifest.Finds`: the manifest to use, and what a search should find

## Main statements

- `Path.mem_ancestors`: the ancestors of a path are the directories at or above it
- `Manifest.mem_upTo_ancestors`: the search stops at the root
- `Manifest.nearest_eq_iff`: the search finds what it should
- `Manifest.nearest_congr`: the search depends on nothing but the manifests in reach
-/

namespace ImportOrder

namespace Path

/-- The directory is at or above the path: both start from the same place, and the parts of the path
go on where those of the directory end. -/
def Encloses (directory path : Path) : Prop :=
  directory.parts <+: path.parts ∧ directory.isAbsolute = path.isAbsolute

instance (directory path : Path) : Decidable (directory.Encloses path) :=
  inferInstanceAs (Decidable (_ ∧ _))

theorem Encloses.refl (path : Path) : path.Encloses path := ⟨List.prefix_rfl, rfl⟩

theorem Encloses.antisymm {a b : Path} (hab : a.Encloses b) (hba : b.Encloses a) : a = b := by
  obtain ⟨parts⟩ := a
  obtain ⟨parts'⟩ := b
  exact congrArg Path.mk (hab.1.eq_of_length_le hba.1.length_le)

/-- A path of more than one part starts where the path without the last part does. -/
theorem isAbsolute_append (parts : List PathPart) (part : PathPart) (hne : parts ≠ []) :
    isAbsolute ⟨parts ++ [part]⟩ = isAbsolute ⟨parts⟩ := by
  cases parts with
  | nil => exact absurd rfl hne
  | cons head tail => rfl

theorem encloses_append_iff {a : Path} {parts : List PathPart} {part : PathPart}
    (h : parts = [] → part ≠ .root) :
    a.Encloses ⟨parts ++ [part]⟩ ↔ a = ⟨parts ++ [part]⟩ ∨ a.Encloses ⟨parts⟩ := by
  obtain ⟨own⟩ := a
  have hstart : isAbsolute ⟨parts ++ [part]⟩ = isAbsolute ⟨parts⟩ := by
    by_cases hnil : parts = []
    · subst hnil
      simpa [isAbsolute] using h rfl
    · exact isAbsolute_append parts part hnil
  constructor
  · rintro ⟨hfront, habs⟩
    cases List.prefix_concat_iff.1 hfront with
    | inl heq => exact .inl (congrArg Path.mk heq)
    | inr hfront => exact .inr ⟨hfront, habs.trans hstart⟩
  · rintro (heq | ⟨hfront, habs⟩)
    · rw [heq]
      exact .refl _
    · exact ⟨hfront.trans (List.prefix_append parts [part]), habs.trans hstart.symm⟩

theorem ne_root_of_reverse_eq_nil {part : PathPart} {parts : List PathPart}
    (h : part = .root → parts = [] → False) (hnil : parts.reverse = []) : part ≠ .root :=
  fun hroot => h hroot (List.reverse_eq_nil_iff.1 hnil)

theorem mem_ancestorsOfReverse {a : Path} (parts : List PathPart) :
    a ∈ ancestorsOfReverse parts ↔ a.Encloses ⟨parts.reverse⟩ := by
  fun_induction ancestorsOfReverse parts with
  | case1 =>
    simp only [List.mem_singleton, List.reverse_nil]
    refine ⟨fun h => h ▸ .refl _, fun h => ?_⟩
    obtain ⟨own⟩ := a
    exact congrArg Path.mk (List.prefix_nil.1 h.1)
  | case2 =>
    simp only [List.mem_singleton, List.reverse_singleton]
    refine ⟨fun h => h ▸ .refl _, fun h => ?_⟩
    obtain ⟨own⟩ := a
    cases own with
    | nil => exact absurd h.2 (by decide)
    | cons part own =>
      obtain ⟨rest, hrest⟩ := h.1
      obtain ⟨rfl, hnil⟩ := List.cons.inj hrest
      obtain ⟨rfl, -⟩ := List.append_eq_nil_iff.1 hnil
      rfl
  | case3 part parts hroot ih =>
    rw [List.mem_cons, List.reverse_cons, encloses_append_iff (ne_root_of_reverse_eq_nil hroot), ih]

/-- The ancestors of a path are the directories at or above it. -/
theorem mem_ancestors {a path : Path} : a ∈ path.ancestors ↔ a.Encloses path := by
  rw [ancestors, mem_ancestorsOfReverse, List.reverse_reverse]

theorem pairwise_ancestorsOfReverse (parts : List PathPart) :
    (ancestorsOfReverse parts).Pairwise fun inner outer => outer.Encloses inner := by
  fun_induction ancestorsOfReverse parts with
  | case1 => exact List.pairwise_singleton ..
  | case2 => exact List.pairwise_singleton ..
  | case3 part parts hroot ih =>
    refine List.pairwise_cons.2 ⟨fun outer houter => ?_, ih⟩
    rw [List.reverse_cons, encloses_append_iff (ne_root_of_reverse_eq_nil hroot)]
    exact .inr ((mem_ancestorsOfReverse parts).1 houter)

/-- The ancestors of a path come from the inside out. -/
theorem pairwise_ancestors (path : Path) :
    path.ancestors.Pairwise fun inner outer => outer.Encloses inner :=
  pairwise_ancestorsOfReverse path.parts.reverse

end Path

namespace Manifest

variable {tree : FileTree} {root directory d : Path} {packages : List String}

/-- A search from `directory` looks into `d`: it is at or above the directory, and not above the
root if the root is at or above the directory too. -/
def InReach (root directory d : Path) : Prop :=
  d.Encloses directory ∧ (root.Encloses directory → root.Encloses d)

/-- Stopping at the root leaves out what is above it. -/
theorem mem_upTo {paths : List Path}
    (hpaths : paths.Pairwise fun inner outer => outer.Encloses inner) :
    d ∈ upTo root paths ↔ d ∈ paths ∧ (root ∈ paths → root.Encloses d) := by
  induction paths with
  | nil => simp [upTo]
  | cons path paths ih =>
    obtain ⟨houter, hpaths⟩ := List.pairwise_cons.1 hpaths
    rw [upTo]
    by_cases hroot : path = root
    · subst hroot
      rw [if_pos rfl, List.mem_singleton]
      constructor
      · rintro rfl
        exact ⟨List.mem_cons_self, fun _ => .refl d⟩
      · rintro ⟨hd, hencloses⟩
        cases List.mem_cons.1 hd with
        | inl heq => exact heq
        | inr hd => exact (houter d hd).antisymm (hencloses List.mem_cons_self)
    · rw [if_neg hroot, List.mem_cons, List.mem_cons, ih hpaths, List.mem_cons]
      constructor
      · rintro (rfl | ⟨hd, hencloses⟩)
        · refine ⟨.inl rfl, fun hmem => ?_⟩
          exact houter root (hmem.resolve_left fun heq => hroot heq.symm)
        · exact ⟨.inr hd, fun hmem => hencloses (hmem.resolve_left fun heq => hroot heq.symm)⟩
      · rintro ⟨rfl | hd, hencloses⟩
        · exact .inl rfl
        · exact .inr ⟨hd, fun hmem => hencloses (.inr hmem)⟩

theorem mem_upTo_ancestors :
    d ∈ upTo root directory.ancestors ↔ InReach root directory d := by
  rw [mem_upTo directory.pairwise_ancestors, Path.mem_ancestors, Path.mem_ancestors,
    InReach]

theorem upTo_sublist (root : Path) (paths : List Path) : (upTo root paths).Sublist paths := by
  induction paths with
  | nil => exact List.Sublist.refl _
  | cons path paths ih =>
    rw [upTo]
    split
    · exact (List.nil_sublist paths).cons_cons path
    · exact ih.cons_cons path

/-- The directory with the manifest to use: one in reach that holds a manifest, inside all others in
reach that do. -/
structure IsNearest (tree : FileTree) (root directory d : Path) : Prop where
  in_reach : InReach root directory d
  holds : tree.leadsToFile (d.child fileName) = true
  /-- Every other directory in reach with a manifest is further out. -/
  innermost : ∀ e, InReach root directory e → tree.leadsToFile (e.child fileName) = true →
    e.Encloses d

theorem IsNearest.unique {d e : Path} (hd : IsNearest tree root directory d)
    (he : IsNearest tree root directory e) : d = e :=
  (he.innermost d hd.in_reach hd.holds).antisymm (hd.innermost e he.in_reach he.holds)

variable [Readers]

/-- What the manifest of a directory declares; nothing if it cannot be read or parsed. -/
def declared (tree : FileTree) (d : Path) : List String :=
  match read tree (d.child fileName) with
  | .ok packages => packages
  | .error _ => []

/-- What a search should find: what the nearest manifest declares, or nothing if there is none. -/
inductive Finds (tree : FileTree) (root directory : Path) : List String → Prop where
  | manifest {d : Path} (h : IsNearest tree root directory d) :
      Finds tree root directory (declared tree d)
  | nothing (h : ∀ d, InReach root directory d → tree.leadsToFile (d.child fileName) = false) :
      Finds tree root directory []

theorem Finds.unique {found : List String} (h : Finds tree root directory packages)
    (h' : Finds tree root directory found) : packages = found := by
  cases h with
  | manifest hd =>
    cases h' with
    | manifest he => rw [hd.unique he]
    | nothing hnone => exact absurd hd.holds (by simp [hnone _ hd.in_reach])
  | nothing hnone =>
    cases h' with
    | manifest he => exact absurd he.holds (by simp [hnone _ he.in_reach])
    | nothing _ => rfl

theorem finds_nearest (tree : FileTree) (root directory : Path) :
    Finds tree root directory (nearest tree root directory) := by
  unfold nearest
  cases hfind : (upTo root directory.ancestors).find?
      fun d => tree.leadsToFile (d.child fileName) with
  | none =>
    refine .nothing fun d hd => ?_
    simpa using List.find?_eq_none.1 hfind d (mem_upTo_ancestors.2 hd)
  | some d =>
    -- what comes before the directory has no manifest, and what comes behind is further out
    obtain ⟨hholds, inner, outer, hsplit, hinner⟩ := List.find?_eq_some_iff_append.1 hfind
    have horder := directory.pairwise_ancestors.sublist (upTo_sublist root directory.ancestors)
    rw [hsplit, List.pairwise_append, List.pairwise_cons] at horder
    have hd : IsNearest tree root directory d := by
      refine ⟨mem_upTo_ancestors.1 (by simp [hsplit]), hholds, fun e he hmanifest => ?_⟩
      have hmem := mem_upTo_ancestors.2 he
      rw [hsplit, List.mem_append, List.mem_cons] at hmem
      rcases hmem with hmem | rfl | hmem
      · exact absurd hmanifest (by simpa using hinner e hmem)
      · exact .refl e
      · exact horder.2.1.1 e hmem
    have hdeclared : (read tree (d.child fileName)).toOption.getD [] = declared tree d := by
      unfold declared
      cases read tree (d.child fileName) <;> rfl
    simp only [hdeclared]
    exact .manifest hd

/-- A search finds the packages of the nearest manifest in reach, and nothing else. -/
theorem nearest_eq_iff :
    nearest tree root directory = packages ↔ Finds tree root directory packages :=
  ⟨fun h => h ▸ finds_nearest tree root directory, (finds_nearest tree root directory).unique⟩

end Manifest

namespace FileTree

/-- The bytes of the file that a path leads to. -/
def bytesAt? (tree : FileTree) (path : Path) : Option ByteArray :=
  (tree.resolve? path).bind tree.file?

theorem leadsToFile_eq (tree : FileTree) (path : Path) :
    tree.leadsToFile path = (tree.bytesAt? path).isSome := by
  unfold leadsToFile bytesAt?
  cases tree.resolve? path <;> rfl

theorem readText?_eq (tree : FileTree) (path : Path) :
    tree.readText? path =
      (tree.bytesAt? path).bind fun bytes => (String.fromUTF8? bytes).map String.toList := by
  unfold readText? bytesAt? textAt?
  cases tree.resolve? path with
  | none => rfl
  | some location =>
    simp only [Option.bind_some, bind]
    cases tree.file? location with
    | none => rfl
    | some bytes =>
      simp only [Option.bind_some]
      cases String.fromUTF8? bytes <;> rfl

end FileTree

namespace Manifest

section Congr

variable [Readers] {tree tree' : FileTree} {root directory : Path} {packages : List String}
  (h : ∀ d, InReach root directory d →
    tree.bytesAt? (d.child fileName) = tree'.bytesAt? (d.child fileName))

include h

theorem Finds.congr (hfinds : Finds tree root directory packages) :
    Finds tree' root directory packages := by
  have hholds : ∀ d, InReach root directory d →
      tree.leadsToFile (d.child fileName) = tree'.leadsToFile (d.child fileName) := by
    intro d hd
    rw [FileTree.leadsToFile_eq, FileTree.leadsToFile_eq, h d hd]
  cases hfinds with
  | nothing hnone => exact .nothing fun d hd => (hholds d hd).symm.trans (hnone d hd)
  | @manifest d hd =>
    have hsame : declared tree d = declared tree' d := by
      rw [declared, declared, read, read, FileTree.readText?_eq, FileTree.readText?_eq,
        h d hd.in_reach]
    rw [hsame]
    refine .manifest ⟨hd.in_reach, (hholds d hd.in_reach).symm.trans hd.holds, ?_⟩
    intro e he hmanifest
    exact hd.innermost e he ((hholds e he).trans hmanifest)

/-- A search sees nothing of a tree but the manifests in reach. -/
theorem nearest_congr : nearest tree root directory = nearest tree' root directory :=
  ((finds_nearest tree root directory).congr h).unique (finds_nearest tree' root directory)

end Congr

end Manifest

end ImportOrder
