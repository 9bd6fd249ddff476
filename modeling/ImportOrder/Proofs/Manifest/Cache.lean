import ImportOrder.Proofs.Manifest.Search
import ImportOrder.Readers.Standard
import Mathlib.Data.List.Dedup
import Mathlib.Data.List.Induction

/-!
# The cache of manifests in use

A cache answers as a search would, as of the first time that a directory was asked for: what is
written later is not seen in that directory any more. While nothing is written, every answer is that
of a fresh search, also if several workers look packages up at the same time and one of them stores
an answer between the question and the answer of another.

## Main definitions

- `ManifestCache.Records`: what a cache knows after some directories were asked for
- `ManifestCache.Event`, `ManifestCache.Session`: lookups and writes in turn
- `ManifestCache.treeSearched`: the tree in which a directory is searched
- `ManifestCache.Worker`, `ManifestCache.Crew`: lookups at the same time, step by step

## Main statements

- `ManifestCache.Records.packagesFor`: what one lookup answers and leaves behind
- `ManifestCache.Session.after_run`: what lookups and writes in turn leave behind
- `ManifestCache.Crew.Sound.run`: what the steps of several workers leave behind
- `ManifestCache.cache_agrees_with_search`: the cache answers as the search does
-/

namespace ImportOrder.ManifestCache

open FileTree (Location)

variable {cache : ManifestCache} {tree : FileTree} {root file d : Path} {packages : List String}

/-- The directory in which the packages of a file are searched. -/
def directoryOf (root file : Path) : Path := file.parent?.getD root

/-- The directories for which the cache holds packages. -/
def directories (cache : ManifestCache) : List Path := cache.found.map Prod.fst

/-! ## One lookup -/

/-- Stores packages for a directory, in place of those stored before. -/
def insert (cache : ManifestCache) (d : Path) (packages : List String) : ManifestCache :=
  { cache with found := (d, packages) :: cache.found.filter (·.1 ≠ d) }

theorem insert_of_notMem (h : d ∉ cache.directories) (packages : List String) :
    cache.insert d packages = { cache with found := (d, packages) :: cache.found } := by
  have hkept : cache.found.filter (·.1 ≠ d) = cache.found := by
    refine List.filter_eq_self.2 fun entry hentry => decide_eq_true fun heq => h ?_
    exact heq ▸ List.mem_map_of_mem hentry
  rw [insert, hkept]

/-- The cache holds packages for the directories asked for and for no others, once for each. -/
structure Records (cache : ManifestCache) (asked : List Path) (packagesOf : Path → List String) :
    Prop where
  /-- No directory is held twice. -/
  nodup : cache.directories.Nodup
  /-- The directories held are those asked for. -/
  mem_iff : ∀ d, d ∈ cache.directories ↔ d ∈ asked
  /-- Each is held with its packages. -/
  packages_eq : ∀ entry ∈ cache.found, entry.2 = packagesOf entry.1

theorem records_empty (root : Path) (packagesOf : Path → List String) :
    (empty root).Records [] packagesOf :=
  ⟨List.nodup_nil, fun _ => Iff.rfl, fun _ h => absurd h List.not_mem_nil⟩

theorem lookup_eq_none_iff : cache.found.lookup d = none ↔ d ∉ cache.directories := by
  rw [List.lookup_eq_none_iff, directories, List.mem_map]
  constructor
  · rintro h ⟨entry, hentry, rfl⟩
    exact absurd (h entry hentry) (by simp)
  · intro h entry hentry
    rw [bne_iff_ne]
    exact fun heq => h ⟨entry, hentry, heq.symm⟩

theorem mem_of_lookup (h : cache.found.lookup d = some packages) : (d, packages) ∈ cache.found := by
  obtain ⟨front, rest, hsplit, -⟩ := List.lookup_eq_some_iff.1 h
  rw [hsplit]
  exact List.mem_append_right front List.mem_cons_self

section Records

variable {asked asked' : List Path} {packagesOf packagesOf' : Path → List String}

/-- The size of the cache is the number of different directories asked for. -/
theorem Records.size_eq (h : cache.Records asked packagesOf) :
    cache.size = asked.dedup.length := by
  have hperm : cache.directories.Perm asked.dedup :=
    (List.perm_ext_iff_of_nodup h.nodup asked.nodup_dedup).2 fun d => by
      rw [h.mem_iff, List.mem_dedup]
  rw [size, ← hperm.length_eq, directories, List.length_map]

theorem Records.congr (h : cache.Records asked packagesOf)
    (hasked : ∀ d, d ∈ asked ↔ d ∈ asked')
    (hpackages : ∀ d ∈ asked, packagesOf d = packagesOf' d) : cache.Records asked' packagesOf' := by
  refine ⟨h.nodup, fun d => (h.mem_iff d).trans (hasked d), fun entry hentry => ?_⟩
  have hmem : entry.1 ∈ asked := (h.mem_iff entry.1).1 (List.mem_map_of_mem hentry)
  rw [h.packages_eq entry hentry, hpackages entry.1 hmem]

theorem Records.insert (h : cache.Records asked packagesOf) (d : Path) :
    (cache.insert d (packagesOf d)).Records (d :: asked) packagesOf := by
  have hmem : ∀ e, e ∈ (cache.found.filter (·.1 ≠ d)).map Prod.fst ↔ e ∈ asked ∧ e ≠ d := by
    intro e
    rw [← h.mem_iff, directories, List.mem_map, List.mem_map]
    constructor
    · rintro ⟨entry, hentry, rfl⟩
      obtain ⟨hentry, hne⟩ := List.mem_filter.1 hentry
      exact ⟨⟨entry, hentry, rfl⟩, of_decide_eq_true hne⟩
    · rintro ⟨⟨entry, hentry, rfl⟩, hne⟩
      exact ⟨entry, List.mem_filter.2 ⟨hentry, decide_eq_true hne⟩, rfl⟩
  refine ⟨?_, fun e => ?_, fun entry hentry => ?_⟩
  · refine List.nodup_cons.2 ⟨fun hd => ((hmem d).1 hd).2 rfl, ?_⟩
    exact h.nodup.sublist (List.filter_sublist.map Prod.fst)
  · simp only [directories, ManifestCache.insert, List.map_cons, List.mem_cons, hmem]
    by_cases he : e = d <;> simp [he]
  · cases List.mem_cons.1 hentry with
    | inl heq => rw [heq]
    | inr hentry => exact h.packages_eq entry (List.mem_of_mem_filter hentry)

/-- A lookup answers with the packages held for the directory of the file. If there are none it
searches, and from then on the cache holds what was found. -/
theorem Records.packagesFor [Readers] (h : cache.Records asked packagesOf) (tree : FileTree)
    (file : Path) (hsearch : directoryOf cache.root file ∉ asked →
      packagesOf (directoryOf cache.root file) =
        Manifest.nearest tree cache.root (directoryOf cache.root file)) :
    (cache.packagesFor tree file).1 = packagesOf (directoryOf cache.root file) ∧
      (cache.packagesFor tree file).2.root = cache.root ∧
      (cache.packagesFor tree file).2.Records (directoryOf cache.root file :: asked)
        packagesOf := by
  have hstart : file.parent?.getD cache.root = directoryOf cache.root file := rfl
  rw [ManifestCache.packagesFor, hstart]
  generalize directoryOf cache.root file = d at *
  cases hlookup : cache.found.lookup d with
  | some packages =>
    have hentry := mem_of_lookup hlookup
    have hmem : d ∈ asked := (h.mem_iff d).1 (List.mem_map_of_mem hentry)
    refine ⟨h.packages_eq _ hentry, rfl, h.congr (fun e => ?_) fun _ _ => rfl⟩
    rw [List.mem_cons]
    exact ⟨.inr, fun he => he.elim (fun heq => heq ▸ hmem) id⟩
  | none =>
    have hnew := lookup_eq_none_iff.1 hlookup
    have hd : d ∉ asked := fun hmem => hnew ((h.mem_iff d).2 hmem)
    simp only [← hsearch hd, ← insert_of_notMem hnew]
    exact ⟨trivial, trivial, h.insert d⟩

end Records

/-! ## Lookups and writes in turn -/

/-- What happens while a cache is in use. -/
inductive Event where
  | lookup (file : Path)
  | write (location : Location) (bytes : ByteArray)

/-- The directories that events ask for, in turn. -/
def asked (root : Path) : List Event → List Path
  | [] => []
  | .lookup file :: events => directoryOf root file :: asked root events
  | .write _ _ :: events => asked root events

theorem asked_append (root : Path) (events later : List Event) :
    asked root (events ++ later) = asked root events ++ asked root later := by
  induction events with
  | nil => rfl
  | cons event events ih =>
    cases event with
    | lookup file => simp only [List.cons_append, asked, ih]
    | write location bytes => simp only [List.cons_append, asked, ih]

/-- A cache together with the tree in which it searches. -/
structure Session where
  cache : ManifestCache
  tree : FileTree

def Session.step [Readers] (session : Session) : Event → Session
  | .lookup file => { session with cache := (session.cache.packagesFor session.tree file).2 }
  | .write location bytes => { session with tree := session.tree.write location bytes }

/-- The session after events in turn. -/
def Session.run [Readers] (session : Session) (events : List Event) : Session :=
  events.foldl Session.step session

/-- The packages that a lookup answers with. -/
def Session.answer [Readers] (session : Session) (file : Path) : List String :=
  (session.cache.packagesFor session.tree file).1

def Session.start (root : Path) (tree : FileTree) : Session := ⟨empty root, tree⟩

/-- The tree as it is when a directory is first asked for, or after all events if it never is. -/
def treeSearched (root d : Path) : FileTree → List Event → FileTree
  | tree, [] => tree
  | tree, .lookup file :: events =>
    if directoryOf root file = d then tree else treeSearched root d tree events
  | tree, .write location bytes :: events => treeSearched root d (tree.write location bytes) events

/-- What happens after a directory was asked for does not change where it was searched. -/
theorem treeSearched_of_mem {events : List Event} (h : d ∈ asked root events) (tree : FileTree)
    (later : List Event) :
    treeSearched root d tree (events ++ later) = treeSearched root d tree events := by
  induction events generalizing tree with
  | nil => exact absurd h List.not_mem_nil
  | cons event events ih =>
    cases event with
    | lookup file =>
      rw [List.cons_append, treeSearched, treeSearched]
      by_cases hd : directoryOf root file = d
      · rw [if_pos hd, if_pos hd]
      · rw [if_neg hd, if_neg hd]
        exact ih ((List.mem_cons.1 h).resolve_left fun heq => hd heq.symm) tree
    | write location bytes => exact ih h (tree.write location bytes)

/-- A directory that was not asked for is searched in the tree as the events left it. -/
theorem treeSearched_of_notMem {events : List Event} (h : d ∉ asked root events) (tree : FileTree)
    (later : List Event) :
    treeSearched root d tree (events ++ later) =
      treeSearched root d (treeSearched root d tree events) later := by
  induction events generalizing tree with
  | nil => rfl
  | cons event events ih =>
    cases event with
    | lookup file =>
      obtain ⟨hne, hrest⟩ := not_or.1 (List.mem_cons.not.1 h)
      have hne : directoryOf root file ≠ d := fun heq => hne heq.symm
      rw [List.cons_append, treeSearched, if_neg hne, ih hrest tree, treeSearched, if_neg hne]
    | write location bytes => exact ih h (tree.write location bytes)

/-- Without writes there is only one tree to search. -/
theorem treeSearched_of_lookups {events : List Event}
    (h : ∀ location bytes, Event.write location bytes ∉ events) (tree : FileTree) :
    treeSearched root d tree events = tree := by
  induction events with
  | nil => rfl
  | cons event events ih =>
    cases event with
    | lookup file =>
      have hlater : ∀ location bytes, Event.write location bytes ∉ events :=
        fun location bytes hmem => h location bytes (List.mem_cons_of_mem _ hmem)
      rw [treeSearched, ih hlater, ite_self]
    | write location bytes => exact absurd List.mem_cons_self (h location bytes)

section WithReaders

variable [Readers]

/-- A session after events that began with a new cache and a given tree: the cache holds for every
directory asked for what was found when it was first asked for. -/
structure Session.After (root : Path) (tree : FileTree) (events : List Event) (session : Session) :
    Prop where
  root_eq : session.cache.root = root
  /-- A directory not asked for yet would be searched in the tree as it is now. -/
  tree_eq : ∀ d, d ∉ asked root events → treeSearched root d tree events = session.tree
  records : session.cache.Records (asked root events)
    fun d => Manifest.nearest (treeSearched root d tree events) root d

section After

variable {events : List Event} {session : Session}

theorem Session.After.write (h : session.After root tree events) (location : Location)
    (bytes : ByteArray) :
    (session.step (.write location bytes)).After root tree (events ++ [.write location bytes]) := by
  have hasked : asked root (events ++ [.write location bytes]) = asked root events := by
    rw [asked_append, asked, asked, List.append_nil]
  refine ⟨h.root_eq, fun d hd => ?_, h.records.congr (fun d => by rw [hasked]) fun d hd => ?_⟩
  · rw [hasked] at hd
    rw [treeSearched_of_notMem hd, h.tree_eq d hd]
    rfl
  · rw [treeSearched_of_mem hd]

theorem Session.After.lookup (h : session.After root tree events) (file : Path) :
    session.answer file =
        Manifest.nearest (treeSearched root (directoryOf root file) tree (events ++ [.lookup file]))
          root (directoryOf root file) ∧
      (session.step (.lookup file)).After root tree (events ++ [.lookup file]) := by
  have hasked : asked root (events ++ [.lookup file]) =
      asked root events ++ [directoryOf root file] := by
    rw [asked_append, asked, asked]
  -- for the directories asked for so far nothing changes, and any other is searched now
  have hrecords := h.records.congr (fun _ => Iff.rfl) fun d hd =>
    congrArg (Manifest.nearest · root d) (treeSearched_of_mem hd tree [.lookup file]).symm
  have hnow : ∀ d, d ∉ asked root events →
      treeSearched root d tree (events ++ [.lookup file]) = session.tree := by
    intro d hd
    rw [treeSearched_of_notMem hd, h.tree_eq d hd, treeSearched, treeSearched, ite_self]
  have hlookup := hrecords.packagesFor session.tree file
  rw [h.root_eq] at hlookup
  obtain ⟨hanswer, hroot, hafter⟩ := hlookup fun hd => by rw [hnow _ hd]
  refine ⟨hanswer, hroot, fun d hd => ?_, hafter.congr (fun d => ?_) fun _ _ => rfl⟩
  · rw [hasked, List.mem_append, not_or] at hd
    exact hnow d hd.1
  · rw [hasked, List.mem_append, List.mem_cons, List.mem_singleton, or_comm]

theorem Session.after_run (root : Path) (tree : FileTree) (events : List Event) :
    ((Session.start root tree).run events).After root tree events := by
  induction events using List.reverseRecOn with
  | nil => exact ⟨rfl, fun _ _ => rfl, records_empty root _⟩
  | append_singleton events event ih =>
    rw [Session.run, List.foldl_append, List.foldl_cons, List.foldl_nil]
    cases event with
    | lookup file => exact (ih.lookup file).2
    | write location bytes => exact ih.write location bytes

end After

/-! ## Lookups at the same time -/

/-- Where a lookup stands. -/
inductive Phase where
  /-- The cache has not been asked yet. -/
  | waiting
  /-- The cache was asked and held nothing. -/
  | missed
  /-- The packages were found by a search and are not stored yet. -/
  | searched (packages : List String)
  /-- The lookup has answered. -/
  | answered (packages : List String)
deriving DecidableEq, Repr

/-- A cache holds nothing but what a search finds. -/
def Fresh (tree : FileTree) (cache : ManifestCache) : Prop :=
  cache.Records cache.directories (Manifest.nearest tree cache.root)

theorem Records.fresh {asked : List Path}
    (h : cache.Records asked (Manifest.nearest tree cache.root)) : cache.Fresh tree :=
  h.congr (fun d => (h.mem_iff d).symm) fun _ _ => rfl

namespace Phase

variable {phase : Phase}

/-- One step of a lookup in a directory: it asks the cache, searches, or stores what it found. -/
def step (tree : FileTree) (cache : ManifestCache) (d : Path) : Phase → ManifestCache × Phase
  | waiting => (cache, match cache.found.lookup d with
    | some packages => answered packages
    | none => missed)
  | missed => (cache, searched (Manifest.nearest tree cache.root d))
  | searched packages => (cache.insert d packages, answered packages)
  | answered packages => (cache, answered packages)

/-- The number of steps that are left at most. -/
def remaining : Phase → Nat
  | waiting => 3
  | missed => 2
  | searched _ => 1
  | answered _ => 0

/-- A lookup holds nothing but what a search finds, and it has stored what it answered. -/
def Sound (tree : FileTree) (cache : ManifestCache) (d : Path) : Phase → Prop
  | waiting | missed => True
  | searched packages => packages = Manifest.nearest tree cache.root d
  | answered packages => packages = Manifest.nearest tree cache.root d ∧ d ∈ cache.directories

theorem remaining_step (tree : FileTree) (cache : ManifestCache) (d : Path) (phase : Phase) :
    (phase.step tree cache d).2.remaining ≤ phase.remaining - 1 := by
  cases phase with
  | waiting =>
    simp only [step]
    split <;> simp [remaining]
  | missed => exact Nat.le_refl 1
  | searched packages => exact Nat.le_refl 0
  | answered packages => exact Nat.le_refl 0

theorem root_step (tree : FileTree) (cache : ManifestCache) (d : Path) (phase : Phase) :
    (phase.step tree cache d).1.root = cache.root := by
  cases phase <;> rfl

/-- A step adds at most the directory of the lookup to those held. -/
theorem mem_directories_step (tree : FileTree) (hfresh : cache.Fresh tree)
    (h : phase.Sound tree cache d) {e : Path} :
    (e ∈ cache.directories → e ∈ (phase.step tree cache d).1.directories) ∧
      (e ∈ (phase.step tree cache d).1.directories → e = d ∨ e ∈ cache.directories) := by
  cases phase with
  | searched packages =>
    have hiff := (Records.insert hfresh d).mem_iff e
    rw [← show packages = Manifest.nearest tree cache.root d from h, List.mem_cons] at hiff
    exact ⟨fun he => hiff.2 (.inr he), hiff.1⟩
  | waiting => exact ⟨id, .inr⟩
  | missed => exact ⟨id, .inr⟩
  | answered packages => exact ⟨id, .inr⟩

theorem fresh_step (hfresh : cache.Fresh tree) (h : phase.Sound tree cache d) :
    (phase.step tree cache d).1.Fresh tree := by
  cases phase with
  | searched packages =>
    have hinsert := Records.insert hfresh d
    rw [← show packages = Manifest.nearest tree cache.root d from h] at hinsert
    exact hinsert.fresh
  | waiting => exact hfresh
  | missed => exact hfresh
  | answered packages => exact hfresh

theorem sound_step (hfresh : cache.Fresh tree) (h : phase.Sound tree cache d) :
    (phase.step tree cache d).2.Sound tree (phase.step tree cache d).1 d := by
  cases phase with
  | waiting =>
    simp only [step]
    cases hlookup : cache.found.lookup d with
    | none => trivial
    | some packages =>
      have hentry := mem_of_lookup hlookup
      exact ⟨hfresh.packages_eq _ hentry, List.mem_map_of_mem hentry⟩
  | missed => rfl
  | searched packages => exact ⟨h, List.mem_cons_self⟩
  | answered packages => exact h

theorem Sound.mono {cache' : ManifestCache} (h : phase.Sound tree cache d)
    (hroot : cache'.root = cache.root) (hgrow : d ∈ cache.directories → d ∈ cache'.directories) :
    phase.Sound tree cache' d := by
  cases phase with
  | waiting => trivial
  | missed => trivial
  | searched packages => exact h.trans (by rw [hroot])
  | answered packages => exact ⟨h.1.trans (by rw [hroot]), hgrow h.2⟩

end Phase

/-- A lookup that takes its steps among others. -/
structure Worker where
  file : Path
  phase : Phase
deriving DecidableEq, Repr

/-- A cache that several workers share. -/
structure Crew where
  cache : ManifestCache
  workers : List Worker

namespace Crew

variable {crew : Crew} {k : Nat} {worker : Worker}

/-- A new cache, with one worker for each lookup. -/
def start (root : Path) (files : List Path) : Crew := ⟨empty root, files.map (⟨·, .waiting⟩)⟩

/-- The worker with number `k` takes a step. -/
def step (tree : FileTree) (crew : Crew) (k : Nat) : Crew :=
  match crew.workers[k]? with
  | some worker =>
    let (cache, phase) :=
      worker.phase.step tree crew.cache (directoryOf crew.cache.root worker.file)
    ⟨cache, crew.workers.set k { worker with phase }⟩
  | none => crew

/-- The workers take steps in the order of a schedule. -/
def run (tree : FileTree) (crew : Crew) (schedule : List Nat) : Crew :=
  schedule.foldl (step tree) crew

/-- A worker that takes its steps alone does what a lookup does. -/
theorem run_alone (tree : FileTree) (cache : ManifestCache) (file : Path) :
    run tree ⟨cache, [⟨file, .waiting⟩]⟩ [0, 0, 0] =
      ⟨(cache.packagesFor tree file).2, [⟨file, .answered (cache.packagesFor tree file).1⟩]⟩ := by
  have hstart : file.parent?.getD cache.root = directoryOf cache.root file := rfl
  rw [packagesFor, hstart]
  simp only [run, List.foldl_cons, List.foldl_nil, step, Phase.step, List.getElem?_cons_zero,
    List.set_cons_zero]
  cases hlookup : cache.found.lookup (directoryOf cache.root file) with
  | some packages => rfl
  | none => simp only [insert_of_notMem (lookup_eq_none_iff.1 hlookup)]

/-- The steps of a worker change its phase, and no other worker. -/
theorem getElem?_step (tree : FileTree) (crew : Crew) (k j : Nat) :
    (crew.step tree k).workers[j]? =
      if k = j then crew.workers[j]?.map fun worker => { worker with phase :=
        (worker.phase.step tree crew.cache (directoryOf crew.cache.root worker.file)).2 }
      else crew.workers[j]? := by
  unfold step
  cases hk : crew.workers[k]? with
  | none =>
    by_cases hj : k = j
    · subst hj
      simp [hk]
    · simp [hj]
  | some worker =>
    have hlt := (List.getElem?_eq_some_iff.1 hk).1
    by_cases hj : k = j
    · subst hj
      rw [if_pos rfl, hk, Option.map_some]
      exact List.getElem?_set_self hlt
    · simp [hj]

theorem files_step (tree : FileTree) (crew : Crew) (k : Nat) :
    (crew.step tree k).workers.map Worker.file = crew.workers.map Worker.file := by
  apply List.ext_getElem?
  intro j
  rw [List.getElem?_map, List.getElem?_map, getElem?_step]
  split
  · rw [Option.map_map]
    rfl
  · rfl

/-- The cache and all workers hold nothing but what a search finds, and the cache holds no
directory that no worker asks for. -/
structure Sound (tree : FileTree) (root : Path) (crew : Crew) : Prop where
  root_eq : crew.cache.root = root
  fresh : crew.cache.Fresh tree
  asked : ∀ d ∈ crew.cache.directories, d ∈ (crew.workers.map Worker.file).map (directoryOf root)
  phases : ∀ worker ∈ crew.workers,
    worker.phase.Sound tree crew.cache (directoryOf root worker.file)

theorem sound_start (tree : FileTree) (root : Path) (files : List Path) :
    (start root files).Sound tree root := by
  refine ⟨rfl, records_empty root _, fun d hd => absurd hd List.not_mem_nil, ?_⟩
  intro worker hworker
  obtain ⟨file, -, rfl⟩ := List.mem_map.1 hworker
  trivial

/-- Whichever worker takes a step, all stays right. -/
theorem Sound.step (h : crew.Sound tree root) (k : Nat) : (crew.step tree k).Sound tree root := by
  have hfiles := files_step tree crew k
  unfold Crew.step at hfiles ⊢
  cases hk : crew.workers[k]? with
  | none => exact h
  | some worker =>
    simp only [hk] at hfiles
    have hmem : worker ∈ crew.workers := List.mem_of_getElem? hk
    have hphase := h.phases worker hmem
    obtain ⟨rfl⟩ := h.root_eq
    refine ⟨Phase.root_step .., Phase.fresh_step h.fresh hphase, fun d hd => ?_, fun w hw => ?_⟩
    · rw [hfiles]
      cases (Phase.mem_directories_step tree h.fresh hphase).2 hd with
      | inl heq => exact heq ▸ List.mem_map_of_mem (List.mem_map_of_mem hmem)
      | inr hd => exact h.asked d hd
    · -- either another worker, for which the cache has at most grown, or the one that moved
      cases List.mem_or_eq_of_mem_set hw with
      | inl hw =>
        exact (h.phases w hw).mono (Phase.root_step ..)
          (Phase.mem_directories_step tree h.fresh hphase).1
      | inr heq =>
        subst heq
        exact Phase.sound_step h.fresh hphase

section Run

variable (tree : FileTree) (schedule : List Nat)

theorem Sound.run (h : crew.Sound tree root) : (crew.run tree schedule).Sound tree root := by
  induction schedule generalizing crew with
  | nil => exact h
  | cons k schedule ih => exact ih (h.step k)

theorem files_run (crew : Crew) :
    (crew.run tree schedule).workers.map Worker.file = crew.workers.map Worker.file := by
  induction schedule generalizing crew with
  | nil => rfl
  | cons k schedule ih => exact (ih (crew.step tree k)).trans (files_step tree crew k)

/-- Every step of a worker brings it closer to its answer, whatever the others do. -/
theorem remaining_run (hk : crew.workers[k]? = some worker) :
    ∃ worker', (crew.run tree schedule).workers[k]? = some worker' ∧
      worker'.phase.remaining ≤ worker.phase.remaining - schedule.count k := by
  induction schedule generalizing crew worker with
  | nil => exact ⟨worker, hk, Nat.le_refl _⟩
  | cons j schedule ih =>
    have hstep := getElem?_step tree crew j k
    by_cases hj : j = k
    · subst hj
      rw [if_pos rfl, hk, Option.map_some] at hstep
      obtain ⟨worker', hworker', hle⟩ := ih hstep
      refine ⟨worker', hworker', hle.trans ?_⟩
      have hstep := Phase.remaining_step tree crew.cache (directoryOf crew.cache.root worker.file)
        worker.phase
      rw [List.count_cons_self]
      dsimp only
      omega
    · rw [if_neg hj, hk] at hstep
      rw [List.count_cons_of_ne hj]
      exact ih hstep

theorem files_run_start (root : Path) (files : List Path) :
    ((start root files).run tree schedule).workers.map Worker.file = files := by
  rw [files_run, start, List.map_map]
  exact List.map_id files

/-- A lookup that answers does so with what a search finds. -/
theorem answered_run {files : List Path} {file : Path} {packages : List String}
    (h : ((start root files).run tree schedule).workers[k]? = some ⟨file, .answered packages⟩) :
    files[k]? = some file ∧ packages = Manifest.nearest tree root (directoryOf root file) := by
  have hsound := (sound_start tree root files).run tree schedule
  constructor
  · rw [← files_run_start tree schedule root files, List.getElem?_map, h, Option.map_some]
  · have hphase := hsound.phases _ (List.mem_of_getElem? h)
    exact hphase.1.trans (by rw [hsound.root_eq])

/-- A lookup answers after three steps of its own. -/
theorem exists_answered_run {files : List Path} {file : Path} (hk : files[k]? = some file)
    (hcount : 3 ≤ schedule.count k) :
    ∃ packages, ((start root files).run tree schedule).workers[k]? =
      some ⟨file, .answered packages⟩ := by
  have hstart : (start root files).workers[k]? = some ⟨file, .waiting⟩ := by
    simp [start, hk]
  obtain ⟨⟨file', phase⟩, hworker, hle⟩ := remaining_run tree schedule hstart
  cases phase with
  | answered packages =>
    obtain ⟨hfile, -⟩ := answered_run tree schedule hworker
    obtain rfl := Option.some.inj (hk.symm.trans hfile)
    exact ⟨packages, hworker⟩
  | waiting => simp only [Phase.remaining] at hle; omega
  | missed => simp only [Phase.remaining] at hle; omega
  | searched packages => simp only [Phase.remaining] at hle; omega

/-- Once all lookups have answered, the cache holds all their directories and no others. -/
theorem size_run {files : List Path}
    (h : ∀ worker ∈ ((start root files).run tree schedule).workers,
      ∃ packages, worker.phase = .answered packages) :
    ((start root files).run tree schedule).cache.size =
      (files.map (directoryOf root)).dedup.length := by
  have hsound := (sound_start tree root files).run tree schedule
  have hfiles := files_run_start tree schedule root files
  refine Records.size_eq (hsound.fresh.congr (fun d => ⟨fun hd => ?_, fun hd => ?_⟩) fun _ _ => rfl)
  · exact hfiles ▸ hsound.asked d hd
  · obtain ⟨file, hfile, rfl⟩ := List.mem_map.1 hd
    rw [← hfiles] at hfile
    obtain ⟨worker, hworker, rfl⟩ := List.mem_map.1 hfile
    obtain ⟨packages, hpackages⟩ := h worker hworker
    have hphase := hsound.phases worker hworker
    rw [hpackages] at hphase
    exact hphase.2

end Run

end Crew

/-- The cache agrees with the search.

A search finds the packages of the nearest manifest at or above a directory, not going above the
root if the directory is at or below it, and nothing if that manifest cannot be read or parsed.

After lookups and writes in turn, a lookup answers with what a search finds in the tree as it was
when a file of the same directory was first looked up, and the size of the cache is the number of
different directories so far. Without writes that is the tree there is.

If several lookups take their steps at the same time, in any order, each that answers does so with
what a search finds; it does answer after three steps of its own; and once all have answered, the
size of the cache is the number of different directories. A lookup alone takes the same steps. -/
theorem cache_agrees_with_search (root : Path) (tree : FileTree) :
    (∀ directory packages, Manifest.nearest tree root directory = packages ↔
      Manifest.Finds tree root directory packages) ∧
    (∀ (events : List Event) (file : Path),
      ((Session.start root tree).run events).answer file =
        Manifest.nearest (treeSearched root (directoryOf root file) tree (events ++ [.lookup file]))
          root (directoryOf root file) ∧
      ((Session.start root tree).run events).cache.size = (asked root events).dedup.length ∧
      ((∀ location bytes, Event.write location bytes ∉ events) →
        ((Session.start root tree).run events).answer file =
          Manifest.nearest tree root (directoryOf root file))) ∧
    (∀ (files : List Path) (schedule : List Nat),
      (∀ (k : Nat) (file : Path) (packages : List String),
        ((Crew.start root files).run tree schedule).workers[k]? = some ⟨file, .answered packages⟩ →
          files[k]? = some file ∧ packages = Manifest.nearest tree root (directoryOf root file)) ∧
      (∀ (k : Nat) (file : Path), files[k]? = some file → 3 ≤ schedule.count k →
        ∃ packages, ((Crew.start root files).run tree schedule).workers[k]? =
          some ⟨file, .answered packages⟩) ∧
      ((∀ worker ∈ ((Crew.start root files).run tree schedule).workers,
          ∃ packages, worker.phase = .answered packages) →
        ((Crew.start root files).run tree schedule).cache.size =
          (files.map (directoryOf root)).dedup.length)) ∧
    ∀ (cache : ManifestCache) (file : Path),
      Crew.run tree ⟨cache, [⟨file, .waiting⟩]⟩ [0, 0, 0] =
        ⟨(cache.packagesFor tree file).2, [⟨file, .answered (cache.packagesFor tree file).1⟩]⟩ := by
  refine ⟨fun _ _ => Manifest.nearest_eq_iff, fun events file => ?_, fun files schedule => ?_,
    Crew.run_alone tree⟩
  · have hafter := Session.after_run root tree events
    have hanswer := (hafter.lookup file).1
    refine ⟨hanswer, hafter.records.size_eq, fun hlookups => ?_⟩
    rw [hanswer, treeSearched_of_lookups fun location bytes hmem => ?_]
    exact hlookups location bytes (by simpa using hmem)
  · exact ⟨fun k file packages => Crew.answered_run tree schedule,
      fun k file => Crew.exists_answered_run tree schedule, Crew.size_run tree schedule⟩

end WithReaders

/-- A project with one manifest, at its root. -/
def outerTree : FileTree where
  entries := [(["p", "package.json"], .file "\x7b\"dependencies\":\x7b\"x\":1\x7d\x7d".toUTF8),
    (["p", "a", "b.ts"], .file "import'x'\n".toUTF8)]
  cwd := []

/-- A manifest that is written into a directory after a lookup there is found by a search, but the
cache goes on to answer with the outer one. -/
theorem answer_stays_after_write :
    let inner := "\x7b\"devDependencies\":\x7b\"y\":1\x7d\x7d".toUTF8
    ((Session.start (Path.ofText "/p") outerTree).run [.lookup (Path.ofText "/p/a/b.ts"),
        .write ["p", "a", "package.json"] inner]).answer (Path.ofText "/p/a/c.ts") = ["x"] ∧
      Manifest.nearest (outerTree.write ["p", "a", "package.json"] inner) (Path.ofText "/p")
        (Path.ofText "/p/a") = ["y"] := by
  intro inner
  obtain ⟨-, hsession, -⟩ := cache_agrees_with_search (Path.ofText "/p") outerTree
  constructor
  · rw [(hsession _ _).1]
    decide +kernel
  · decide +kernel

end ImportOrder.ManifestCache
