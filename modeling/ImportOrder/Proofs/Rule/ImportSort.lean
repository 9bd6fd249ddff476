import ImportOrder.Proofs.Order.ModulePath
import ImportOrder.Proofs.Order.Runs
import ImportOrder.Proofs.Relocation
import ImportOrder.Rule.ImportSort
import Mathlib.Algebra.Order.BigOperators.Group.List
import Mathlib.Algebra.Order.Group.Nat
import Mathlib.Algebra.Ring.Nat

/-!
# Runs of statements are sorted by path

Every report of the rule on the order of module paths moves the first statement of a run that is out
of place to its place. The stable sort of each run stays what it is, and the part of the run that
agrees with it grows, so that passes end, with every run in the order of its paths.

## Main definitions

- `Passage.pathLE`: the order of passages by their module paths
- `Source.runs`: the maximal runs of passages of one category
- `Source.unsettledRuns`: the number of moves that the sort of the runs may still take
- `ImportSort.Misplacement`: the first statement that is not in its place

## Main statements

- `ImportSort.exists_check`: the reports of the rule and what their fixes do
- `ImportSort.passes_sort_runs`: passes end with the stable sort of every run
-/

namespace ImportOrder

namespace Passage

/-- Does the statement name a module? -/
def isNamed (x : Passage) : Bool := x.path?.isSome

/-- Passages in the order of their module paths. -/
def pathLE (packages : Packages) (x y : Passage) : Bool :=
  ModulePath.compare packages (x.path?.getD "") (y.path?.getD "") != .gt

/-- A passage of the same category that comes behind another, if it names a module. -/
structure SortsBehind (packages : Packages) (y x : Passage) : Prop where
  /-- Both are of one category. -/
  category_eq : y.category = x.category
  /-- The path of the first comes behind that of the second. -/
  not_le : y.isNamed → pathLE packages y x = false

end Passage

namespace Source

variable {packages : Packages} {s t : Source}

/-- The maximal runs of passages of one category. -/
def runs (source : Source) : List (List Passage) := runsBy Passage.category source.passages

/-- The passages of each run that name a module, in the order of their paths. -/
def sortedRuns (packages : Packages) (source : Source) : List (List Passage) :=
  source.runs.map fun run => (run.filter Passage.isNamed).mergeSort (Passage.pathLE packages)

/-- The number of moves that the sort of the runs may still take. -/
def unsettledRuns (packages : Packages) (source : Source) : Nat :=
  (source.runs.map fun run => unsettled (Passage.pathLE packages) (run.filter Passage.isNamed)).sum

theorem pathLE_trans (x y z : Passage) (hxy : x.pathLE packages y) (hyz : y.pathLE packages z) :
    x.pathLE packages z :=
  ModulePath.le_trans _ _ _ hxy hyz

theorem pathLE_total (x y : Passage) : x.pathLE packages y || y.pathLE packages x :=
  ModulePath.le_total _ _

/-- The moves that one run and all others may still take. -/
theorem unsettledRuns_eq {source : Source} {pre post : List (List Passage)} {run : List Passage}
    (h : source.runs = pre ++ run :: post) :
    source.unsettledRuns packages =
      unsettled (Passage.pathLE packages) (run.filter Passage.isNamed) +
        ((pre ++ post).map fun run =>
          unsettled (Passage.pathLE packages) (run.filter Passage.isNamed)).sum := by
  rw [unsettledRuns, h, List.map_append, List.map_cons, List.sum_append, List.sum_cons,
    List.map_append, List.sum_append]
  omega

/-- The sort of a run takes fewer moves than it has statements that name a module. -/
theorem unsettledRuns_le (packages : Packages) (source : Source) :
    source.unsettledRuns packages ≤
      (source.runs.map fun run => (run.filter Passage.isNamed).length - 1).sum := by
  apply List.sum_le_sum
  intro run _
  rw [unsettled]
  omega

/-- A move inside a run, seen from the statements of the run that name a module. -/
theorem Step.exists_run (h : Step (Moves (Passage.SortsBehind packages)) s t) :
    ∃ pre M M' post, s.runs = pre ++ M :: post ∧ t.runs = pre ++ M' :: post ∧
      (M.filter Passage.isNamed = M'.filter Passage.isNamed ∨
        Hoist (fun y x => y.pathLE packages x = false) (M.filter Passage.isNamed)
          (M'.filter Passage.isNamed)) := by
  obtain ⟨pre, M, M', post, hs, ht, hmove⟩ := h.hoist.exists_run Passage.category
    fun x y hyx => hyx.category_eq
  refine ⟨pre, M, M', post, hs, ht, ?_⟩
  rcases hmove.filter Passage.isNamed with heq | hmove
  · exact .inl heq
  · refine .inr (hmove.imp fun x y hyx => ?_)
    exact hyx.1.not_le hyx.2.1

theorem Step.sortedRuns_eq (h : Step (Moves (Passage.SortsBehind packages)) s t) :
    t.sortedRuns packages = s.sortedRuns packages := by
  obtain ⟨pre, M, M', post, hs, ht, heq | hmove⟩ := h.exists_run
  · simp [sortedRuns, hs, ht, heq]
  · simp [sortedRuns, hs, ht, hmove.mergeSort_eq pathLE_trans pathLE_total fun _ _ h => h]

/-- A move inside a run takes no run further from its sort. -/
theorem Step.unsettledRuns_le (h : Step (Moves (Passage.SortsBehind packages)) s t) :
    t.unsettledRuns packages ≤ s.unsettledRuns packages := by
  obtain ⟨pre, M, M', post, hs, ht, heq | hmove⟩ := h.exists_run
  · simp [unsettledRuns, hs, ht, heq]
  · have := unsettled_le_of_hoist pathLE_trans pathLE_total hmove fun _ _ h => h
    rw [unsettledRuns_eq hs, unsettledRuns_eq ht]
    omega

section Steps

variable (h : Relation.ReflTransGen (Step (Moves (Passage.SortsBehind packages))) s t)

include h

theorem sortedRuns_eq_of_steps : t.sortedRuns packages = s.sortedRuns packages := by
  induction h with
  | refl => rfl
  | tail _ hstep ih => rw [hstep.sortedRuns_eq, ih]

theorem unsettledRuns_le_of_steps : t.unsettledRuns packages ≤ s.unsettledRuns packages := by
  induction h with
  | refl => exact Nat.le_refl _
  | tail _ hstep ih => exact hstep.unsettledRuns_le.trans ih

/-- Moves inside runs do not change the sequence of categories. -/
theorem categories_eq_of_steps :
    t.passages.map Passage.category = s.passages.map Passage.category := by
  induction h with
  | refl => rfl
  | tail _ hstep ih => rw [← hstep.hoist.map_eq fun x y hyx => hyx.category_eq, ih]

end Steps

end Source

namespace ImportSort

variable {source : Source} {packages : Packages}

/-- The category of a statement of a source. -/
def categoryOf (source : Source) (s : Statement) : Category := (source.passage s).category

/-- Does a statement name a module? -/
def namesModule (s : Statement) : Bool := s.path?.isSome

/-- Statements in the order of their module paths. -/
def statementLE (packages : Packages) (s t : Statement) : Bool :=
  ModulePath.compare packages (s.path?.getD "") (t.path?.getD "") != .gt

theorem statementLE_trans (s t u : Statement) (hst : statementLE packages s t)
    (htu : statementLE packages t u) : statementLE packages s u :=
  ModulePath.le_trans _ _ _ hst htu

theorem statementLE_total (s t : Statement) :
    statementLE packages s t || statementLE packages t s :=
  ModulePath.le_total _ _

/-- The entry of a statement that names a module. -/
def entryOf (s : Statement) : String × Span := (s.path?.getD "", s.span)

/-- The entries of a run are those of its statements that name a module. -/
theorem entries_eq (source : Source) (run : List Statement) :
    entries (run.map fun s => (categoryOf source s, s)) =
      (run.filter namesModule).map entryOf := by
  simp only [entries, List.filterMap_map, Function.comp_def]
  induction run with
  | nil => rfl
  | cons s run ih =>
    rw [List.filterMap_cons, ih, List.filter_cons, namesModule]
    cases hpath : s.path? <;> simp [entryOf, hpath]

/-- The first place where the statements differ from the sorted ones. -/
theorem misplaced?_eq (packages : Packages) (named : List Statement) :
    misplaced? packages (named.map entryOf) =
      ((named.zip (named.mergeSort (statementLE packages))).find? fun p =>
        p.1.span ≠ p.2.span).map fun p => (p.1.span, p.2.span) := by
  have hsorted : sorted packages (named.map entryOf) =
      (named.mergeSort (statementLE packages)).map entryOf := by
    rw [sorted, List.map_mergeSort]
    exact fun _ _ _ _ => rfl
  rw [misplaced?, hsorted, List.zip_map, List.find?_map, Option.map_map]
  rfl

theorem passages_filter_eq (source : Source) (run : List Statement) :
    (run.map source.passage).filter Passage.isNamed =
      (run.filter namesModule).map source.passage := by
  rw [List.filter_map]
  rfl

theorem passages_mergeSort_eq (packages : Packages) (source : Source) (named : List Statement) :
    (named.map source.passage).mergeSort (Passage.pathLE packages) =
      (named.mergeSort (statementLE packages)).map source.passage := by
  rw [List.map_mergeSort]
  exact fun _ _ _ _ => rfl

theorem exists_of_filter_eq {α : Type} {p : α → Bool} {l P Y Z : List α} {a b : α}
    (h : l.filter p = P ++ (a :: Y) ++ [b] ++ Z) :
    ∃ U V W, l = U ++ (a :: V) ++ [b] ++ W ∧ U.filter p = P ∧ V.filter p = Y ∧ W.filter p = Z := by
  simp only [List.append_assoc, List.cons_append, List.nil_append] at h
  obtain ⟨l₁, l₂, rfl, h₁, h₂⟩ := List.filter_eq_append_iff.1 h
  obtain ⟨l₃, l₄, rfl, h₃, -, h₄⟩ := List.filter_eq_cons_iff.1 h₂
  obtain ⟨l₅, l₆, rfl, h₅, h₆⟩ := List.filter_eq_append_iff.1 h₄
  obtain ⟨l₇, l₈, rfl, h₇, -, h₈⟩ := List.filter_eq_cons_iff.1 h₆
  have hnone : ∀ {l : List α}, (∀ x ∈ l, ¬ p x = true) → l.filter p = [] := fun h =>
    List.filter_eq_nil_iff.2 h
  refine ⟨l₁ ++ l₃, l₅ ++ l₇, l₈, by simp, ?_, ?_, h₈⟩
  · rw [List.filter_append, h₁, hnone h₃, List.append_nil]
  · rw [List.filter_append, h₅, hnone h₇, List.append_nil]

theorem nodup_spans (h : source.WellFormed) : source.spans.Nodup := by
  refine h.spans_ordered.imp_of_mem fun {x y} hx _ hle heq => ?_
  have := (h.bounds_span hx).1
  rw [← heq] at hle
  omega

/-- The first place where statements that name modules differ from their stable sort: the statement
`least` belongs where `first` stands. It is the first of those with the least path from there on. -/
structure Misplacement (packages : Packages) (named : List Statement) where
  /-- The part at the front that agrees with the sort. -/
  settled : List Statement
  /-- The statement right behind that part. -/
  first : Statement
  /-- The statements up to the misplaced one. -/
  passed : List Statement
  /-- The misplaced statement. -/
  least : Statement
  /-- The statements behind it. -/
  rest : List Statement
  /-- The sort behind the misplaced statement. -/
  tail : List Statement
  named_eq : named = settled ++ (first :: passed) ++ [least] ++ rest
  sorts : StableOrdering (statementLE packages) named (settled ++ least :: tail)
  larger : ∀ s ∈ first :: passed, statementLE packages s least = false
  least_le : ∀ s ∈ rest, statementLE packages least s = true

/-- Statements at different places are in the order of their sort, or one of them is misplaced. -/
theorem exists_misplacement (packages : Packages) {named : List Statement}
    (hnodup : (named.map Statement.span).Nodup) :
    misplaced? packages (named.map entryOf) = none ∧
      named.mergeSort (statementLE packages) = named ∨
    ∃ m : Misplacement packages named,
      misplaced? packages (named.map entryOf) = some (m.first.span, m.least.span) := by
  -- a difference of places is a difference of statements
  have hdiffer : ∀ x ∈ named, ∀ y ∈ named.mergeSort (statementLE packages),
      decide (x.span ≠ y.span) = false → x = y := fun x hx y hy heq =>
    List.inj_on_of_nodup_map hnodup hx (List.mem_mergeSort.1 hy) (by simpa using heq)
  rw [misplaced?_eq]
  cases hfind : (named.zip (named.mergeSort (statementLE packages))).find? fun p =>
      p.1.span ≠ p.2.span with
  | none =>
    exact .inl ⟨rfl, (find?_zip_eq_none (List.length_mergeSort _).symm hdiffer hfind).symm⟩
  | some pair =>
    obtain ⟨a, b⟩ := pair
    obtain ⟨hab, P, E, S, hE, hS⟩ := find?_zip_eq_some hdiffer hfind
    have hab' : a ≠ b := by
      rintro rfl
      simp at hab
    obtain ⟨Y, Z, hmisplaced, hlarger, hleast⟩ := exists_misplaced statementLE_trans
      statementLE_total (List.Nodup.of_map _ hnodup) hE hS hab'
    have hsorts := (stableOrdering_iff statementLE_trans statementLE_total).2 hS.symm
    exact .inr ⟨⟨P, a, Y, b, Z, S, hmisplaced, hsorts, hlarger, hleast⟩, rfl⟩

/-- What a report of the rule does: it moves a statement in front of others that sort behind it, and
the sort of the runs takes fewer moves afterwards. -/
def Settles (source : Source) (packages : Packages) (front old new back : Source) : Prop :=
  Source.Moves (Passage.SortsBehind packages) old new ∧
    (front ++ new ++ back).unsettledRuns packages < source.unsettledRuns packages

section Run

variable {pre post : List (List Statement)} {run U V W P Y Z S : List Statement} {a b : Statement}

/-- The move of a statement of a run to the place where the run first differs from its sort. -/
theorem exists_settling_relocation (packages : Packages) (h : source.WellFormed)
    (hruns : runsBy (categoryOf source) source.statements = pre ++ run :: post)
    (hrun : run = U ++ (a :: V) ++ [b] ++ W) (hP : U.filter namesModule = P)
    (hY : (a :: V).filter namesModule = Y) (hZ : W.filter namesModule = Z)
    (hb : namesModule b = true) (hne : Y ≠ []) (hlarger : ∀ y ∈ Y, statementLE packages y b = false)
    (hsort : (run.filter namesModule).mergeSort (statementLE packages) = P ++ b :: S) :
    ∃ fix, Fix.relocate source.text (source.rangeOf b.span).full
        (source.rangeOf a.span).full.start = .ok fix ∧ a.span.stop ≤ b.span.start ∧
      ∃ front old new back, fix.Changes source front old new back ∧
        Settles source packages front old new back := by
  have hstatements : source.statements =
      (pre.flatten ++ U) ++ (a :: V) ++ [b] ++ (W ++ post.flatten) := by
    rw [← flatten_runsBy (categoryOf source) source.statements, hruns, hrun]
    simp
  have hspan : ∀ x ∈ (pre.flatten ++ U) ++ (a :: V) ++ [b] ++ (W ++ post.flatten),
      x.span ∈ source.spans := fun x hx => List.mem_map_of_mem (hstatements ▸ hx)
  have ha := h.attached (hspan a (by simp))
  have hroom := h.bounds_span (hspan a (by simp))
  have hordered := h.spans_ordered
  rw [Source.spans, List.pairwise_map, hstatements] at hordered
  simp only [List.pairwise_append, List.pairwise_cons] at hordered
  obtain ⟨fix, front, o, c, back, hfix, hchanges, ho, hc, hfp, hop, hcp, hbp, -⟩ :=
    h.exists_relocation hstatements (by simp) ha.clear_start
      (fun x hx => ha.stop_le_start _
        (hspan x (by simp only [List.mem_append] at hx ⊢; tauto))
        (hordered.1.1.2.2 x (by simpa using hx) a List.mem_cons_self))
      (fun x hx => by
        have := ha.start_le
        rcases List.mem_cons.1 hx with rfl | hx
        · exact this
        · have := hordered.1.1.2.1.1 x hx
          omega)
  refine ⟨fix, hfix, hordered.1.2.2 a (by simp) b (by simp), front, o ++ c, c ++ o, back, hchanges,
    ?_, ?_⟩
  · -- all statements of the run are of one category
    have hmem : run ∈ runsBy (categoryOf source) source.statements := by simp [hruns]
    refine .move ho hc hcp (by rw [hop]; simp) fun y hy => ?_
    rw [hop] at hy
    obtain ⟨s, hs, rfl⟩ := List.mem_map.1 hy
    refine ⟨key_eq_of_mem_runsBy hmem (by rw [hrun]; simp only [List.mem_append]; tauto)
      (by rw [hrun]; simp), fun hnamed => ?_⟩
    exact hlarger s (hY ▸ List.mem_filter.2 ⟨hs, hnamed⟩)
  · have hbefore : source.runs =
        pre.map (·.map source.passage) ++ run.map source.passage ::
          post.map (·.map source.passage) := by
      rw [Source.runs, Source.passages, runsBy_map]
      change (runsBy (categoryOf source) source.statements).map _ = _
      rw [hruns, List.map_append, List.map_cons]
    have hpassages : (front ++ (c ++ o) ++ back).passages =
        (pre.map (·.map source.passage)).flatten ++
          (U ++ [b] ++ (a :: V) ++ W).map source.passage ++
          (post.map (·.map source.passage)).flatten := by
      rw [Source.passages_append (hchanges.front_wellFormed.append (hc.append ho)),
        Source.passages_append hchanges.front_wellFormed, Source.passages_append hc, hfp, hop, hcp,
        hbp, ← List.map_flatten, ← List.map_flatten]
      simp
    have hperm : ((U ++ [b] ++ (a :: V) ++ W).map source.passage).Perm
        (run.map source.passage) := by
      rw [hrun]
      exact (@Hoist.hoist _ (fun _ _ => True) U (a :: V) W b fun _ _ => trivial).perm.symm.map _
    have hafter := runsBy_rearrange Passage.category hbefore hperm
    rw [← hpassages] at hafter
    change (front ++ (c ++ o) ++ back).runs = _ at hafter
    -- only the run of the moved statement changes
    rw [Source.unsettledRuns_eq hbefore, Source.unsettledRuns_eq hafter]
    refine Nat.add_lt_add_right ?_ _
    have hold : run.filter namesModule = P ++ Y ++ [b] ++ Z := by
      rw [hrun, List.filter_append, List.filter_append, List.filter_append, hP, hY, hZ,
        List.filter_cons_of_pos hb, List.filter_nil]
    have hnew : (U ++ [b] ++ (a :: V) ++ W).filter namesModule = P ++ [b] ++ Y ++ Z := by
      rw [List.filter_append, List.filter_append, List.filter_append, hP, hY, hZ,
        List.filter_cons_of_pos hb, List.filter_nil]
    have hsort' := passages_mergeSort_eq packages source (run.filter namesModule)
    rw [hsort, hold] at hsort'
    rw [passages_filter_eq, passages_filter_eq, hold, hnew]
    simp only [List.map_append, List.map_cons, List.map_nil] at hsort' ⊢
    refine unsettled_lt_of_hoist Source.pathLE_trans Source.pathLE_total (by simpa using hne)
      (fun y hy => ?_) hsort'
    obtain ⟨s, hs, rfl⟩ := List.mem_map.1 hy
    exact hlarger s hs

/-- The report about a run, which is settled if there is none. -/
theorem exists_checkRun (h : source.WellFormed) (packages : Packages)
    (hruns : runsBy (categoryOf source) source.statements = pre ++ run :: post) :
    ∃ ds, checkRun source packages (entries (run.map fun s => (categoryOf source s, s))) = .ok ds ∧
      (∀ d ∈ ds, d.Mends source (Settles source packages) ∧ d.Relocates source) ∧
      (ds = [] → (run.filter namesModule).mergeSort (statementLE packages) =
        run.filter namesModule) := by
  have hrun : ∀ x ∈ run, x ∈ source.statements := fun x hx => by
    rw [← flatten_runsBy (categoryOf source) source.statements, hruns]
    simp only [List.flatten_append, List.flatten_cons, List.mem_append]
    exact .inr (.inl hx)
  have hspan : ∀ x ∈ run, x.span ∈ source.spans := fun x hx => List.mem_map_of_mem (hrun x hx)
  have hnodup : ((run.filter namesModule).map Statement.span).Nodup := by
    have hsub : run.Sublist source.statements := by
      rw [← flatten_runsBy (categoryOf source) source.statements, hruns, List.flatten_append,
        List.flatten_cons]
      exact (List.sublist_append_left run _).trans (List.sublist_append_right _ _)
    exact (nodup_spans h).sublist ((List.filter_sublist.trans hsub).map _)
  rw [checkRun, entries_eq]
  obtain ⟨hnone, hsorted⟩ | ⟨m, hsome⟩ := exists_misplacement packages hnodup
  · rw [hnone]
    exact ⟨[], rfl, by simp, fun _ => hsorted⟩
  · rw [hsome]
    obtain ⟨P, a, Y, b, Z, S, hmisplaced, hsorts, hlarger, -⟩ := m
    obtain ⟨U, V, W, rfl, hU, hV, hW⟩ := exists_of_filter_eq hmisplaced
    have ha : namesModule a = true :=
      (List.mem_filter.1 (by rw [hmisplaced]; simp : a ∈ List.filter namesModule _)).2
    have hb : namesModule b = true :=
      (List.mem_filter.1 (by rw [hmisplaced]; simp : b ∈ List.filter namesModule _)).2
    obtain ⟨fix, hfix, hle, hsettles⟩ := exists_settling_relocation packages h hruns rfl hU
      (by rw [List.filter_cons_of_pos ha, hV]) hW hb (by simp) hlarger
      ((stableOrdering_iff statementLE_trans statementLE_total).1 hsorts).symm
    refine ⟨[Diagnostic.make source name wrongOrder wrongOrderMessage (source.rangeOf b.span).full
      (some fix)], ?_, fun d hd => ?_, by simp⟩
    · simp only [h.attachedRange_eq (hspan b (by simp)), h.attachedRange_eq (hspan a (by simp)),
        hfix, bind, Except.bind]
      rfl
    · rw [List.mem_singleton.1 hd]
      have ha' := hspan a (by simp)
      exact ⟨⟨fix, rfl, hsettles⟩, fix, rfl, b.span, hspan b (by simp), a.span, ha', _,
        h.between_full_start ha', (h.attached ha').start_le, hle, hfix⟩

end Run

/-- The rule checks the runs of statements of one category, one after the other. -/
theorem check_eq_mapM (hclassify : ∀ s ∈ source.statements,
      source.classify s = .ok (categoryOf source s)) (packages : Packages) :
    rule.check source packages =
      List.flatten <$> (runsBy (categoryOf source) source.statements).mapM fun run =>
        checkRun source packages (entries (run.map fun s => (categoryOf source s, s))) := by
  have hpaired : source.statements.mapM (fun s => (·, s) <$> source.classify s) =
      .ok (source.statements.map fun s => (categoryOf source s, s)) :=
    Checked.mapM_eq_ok fun s hs => by rw [hclassify s hs]; rfl
  have hruns : runs (source.statements.map fun s => (categoryOf source s, s)) =
      (runsBy (categoryOf source) source.statements).map
        (·.map fun s => (categoryOf source s, s)) :=
    runsBy_map Prod.fst _ source.statements
  simp only [rule, hpaired, hruns, Checked.ok_bind, List.mapM_map]
  rfl

/-- The reports of the rule: each moves a statement to its place in a run, and there is none only if
every run is in order. -/
theorem exists_check (h : source.WellFormed) (packages : Packages) :
    ∃ ds, rule.check source packages = .ok ds ∧
      (∀ d ∈ ds, d.Mends source (Settles source packages) ∧ d.Relocates source) ∧
      (ds = [] → source.runs.map (·.filter Passage.isNamed) = source.sortedRuns packages) := by
  have hrun : ∀ run ∈ runsBy (categoryOf source) source.statements, ∃ ds,
      checkRun source packages (entries (run.map fun s => (categoryOf source s, s))) = .ok ds ∧
      (∀ d ∈ ds, d.Mends source (Settles source packages) ∧ d.Relocates source) ∧
      (ds = [] → (run.filter namesModule).mergeSort (statementLE packages) =
        run.filter namesModule) := by
    intro run hrun
    obtain ⟨pre, post, hruns⟩ := List.append_of_mem hrun
    exact exists_checkRun h packages hruns
  choose! reports hreports hmends hsettled using hrun
  refine ⟨((runsBy (categoryOf source) source.statements).map reports).flatten, ?_, ?_, ?_⟩
  · rw [check_eq_mapM (fun s hs => h.classify_eq hs) packages, Checked.mapM_eq_ok hreports]
    rfl
  · intro d hd
    obtain ⟨ds, hds, hd⟩ := List.mem_flatten.1 hd
    obtain ⟨run, hrun, rfl⟩ := List.mem_map.1 hds
    exact hmends run hrun d hd
  · intro hnil
    rw [Source.sortedRuns, Source.runs, Source.passages, runsBy_map, List.map_map, List.map_map]
    apply List.map_congr_left
    intro run hrun
    have hempty : reports run = [] := by
      rw [List.flatten_eq_nil_iff] at hnil
      exact hnil _ (List.mem_map_of_mem hrun)
    rw [Function.comp_apply, Function.comp_apply, passages_filter_eq, passages_mergeSort_eq,
      hsettled run hrun hempty]

theorem exists_pass (h : source.WellFormed) (packages : Packages) :
    ∃ ds, rule.check source packages = .ok ds ∧
      rule.pass packages source = .ok (source.after ds) ∧ (source.after ds).WellFormed ∧
      Relation.ReflTransGen (Source.Step (Source.Moves (Passage.SortsBehind packages))) source
        (source.after ds) ∧
      (ds ≠ [] → (source.after ds).unsettledRuns packages < source.unsettledRuns packages) ∧
      (ds = [] → source.runs.map (·.filter Passage.isNamed) = source.sortedRuns packages) := by
  obtain ⟨ds, hcheck, hreports, hsettled⟩ := exists_check h packages
  have hmends := fun d hd => (hreports d hd).1
  have hchanges := Source.exists_changes hmends
  obtain ⟨outcome, happly, htext, hafter, hsteps, -⟩ :=
    h.exists_outcome (R := Source.Moves (Passage.SortsBehind packages)) fun fix hfix => by
      obtain ⟨front, old, new, back, hfixes, hmoves, -⟩ := hchanges fix hfix
      exact ⟨front, old, new, back, hfixes, hmoves⟩
  refine ⟨ds, hcheck, Rule.pass_eq hcheck happly htext, hafter, hsteps, fun hne => ?_, hsettled⟩
  obtain ⟨-, fix, front, old, new, back, back', hfixes, ⟨-, hlt⟩, hback', hbehind, heq⟩ :=
    Source.exists_first_change (R := Source.Moves (Passage.SortsBehind packages))
      (fun hsettles => hsettles.1) hchanges (Source.filterMap_fix_ne_nil hmends hne)
  -- the first fix takes its run closer to its sort, and the others take no run further from it
  have hothers := Source.unsettledRuns_le_of_steps (Source.reflTransGen_append_left
    (hfixes.front_wellFormed.append hfixes.new_wellFormed) hbehind)
  rw [heq]
  omega

/-- Passes always succeed and keep the sequence of categories. -/
theorem exists_passes_categories (h : source.WellFormed) (packages : Packages) (n : Nat) :
    ∃ next, rule.passes packages n source = .ok next ∧
      next.passages.map Passage.category = source.passages.map Passage.category := by
  induction n generalizing source with
  | zero => exact ⟨source, rfl, rfl⟩
  | succ n ih =>
    obtain ⟨ds, -, hpass, hafter, hsteps, -⟩ := exists_pass h packages
    obtain ⟨next, hnext, hcategories⟩ := ih hafter
    refine ⟨next, ?_, ?_⟩
    · rw [Rule.passes, hpass]
      exact hnext
    · rw [hcategories, Source.categories_eq_of_steps hsteps]

/-- Over a well-formed source, passes of the rule never change the sequence of categories, and they
end without a report after at most as many passes as the runs have statements that name a module,
less one for each run that has any; then those statements stand in each run in the stable sort of
their original order by module path. -/
theorem passes_sort_runs {source : Source} (h : source.WellFormed) (packages : Packages) :
    (∀ n, ∃ next, rule.passes packages n source = .ok next ∧
      next.passages.map Passage.category = source.passages.map Passage.category) ∧
    ∃ n final, n ≤ (source.runs.map fun run => (run.filter Passage.isNamed).length - 1).sum ∧
      rule.passes packages n source = .ok final ∧ rule.check final packages = .ok [] ∧
      final.runs.map (·.filter Passage.isNamed) = source.runs.map fun run =>
        (run.filter Passage.isNamed).mergeSort (Passage.pathLE packages) := by
  refine ⟨exists_passes_categories h packages, ?_⟩
  -- what the runs are sorted to is the same before and after a pass
  have hend := Rule.exists_passes rule packages
    (fun s => s.WellFormed ∧ s.sortedRuns packages = source.sortedRuns packages)
    (Source.unsettledRuns packages) ?_ ⟨h, rfl⟩
  · obtain ⟨n, final, hn, hpasses, ⟨hfinal, hsort⟩, hcheck⟩ := hend
    obtain ⟨ds, hcheck', -, -, -, -, hsettled⟩ := exists_pass hfinal packages
    obtain rfl : ds = [] := Except.ok.inj (hcheck'.symm.trans hcheck)
    exact ⟨n, final, hn.trans (Source.unsettledRuns_le packages source), hpasses, hcheck,
      (hsettled rfl).trans hsort⟩
  · rintro s ⟨hs, hsort⟩
    obtain ⟨ds, hcheck, hpass, hnext, hsteps, hlower, -⟩ := exists_pass hs packages
    refine ⟨ds, hcheck, fun hne => ⟨_, hpass, ⟨hnext, ?_⟩, hlower hne⟩⟩
    rw [Source.sortedRuns_eq_of_steps hsteps, hsort]

/-- Three imports out of order, the first with a comment behind it, and a plain statement. -/
def shuffled : Source where
  text := "import 'c'; // z\nimport 'b';\nimport 'a';\n1;\n".toList
  statements := [⟨.importDecl, 0, false, some "c", ⟨0, 11⟩⟩,
    ⟨.importDecl, 0, false, some "b", ⟨17, 28⟩⟩, ⟨.importDecl, 0, false, some "a", ⟨29, 40⟩⟩,
    .plain ⟨41, 43⟩]
  comments := [⟨12, 16⟩]

/-- The imports are in order after at most two passes. -/
theorem passes_sort_shuffled : shuffled.WellFormed ∧
    ∃ n final, n ≤ 2 ∧ rule.passes [] n shuffled = .ok final ∧ rule.check final [] = .ok [] ∧
      final.runs.map (·.filter Passage.isNamed) = shuffled.runs.map fun run =>
        (run.filter Passage.isNamed).mergeSort (Passage.pathLE []) := by
  have h : shuffled.WellFormed := by decide
  obtain ⟨n, final, hn, hrest⟩ := (passes_sort_runs h []).2
  have htwo : (shuffled.runs.map fun run => (run.filter Passage.isNamed).length - 1).sum = 2 := by
    decide
  exact ⟨h, n, final, hn.trans_eq htwo, hrest⟩

/-- An import of a module for its effects. -/
def importOf (path : String) (span : Span) : Statement := ⟨.importDecl, 0, false, some path, span⟩

/-- Imports out of order, the last of which is said to start with a byte order mark. -/
def markedRun : Source where
  text := "import 'c';import 'b';\uFEFFimport 'd';".toList
  statements := [importOf "c" ⟨0, 11⟩, importOf "b" ⟨11, 22⟩, importOf "d" ⟨22, 36⟩]
  comments := []

theorem misplaced?_markedRun :
    misplaced? [] (markedRun.statements.map entryOf) = some (⟨0, 11⟩, ⟨11, 22⟩) := by
  -- the second import moves over the first, and then all are in order
  have hmove : Hoist (fun s t => statementLE [] s t = false) markedRun.statements
      [importOf "b" ⟨11, 22⟩, importOf "c" ⟨0, 11⟩, importOf "d" ⟨22, 36⟩] :=
    .hoist [] [importOf "c" ⟨0, 11⟩] [importOf "d" ⟨22, 36⟩] (importOf "b" ⟨11, 22⟩)
      (by decide +kernel)
  rw [misplaced?_eq, hmove.mergeSort_eq statementLE_trans statementLE_total fun _ _ h => h,
    List.mergeSort_of_pairwise (by decide +kernel)]
  decide +kernel

/-- The move of the second import, which takes the byte order mark behind it along. -/
def markedFix : Fix := ⟨[Edit.remove ⟨11, 25⟩, Edit.insertAt 0 "import 'b';\uFEFF".toList]⟩

theorem check_markedRun : rule.check markedRun [] =
    .ok [Diagnostic.make markedRun name wrongOrder wrongOrderMessage ⟨11, 25⟩ (some markedFix)] := by
  have hruns : runsBy (categoryOf markedRun) markedRun.statements = [markedRun.statements] := by
    decide +kernel
  have hentries : entries (markedRun.statements.map fun s => (categoryOf markedRun s, s)) =
      markedRun.statements.map entryOf := by
    decide +kernel
  rw [check_eq_mapM (by decide +kernel), hruns, List.mapM_cons, hentries, checkRun,
    misplaced?_markedRun]
  decide +kernel

/-- A pass may tear a statement that starts with a byte order mark, which is not white space: what
stands in front of it takes the mark along. -/
theorem pass_tears_marked_run :
    markedRun.Legible ∧ markedRun.comments = [] ∧ rule.Tears markedRun := by
  have hmerged : markedFix.merged markedRun.text =
      .ok (some ⟨⟨0, 25⟩, "import 'b';\uFEFFimport 'c';".toList⟩) := by
    rw [markedFix, Fix.merged, Fix.mergeSort_relocation (by decide)]
    decide +kernel
  have hedits : markedRun.text.applyEdits 0 none
      [⟨⟨0, 25⟩, "import 'b';\uFEFFimport 'c';".toList⟩] =
      .ok ⟨"import 'b';\uFEFFimport 'c';import 'd';".toList, 1, 0⟩ := by
    decide +kernel
  have hmem : (⟨importOf "d" ⟨0, 14⟩, "\uFEFFimport 'd';".toList⟩ : Passage) ∈
      markedRun.passages := by
    decide +kernel
  refine ⟨by decide +kernel, rfl, Rule.tears_of_absent check_markedRun
    ((Text.applyFixes_singleton rfl hmerged).trans hedits) hmem ?_⟩
  simp [List.infix_cons_iff, List.cons_prefix_cons]

end ImportSort

end ImportOrder
