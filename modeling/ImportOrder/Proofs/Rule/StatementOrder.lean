import ImportOrder.Proofs.Relocation
import ImportOrder.Rule.StatementOrder

/-!
# Statements are sorted by category

Every report of the rule on the order of statements moves one statement in front of statements that
are all of higher rank. A pass therefore leaves fewer pairs of statements in descending order and
keeps statements of one rank in order, so that passes end, with the stable sort of the statements.

## Main definitions

- `Passage.rankLE`: the order of passages by the rank of their categories
- `Source.descents`: the number of pairs of statements in descending order
- `StatementOrder.Refit`: how a fix moves a statement to a place where it fits

## Main statements

- `StatementOrder.exists_check`: the reports of the rule and what their fixes do
- `StatementOrder.passes_sort_statements`: passes end with the stable sort
-/

namespace ImportOrder

/-- Passages in the order of the ranks of their categories. -/
def Passage.rankLE (x y : Passage) : Bool := x.category.rank ≤ y.category.rank

/-- The number of pairs of statements that are in descending order of rank. -/
def Source.descents (source : Source) : Nat := inversions Passage.rankLE source.passages

/-- A passage outranks another if its category comes later. -/
def Passage.Outranks (y x : Passage) : Prop := x.category.rank < y.category.rank

namespace Source

variable {s t : Source}

theorem rankLE_trans (x y z : Passage) (hxy : x.rankLE y) (hyz : y.rankLE z) : x.rankLE z := by
  simp only [Passage.rankLE, decide_eq_true_eq] at *
  omega

theorem rankLE_total (x y : Passage) : x.rankLE y || y.rankLE x := by
  simp only [Passage.rankLE, Bool.or_eq_true, decide_eq_true_eq]
  omega

/-- A move of a statement in front of others that outrank it turns around descending pairs only. -/
theorem Step.descents_lt (h : Step (Moves Passage.Outranks) s t) : t.descents < s.descents := by
  obtain ⟨hfront, hold, hnew, hback, hb, hc, hx, hne, habove⟩ := h
  rw [descents, descents, passages_append (hfront.append hold), passages_append hfront,
    passages_append hb, passages_append (hfront.append hnew), passages_append hfront,
    passages_append hc, hx, ← List.append_assoc, ← List.append_assoc, inversions_hoist]
  · have := List.length_pos_iff.2 hne
    omega
  · intro y hy
    have := habove y hy
    simp only [Passage.Outranks] at this
    simp only [Passage.rankLE, decide_eq_false_iff_not, decide_eq_true_eq]
    omega

/-- Moves of statements in front of others that outrank them keep those of one rank in order. -/
theorem filter_rank_eq (h : Relation.ReflTransGen (Step (Moves Passage.Outranks)) s t) (n : Nat) :
    t.passages.filter (·.category.rank = n) = s.passages.filter (·.category.rank = n) := by
  induction h with
  | refl => rfl
  | tail _ hstep ih =>
    rw [← ih]
    refine (hstep.hoist.filter_eq fun x y hyx hx => ?_).symm
    simp only [Passage.Outranks] at hyx
    simp only [decide_eq_true_eq, decide_eq_false_iff_not] at hx ⊢
    omega

theorem mergeSort_rank_eq (h : Relation.ReflTransGen (Step (Moves Passage.Outranks)) s t) :
    t.passages.mergeSort Passage.rankLE = s.passages.mergeSort Passage.rankLE := by
  induction h with
  | refl => rfl
  | tail _ hstep ih =>
    rw [← ih]
    refine (hstep.hoist.mergeSort_eq rankLE_trans rankLE_total fun x y hyx => ?_).symm
    simpa [Passage.rankLE, Passage.Outranks] using hyx

theorem descents_le (h : Relation.ReflTransGen (Step (Moves Passage.Outranks)) s t) :
    t.descents ≤ s.descents := by
  induction h with
  | refl => exact Nat.le_refl _
  | tail _ hstep ih => exact hstep.descents_lt.le.trans ih

theorem hashbangOutside_of_steps {above : Passage → Passage → Prop}
    (h : Relation.ReflTransGen (Step (Moves above)) s t) (hs : s.HashbangOutside) :
    t.HashbangOutside := by
  induction h with
  | refl => exact hs
  | tail _ hstep ih => exact hstep.hashbangOutside ih

end Source

namespace Violation

/-- A statement commits a violation exactly if it is of lower rank than the one before it. -/
theorem between_eq_none_iff (last next : Category) :
    between last next = none ↔ last.rank ≤ next.rank := by
  cases last <;> cases next <;> decide

end Violation

namespace StatementOrder

variable {source : Source}

/-- The statements seen, latest first, as the rule keeps them. -/
def seenOf (source : Source) (done : List Statement) : List (Category × Span) :=
  done.reverse.map fun s => ((source.passage s).category, s.span)

theorem seenOf_append_singleton (source : Source) (done : List Statement) (s : Statement) :
    seenOf source (done ++ [s]) = ((source.passage s).category, s.span) :: seenOf source done := by
  simp [seenOf]

/-- The statements seen fall into those up to the insertion point, which is right behind the last of
them, one of no higher rank, and those behind it, which are all of higher rank. -/
theorem exists_insertionPoint (h : source.WellFormed) (hh : source.HashbangApart)
    {done rest : List Statement} (hst : source.statements = done ++ rest) (category : Category) :
    ∃ n L B, insertionPoint source (seenOf source done) category = .ok n ∧ done = L ++ B ∧
      source.Between n ∧ (∀ x ∈ L, x.span.stop ≤ n) ∧ (∀ x ∈ B, n ≤ x.span.start) ∧
      (∀ x ∈ B, category.rank < (source.passage x).category.rank) ∧
      (L = [] ∧ source.top = .ok n ∨ ∃ x, L.getLast? = some x ∧
        (source.passage x).category.rank ≤ category.rank ∧
        (source.rangeOf x.span).full.stop = n) := by
  have hspan : ∀ x ∈ done, x.span ∈ source.spans := fun x hx =>
    List.mem_map_of_mem (by rw [hst]; exact List.mem_append_left _ hx)
  unfold insertionPoint
  cases hfind : (seenOf source done).find? (·.1.rank ≤ category.rank) with
  | none =>
    obtain ⟨n, htop, hclear, hle⟩ := h.exists_top hh
    refine ⟨n, [], done, htop, rfl, ⟨hclear, fun s hs => .inr (hle s hs)⟩, by simp, fun x hx => ?_,
      fun x hx => ?_, .inl ⟨rfl, htop⟩⟩
    · exact (hle _ (hspan x hx)).trans (h.attached (hspan x hx)).start_le
    · have := List.find?_eq_none.1 hfind ((source.passage x).category, x.span)
        (by simp only [seenOf, List.mem_map, List.mem_reverse]; exact ⟨x, hx, rfl⟩)
      simpa using this
  | some found =>
    obtain ⟨hfound, later, earlier, heq, hlater⟩ := List.find?_eq_some_iff_append.1 hfind
    obtain ⟨B, l, hdone, rfl, hl⟩ := List.map_eq_append_iff.1 heq
    obtain ⟨t, L, rfl, rfl, -⟩ := List.map_eq_cons_iff.1 hl
    obtain rfl : done = L.reverse ++ [t] ++ B.reverse := by
      rw [← List.reverse_reverse done, hdone]
      simp
    have hordered := h.spans_ordered
    rw [Source.spans, List.pairwise_map, hst] at hordered
    simp only [List.pairwise_append, List.mem_append, List.mem_singleton, List.mem_reverse,
      forall_eq] at hordered
    have ht := h.attached (hspan t (by simp))
    have hstop := ht.le_stop.trans ht.bare_stop_le
    have hroom := h.bounds_span (hspan t (by simp))
    refine ⟨(source.rangeOf t.span).full.stop, L.reverse ++ [t], B.reverse, ?_, rfl,
      h.between_full_stop (hspan t (by simp)), fun x hx => ?_, fun x hx => ?_, fun x hx => ?_,
      .inr ⟨t, List.getLast?_concat, by simpa using hfound, rfl⟩⟩
    · simp only [h.attachedRange_eq (hspan t (by simp))]
      rfl
    · rcases List.mem_append.1 hx with hx | hx
      · have := hordered.1.1.2.2 x (List.mem_reverse.1 hx)
        omega
      · obtain rfl := List.mem_singleton.1 hx
        exact hstop
    · have hx' := hspan x (by simp only [List.mem_append]; exact .inr hx)
      exact ht.full_stop_le h (List.mem_append_left _ hx')
        (ht.stop_le _ hx' (hordered.1.2.2 t (.inr rfl) x (List.mem_reverse.1 hx)))
    · have := hlater _ (List.mem_map_of_mem (List.mem_reverse.1 hx))
      simpa using this

/-- What the reports of the rule do: each moves a statement in front of others that outrank it. -/
def Lifts (source : Source) (d : Diagnostic) : Prop :=
  (d.Mends source fun _ old new _ => Source.Moves Passage.Outranks old new) ∧ d.Relocates source

/-- How a fix moves the range of a statement to a place where it fits: over statements that outrank
it, right behind one that does not, or to the top. -/
structure Refit (source : Source) (s : Statement) (fix : Fix) where
  /-- What stays in front. -/
  front : Source
  /-- What the statement is moved over. -/
  passed : Source
  /-- The statement with its comments. -/
  moved : Source
  /-- What stays behind. -/
  back : Source
  /-- The fix cuts the range and pastes it behind the first piece. -/
  relocate_eq : Fix.relocate source.text (source.rangeOf s.span).full front.size = .ok fix
  /-- Its edits merge into the exchange of two pieces. -/
  changes : fix.Changes source front (passed ++ moved) (moved ++ passed) back
  passed_wellFormed : passed.WellFormed
  moved_wellFormed : moved.WellFormed
  /-- The moved piece is the range of the statement. -/
  range_eq : (source.rangeOf s.span).full =
    ⟨front.size + passed.size, front.size + passed.size + moved.size⟩
  moved_passages : moved.passages = [source.passage s]
  passed_ne_nil : passed.passages ≠ []
  outrank : ∀ y ∈ passed.passages, y.Outranks (source.passage s)
  between : source.Between front.size
  /-- The last statement in front, if there is one, may be followed by the moved one. -/
  landing : front.passages = [] ∧ source.top = .ok front.size ∨
    ∃ x ∈ source.statements, front.passages.getLast? = some (source.passage x) ∧
      (source.passage x).rankLE (source.passage s) ∧
      (source.rangeOf x.span).full.stop = front.size

theorem Refit.lifts {s : Statement} {fix : Fix} {d : Diagnostic} (refit : Refit source s fix)
    (h : source.WellFormed) (hs : s.span ∈ source.spans) (hd : d.fix = some fix) :
    Lifts source d := by
  obtain ⟨front, passed, moved, back, hfix, hchanges, hpassed, hmoved, hrange, hone, hne, houtrank,
    hbetween, -⟩ := refit
  refine ⟨⟨fix, hd, front, passed ++ moved, moved ++ passed, back, hchanges,
    .move hpassed hmoved hone hne houtrank⟩, fix, hd, s.span, hs, ?_⟩
  -- a statement of the passed piece stands between the insertion point and the range
  obtain ⟨t, ht⟩ : ∃ t, t ∈ passed.spans := by
    refine List.exists_mem_of_ne_nil _ fun hnil => hne ?_
    rw [Source.passages, List.map_eq_nil_iff.1 hnil, List.map_nil]
  have hbounds := hpassed.bounds_span ht
  have hstart := (h.attached hs).start_le
  rw [hrange] at hstart
  refine ⟨t.shift front.size, ?_, front.size, hbetween, Nat.le_add_right _ _, ?_, hfix⟩
  · rw [hchanges.eq, Source.append_assoc, Source.spans_append, Source.append_assoc,
      Source.spans_append]
    exact List.mem_append_right _ (List.mem_map_of_mem (List.mem_append_left _ ht))
  · simp only [Span.shift_stop] at hstart ⊢
    omega

/-- A statement of lower rank than the one before it is moved to a place where it fits. -/
theorem exists_report (h : source.WellFormed) (hh : source.HashbangApart)
    {done rest : List Statement} {s x : Statement} (hst : source.statements = done ++ s :: rest)
    (hlast : done.getLast? = some x)
    (hrank : (source.passage s).category.rank < (source.passage x).category.rank)
    (violation : Violation) :
    ∃ fix, report source (seenOf source done) (source.passage s).category s.span violation =
        .ok (Diagnostic.make source name violation.id violation.message
          (source.rangeOf s.span).full (some fix)) ∧ Nonempty (Refit source s fix) := by
  obtain ⟨n, L, B, hpoint, rfl, hbetween, hL, hB, hover, hlanding⟩ :=
    exists_insertionPoint h hh hst (source.passage s).category
  -- the statement before is one of those behind the insertion point
  have hne : B ≠ [] := by
    rintro rfl
    rw [List.append_nil] at hlast
    obtain ⟨rfl, -⟩ | ⟨y, hy, hle, -⟩ := hlanding
    · exact absurd hlast nofun
    · obtain rfl := Option.some.inj (hy.symm.trans hlast)
      omega
  have hst' : source.statements = L ++ B ++ [s] ++ rest := by simp [hst]
  obtain ⟨fix, a, b, c, d, hfix, hchanges, hb, hc, hap, hbp, hcp, -, rfl, hrange⟩ :=
    h.exists_relocation hst' hne hbetween.toClear hL hB
  have hs : s.span ∈ source.spans := List.mem_map_of_mem (by simp [hst])
  refine ⟨fix, ?_, ⟨a, b, c, d, hfix, hchanges, hb, hc, hrange, hcp, ?_, ?_, hbetween, ?_⟩⟩
  · simp only [report, h.attachedRange_eq hs, hpoint, hfix, bind, Except.bind]
    rfl
  · rw [hbp]
    simpa using hne
  · intro y hy
    rw [hbp] at hy
    obtain ⟨t, ht, rfl⟩ := List.mem_map.1 hy
    exact hover t ht
  · rw [hap, List.map_eq_nil_iff, List.getLast?_map]
    refine hlanding.imp_right ?_
    rintro ⟨y, hy, hle, hstop⟩
    refine ⟨y, ?_, by rw [hy]; rfl, decide_eq_true hle, hstop⟩
    rw [hst]
    exact List.mem_append_left _ (List.mem_append_left _ (List.mem_of_getLast? hy))

/-- The report about a statement moves it in front of statements that outrank it. -/
theorem exists_reportAfter (h : source.WellFormed) (hh : source.HashbangApart)
    {done rest : List Statement} {s : Statement} (hst : source.statements = done ++ s :: rest) :
    ∃ ds, reportAfter source (seenOf source done) (source.passage s).category s.span = .ok ds ∧
      (∀ d ∈ ds, Lifts source d) ∧
      (ds = [] ↔ ∀ x ∈ done.getLast?, (source.passage x).rankLE (source.passage s)) := by
  have hhead : (seenOf source done).head? =
      done.getLast?.map fun x => ((source.passage x).category, x.span) := by
    simp [seenOf]
  rw [reportAfter, hhead]
  cases hlast : done.getLast? with
  | none => exact ⟨[], rfl, by simp, by simp⟩
  | some x =>
    simp only [Option.map_some, Option.bind_some, Option.mem_some_iff, forall_eq']
    cases hviolation :
      Violation.between (source.passage x).category (source.passage s).category with
    | none =>
      refine ⟨[], rfl, by simp, ?_⟩
      simpa [Passage.rankLE] using (Violation.between_eq_none_iff _ _).1 hviolation
    | some violation =>
      have hrank : (source.passage s).category.rank < (source.passage x).category.rank := by
        apply Nat.lt_of_not_le
        intro hle
        rw [(Violation.between_eq_none_iff _ _).2 hle] at hviolation
        exact absurd hviolation nofun
      obtain ⟨fix, hreport, ⟨refit⟩⟩ := exists_report h hh hst hlast hrank violation
      refine ⟨_, by simp only [hreport]; rfl, fun d hd => ?_, ?_⟩
      · rw [List.mem_singleton.1 hd]
        exact refit.lifts h (List.mem_map_of_mem (by simp [hst])) rfl
      · simpa [Passage.rankLE] using hrank

theorem exists_checkFrom (h : source.WellFormed) (hh : source.HashbangApart)
    {done rest : List Statement} (hst : source.statements = done ++ rest) :
    ∃ ds, checkFrom source (seenOf source done) rest = .ok ds ∧
      (∀ d ∈ ds, Lifts source d) ∧
      (ds = [] ↔ (done.getLast?.toList ++ rest).IsChain fun s t =>
        (source.passage s).rankLE (source.passage t)) := by
  induction rest generalizing done with
  | nil =>
    refine ⟨[], rfl, by simp, ?_⟩
    cases done.getLast? <;> simp
  | cons s rest ih =>
    obtain ⟨here, hhere, hlifts, hnil⟩ := exists_reportAfter h hh hst
    obtain ⟨later, hlater, hlifts', hnil'⟩ := @ih (done ++ [s]) (by simp [hst])
    rw [seenOf_append_singleton] at hlater
    refine ⟨here ++ later, ?_, fun d hd => ?_, ?_⟩
    · rw [checkFrom, h.classify_eq (by simp [hst])]
      simp only [bind, Except.bind, hhere, hlater]
      rfl
    · rcases List.mem_append.1 hd with hd | hd
      · exact hlifts d hd
      · exact hlifts' d hd
    · rw [List.append_eq_nil_iff, hnil, hnil']
      cases done.getLast? <;> simp

/-- The reports of the rule: each moves a statement in front of others that outrank it, and there is
none exactly if the statements are in order. -/
theorem exists_check (h : source.WellFormed) (hh : source.HashbangApart) (packages : Packages) :
    ∃ ds, rule.check source packages = .ok ds ∧
      (∀ d ∈ ds, Lifts source d) ∧
      (ds = [] ↔ source.passages.Pairwise fun x y => x.rankLE y) := by
  have hst : source.statements = [] ++ source.statements := rfl
  obtain ⟨ds, hcheck, hlifts, hnil⟩ := exists_checkFrom h hh hst
  have htrans : IsTrans Statement fun s t => (source.passage s).rankLE (source.passage t) :=
    ⟨fun s t u hst htu => by simp only [Passage.rankLE, decide_eq_true_eq] at *; omega⟩
  refine ⟨ds, hcheck, hlifts, ?_⟩
  rw [hnil, Source.passages, List.pairwise_map]
  exact List.isChain_iff_pairwise

theorem exists_pass (h : source.WellFormed) (hh : source.HashbangApart) (packages : Packages) :
    ∃ ds outcome, rule.check source packages = .ok ds ∧
      source.text.applyFixes ds = .ok outcome ∧
      rule.pass packages source = .ok (source.after ds) ∧
      (∀ d ∈ ds, ∃ fix edit, d.fix = some fix ∧ fix.merged source.text = .ok (some edit)) ∧
      (ds = [] ↔ source.passages.Pairwise fun x y => x.rankLE y) ∧
      (source.after ds).WellFormed ∧
      Relation.ReflTransGen (Source.Step (Source.Moves Passage.Outranks)) source
        (source.after ds) ∧
      (ds ≠ [] → 0 < outcome.applied ∧ (source.after ds).descents < source.descents) := by
  obtain ⟨ds, hcheck, hlifts, hnil⟩ := exists_check h hh packages
  have hmends := fun d hd => (hlifts d hd).1
  have hchanges := Source.exists_changes hmends
  obtain ⟨outcome, happly, htext, hafter, hsteps, happlied⟩ := h.exists_outcome hchanges
  refine ⟨ds, outcome, hcheck, happly, Rule.pass_eq hcheck happly htext, fun d hd => ?_, hnil,
    hafter, hsteps, fun hne => ?_⟩
  · obtain ⟨fix, hfix, front, old, new, back, hfixes, -⟩ := hmends d hd
    exact ⟨fix, _, hfix, hfixes.merged⟩
  · obtain ⟨hmade, fix, front, old, new, back, back', hfixes, hmoves, hback', hbehind, heq⟩ :=
      Source.exists_first_change (R := Source.Moves Passage.Outranks) id hchanges
        (Source.filterMap_fix_ne_nil hmends hne)
    refine ⟨by rw [happlied]; exact List.length_pos_iff.2 hmade, ?_⟩
    -- the first fix turns around a descending pair, and the others turn around no other pairs
    have hfirst : (front ++ new ++ back).descents < source.descents := by
      rw [hfixes.eq]
      exact Source.Step.descents_lt (.exchange hfixes.front_wellFormed hfixes.old_wellFormed
        hfixes.new_wellFormed hfixes.back_wellFormed hmoves)
    have hothers := Source.descents_le (Source.reflTransGen_append_left
      (hfixes.front_wellFormed.append hfixes.new_wellFormed) hbehind)
    rw [heq]
    omega

/-- Over a well-formed source in which no statement starts with a `#!` comment, every report of the
rule carries a fix that merges; a pass makes a fix if there is a report, leaves fewer pairs of
statements in descending order and keeps statements of one rank in order; and passes end without a
report, with the stable sort of the statements by rank. -/
theorem passes_sort_statements {source : Source} (h : source.WellFormed)
    (hh : source.HashbangOutside) (packages : Packages) :
    (∃ ds outcome next, rule.check source packages = .ok ds ∧
      source.text.applyFixes ds = .ok outcome ∧ rule.pass packages source = .ok next ∧
      (∀ d ∈ ds, ∃ fix edit, d.fix = some fix ∧ fix.merged source.text = .ok (some edit)) ∧
      (ds ≠ [] → 0 < outcome.applied ∧ next.descents < source.descents) ∧
      ∀ rank, next.passages.filter (·.category.rank = rank) =
        source.passages.filter (·.category.rank = rank)) ∧
    ∃ n final, rule.passes packages n source = .ok final ∧ rule.check final packages = .ok [] ∧
      final.passages = source.passages.mergeSort Passage.rankLE := by
  refine ⟨?_, ?_⟩
  · obtain ⟨ds, outcome, hcheck, happly, hpass, hmerged, -, -, hsteps, hlower⟩ :=
      exists_pass h (h.hashbangApart hh) packages
    exact ⟨ds, outcome, _, hcheck, happly, hpass, hmerged, hlower, Source.filter_rank_eq hsteps⟩
  · -- the stable sort of the statements is the same before and after a pass
    have hend := Rule.exists_passes rule packages
      (fun s => s.WellFormed ∧ s.HashbangOutside ∧
        s.passages.mergeSort Passage.rankLE = source.passages.mergeSort Passage.rankLE)
      Source.descents ?_ ⟨h, hh, rfl⟩
    · obtain ⟨n, final, -, hpasses, ⟨hfinal, hhash, hsort⟩, hcheck⟩ := hend
      obtain ⟨ds, -, hcheck', -, -, -, hnil, -⟩ :=
        exists_pass hfinal (hfinal.hashbangApart hhash) packages
      obtain rfl : ds = [] := Except.ok.inj (hcheck'.symm.trans hcheck)
      refine ⟨n, final, hpasses, hcheck, ?_⟩
      rw [← hsort, List.mergeSort_of_pairwise (hnil.1 rfl)]
    · rintro s ⟨hs, hhash, hsort⟩
      obtain ⟨ds, outcome, hcheck, -, hpass, -, -, hnext, hsteps, hlower⟩ :=
        exists_pass hs (hs.hashbangApart hhash) packages
      refine ⟨ds, hcheck, fun hne => ⟨_, hpass, ⟨hnext, ?_, ?_⟩, (hlower hne).2⟩⟩
      · exact Source.hashbangOutside_of_steps hsteps hhash
      · rw [Source.mergeSort_rank_eq hsteps, hsort]

/-- Code above two imports, the second of which comes first in the order. -/
def unordered : Source where
  text := "#!x\n// z\n1;\nimport {a} from 'a';\nimport 'b';\n".toList
  statements := [.plain ⟨9, 11⟩, ⟨.importDecl, 1, false, some "a", ⟨12, 32⟩⟩,
    ⟨.importDecl, 0, false, some "b", ⟨33, 44⟩⟩]
  comments := [⟨0, 3⟩, ⟨4, 8⟩]

/-- Passes end with the imports above the code. -/
theorem passes_sort_unordered : unordered.WellFormed ∧ unordered.HashbangOutside ∧
    ∃ n final, rule.passes [] n unordered = .ok final ∧ rule.check final [] = .ok [] ∧
      final.passages = unordered.passages.mergeSort Passage.rankLE := by
  have h : unordered.WellFormed := by decide
  have hh : unordered.HashbangOutside := by decide
  exact ⟨h, hh, (passes_sort_statements h hh []).2⟩

/-- A statement that starts with a `#!` comment. -/
def hashbangStatement : Source where
  text := "#!a\n1;\nimport 'b';\n".toList
  statements := [.plain ⟨0, 6⟩, ⟨.importDecl, 0, false, some "b", ⟨7, 18⟩⟩]
  comments := [⟨0, 3⟩]

/-- The import goes behind the `#!` line, which is in the middle of the statement. -/
theorem hashbangStatement_outcome :
    ∃ d, rule.check hashbangStatement [] = .ok [d] ∧
      hashbangStatement.text.applyFixes [d] =
        .ok ⟨"#!a\nimport 'b';\n1;\n".toList, 1, 0⟩ := by
  have hcheck : rule.check hashbangStatement [] = .ok [Diagnostic.make hashbangStatement name
      Violation.importAfterStatement.id Violation.importAfterStatement.message ⟨7, 19⟩
      (some ⟨[Edit.remove ⟨7, 19⟩, Edit.insertAt 4 "import 'b';\n".toList]⟩)] := by
    decide
  refine ⟨_, hcheck, ?_⟩
  have hmerged : Fix.merged ⟨[Edit.remove ⟨7, 19⟩, Edit.insertAt 4 "import 'b';\n".toList]⟩
      hashbangStatement.text = .ok (some ⟨⟨4, 19⟩, "import 'b';\n1;\n".toList⟩) := by
    rw [Fix.merged, Fix.mergeSort_relocation (by decide)]
    decide
  rw [Text.applyFixes_singleton rfl hmerged]
  decide

theorem hashbangStatement_torn : ∃ d outcome passage,
    rule.check hashbangStatement [] = .ok [d] ∧
    hashbangStatement.text.applyFixes [d] = .ok outcome ∧
    passage ∈ hashbangStatement.passages ∧ ¬ passage.text <:+: outcome.output := by
  obtain ⟨d, hcheck, happly⟩ := hashbangStatement_outcome
  refine ⟨d, _, ⟨.plain ⟨0, 6⟩, "#!a\n1;".toList⟩, hcheck, happly, by decide, ?_⟩
  simp [List.infix_cons_iff, List.cons_prefix_cons]

/-- An import in front of a statement that is said to start with a byte order mark. -/
def markedNeighbour : Source where
  text := "1;import 'a';\uFEFF2;".toList
  statements := [.plain ⟨0, 2⟩, ⟨.importDecl, 0, false, some "a", ⟨2, 13⟩⟩, .plain ⟨13, 18⟩]
  comments := []

/-- The import takes the mark along. -/
theorem markedNeighbour_outcome :
    ∃ d, rule.check markedNeighbour [] = .ok [d] ∧
      markedNeighbour.text.applyFixes [d] = .ok ⟨"import 'a';\uFEFF1;2;".toList, 1, 0⟩ := by
  have hcheck : rule.check markedNeighbour [] = .ok [Diagnostic.make markedNeighbour name
      Violation.importAfterStatement.id Violation.importAfterStatement.message ⟨2, 16⟩
      (some ⟨[Edit.remove ⟨2, 16⟩, Edit.insertAt 0 "import 'a';\uFEFF".toList]⟩)] := by
    decide +kernel
  refine ⟨_, hcheck, ?_⟩
  have hmerged : Fix.merged ⟨[Edit.remove ⟨2, 16⟩, Edit.insertAt 0 "import 'a';\uFEFF".toList]⟩
      markedNeighbour.text = .ok (some ⟨⟨0, 16⟩, "import 'a';\uFEFF1;".toList⟩) := by
    rw [Fix.merged, Fix.mergeSort_relocation (by decide)]
    decide
  rw [Text.applyFixes_singleton rfl hmerged]
  decide

theorem markedNeighbour_torn : ∃ d outcome passage,
    rule.check markedNeighbour [] = .ok [d] ∧
    markedNeighbour.text.applyFixes [d] = .ok outcome ∧
    passage ∈ markedNeighbour.passages ∧ ¬ passage.text <:+: outcome.output := by
  obtain ⟨d, hcheck, happly⟩ := markedNeighbour_outcome
  refine ⟨d, _, ⟨.plain ⟨0, 5⟩, "\uFEFF2;".toList⟩, hcheck, happly, by decide, ?_⟩
  simp [List.infix_cons_iff, List.cons_prefix_cons]

/-- A pass may tear a statement that starts with a `#!` comment, and one that starts with a byte
order mark, which is not white space: no source with the text that the pass gives out has the
statements of the source before it. -/
theorem pass_tears_marked_statements :
    (hashbangStatement.WellFormed ∧ rule.Tears hashbangStatement) ∧
    markedNeighbour.Legible ∧ markedNeighbour.comments = [] ∧ rule.Tears markedNeighbour := by
  refine ⟨⟨by decide, ?_⟩, by decide, rfl, ?_⟩
  · obtain ⟨d, outcome, passage, hcheck, happly, hmem, habsent⟩ := hashbangStatement_torn
    exact Rule.tears_of_absent hcheck happly hmem habsent
  · obtain ⟨d, outcome, passage, hcheck, happly, hmem, habsent⟩ := markedNeighbour_torn
    exact Rule.tears_of_absent hcheck happly hmem habsent

end StatementOrder

end ImportOrder
