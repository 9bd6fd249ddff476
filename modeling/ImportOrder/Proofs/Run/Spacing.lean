import ImportOrder.Proofs.Rule.BlankLines

/-!
# A pass of the rule on blank lines

A source is a row of statements with spaces between them. A pass of the rule mends every space for
itself: the fixes keep apart, as a statement stands between any two of them, so that all of them are
made, and what the rule reports afterwards shows in the mended spaces. A space is reported again
with a fix exactly if its fix joined two line terminators.

## Main definitions

- `ImportNewlines.reportsFrom`: the reports along a row of statements
- `ImportNewlines.Mended`: a row of spaces, before and after a pass

## Main statements

- `ImportNewlines.exists_mended`: every row is mended
- `ImportNewlines.Mended.after_eq`: a pass leads to the mended row
- `ImportNewlines.Mended.exists_reports`: the reports on the mended row
- `ImportNewlines.pass_settles_unless_joined`: the fixes settle in one pass, unless terminators join
-/

namespace ImportOrder

namespace ImportNewlines

open Source (ofText)

/-! ## Statements and spaces in a row -/

/-- A piece that ends with a statement. -/
structure EndsWith (front : Source) (s : Statement) : Prop where
  wellFormed : front.WellFormed
  unbroken : front.ItemsUnbroken
  last : ∃ before, front.statements = before ++ [s]
  stop_eq : s.span.stop = front.size

/-- A piece that is a statement. -/
structure IsBlock (block : Source) (t : Statement) : Prop where
  wellFormed : block.WellFormed
  unbroken : block.ItemsUnbroken
  statements_eq : block.statements = [t]
  span_eq : t.span = ⟨0, block.size⟩

section Row

variable {front space block rest : Source} {s t : Statement} {D : List Statement}

theorem IsBlock.size_pos (h : IsBlock block t) : 0 < block.size := by
  have hspan : t.span ∈ block.spans := List.mem_map_of_mem (by rw [h.statements_eq]; simp)
  have hroom := h.wellFormed.bounds_span hspan
  rw [h.span_eq] at hroom
  exact hroom.1

theorem EndsWith.append (hfront : EndsWith front s) (hspace : IsSpace space)
    (hblock : IsBlock block t) :
    EndsWith (front ++ space ++ block) (t.shift (front.size + space.size)) where
  wellFormed := (hfront.wellFormed.append hspace.wellFormed).append hblock.wellFormed
  unbroken := by
    rw [Source.itemsUnbroken_append (hfront.wellFormed.append hspace.wellFormed),
      Source.itemsUnbroken_append hfront.wellFormed]
    exact ⟨⟨hfront.unbroken, hspace.unbroken⟩, hblock.unbroken⟩
  last := by
    rw [Source.statements_append, hblock.statements_eq, Source.size_append]
    exact ⟨_, rfl⟩
  stop_eq := by
    rw [Statement.shift_span, Span.shift_stop, hblock.span_eq, Source.size_append,
      Source.size_append]

theorem EndsWith.joint (hfront : EndsWith front s) (hspace : IsSpace space)
    (hblock : IsBlock block t) (hrest : rest.WellFormed) (hrest_unbroken : rest.ItemsUnbroken) :
    front.Joint space (block ++ rest) s t where
  left_wellFormed := hfront.wellFormed
  space_wellFormed := hspace.wellFormed
  right_wellFormed := hblock.wellFormed.append hrest
  unbroken := by
    rw [Source.itemsUnbroken_append (hfront.wellFormed.append hspace.wellFormed),
      Source.itemsUnbroken_append hfront.wellFormed, Source.itemsUnbroken_append hblock.wellFormed]
    exact ⟨⟨hfront.unbroken, hspace.unbroken⟩, hblock.unbroken, hrest_unbroken⟩
  left_last := hfront.last
  left_stop := hfront.stop_eq
  space_empty := hspace.empty
  right_first := by
    rw [Source.statements_append, hblock.statements_eq]
    exact ⟨_, rfl⟩
  right_start := by rw [hblock.span_eq]

/-- A source falls into a piece that ends with its first statement and the rest. -/
theorem exists_first (h : rest.WellFormed) (hunbroken : rest.ItemsUnbroken)
    (hst : rest.statements = s :: D) :
    ∃ a b : Source, rest = a ++ b ∧ EndsWith a s ∧ a.statements = [s] ∧ b.WellFormed ∧
      b.ItemsUnbroken ∧ b.statements.map (·.shift a.size) = D := by
  have hspan : s.span ∈ rest.spans := List.mem_map_of_mem (by rw [hst]; simp)
  obtain ⟨a, b, rfl, hsize, ha, hb⟩ := h.exists_append ((h.solid_span hspan).clear_stop h)
  have hordered := h.spans_ordered
  rw [Source.spans, List.pairwise_map, hst, List.pairwise_cons] at hordered
  obtain ⟨ha_st, hb_st⟩ := Source.statements_of_append ha hb
    (show (a ++ b).statements = [s] ++ D from hst)
    (fun x hx => by rw [List.mem_singleton.1 hx, hsize])
    (fun x hx => hsize ▸ hordered.1 x hx)
  obtain ⟨ha_unbroken, hb_unbroken⟩ := (Source.itemsUnbroken_append ha).1 hunbroken
  exact ⟨a, b, rfl, ⟨ha, ha_unbroken, ⟨[], ha_st⟩, hsize.symm⟩, ha_st, hb, hb_unbroken, hb_st⟩

/-- A source with a statement falls into a space, the statement and the rest. -/
theorem exists_block (h : rest.WellFormed) (hunbroken : rest.ItemsUnbroken)
    (hst : rest.statements = s :: D) :
    ∃ (space block later : Source) (t : Statement), rest = space ++ (block ++ later) ∧
      IsSpace space ∧ IsBlock block t ∧ later.WellFormed ∧ later.ItemsUnbroken ∧
      later.statements.length = D.length := by
  obtain ⟨x, later, rfl, hx, hx_st, hlater, hlater_unbroken, hlater_st⟩ :=
    exists_first h hunbroken hst
  have hspan : s.span ∈ x.spans := List.mem_map_of_mem (by rw [hx_st]; simp)
  have hstop := hx.stop_eq
  obtain ⟨space, block, rfl, hsize, hspace, hblock⟩ :=
    hx.wellFormed.exists_append ((hx.wellFormed.solid_span hspan).clear_start hx.wellFormed)
  obtain ⟨hspace_st, hblock_st⟩ := Source.statements_of_append hspace hblock
    (show (space ++ block).statements = [] ++ [s] from hx_st) (by simp)
    (fun y hy => by rw [List.mem_singleton.1 hy, hsize])
  obtain ⟨t, ht, rfl⟩ := List.map_eq_singleton_iff.1 hblock_st
  obtain ⟨hspace_unbroken, hblock_unbroken⟩ := (Source.itemsUnbroken_append hspace).1 hx.unbroken
  refine ⟨space, block, later, t, Source.append_assoc _ _ _,
    ⟨hspace, hspace_unbroken, hspace_st⟩, ⟨hblock, hblock_unbroken, ht, ?_⟩, hlater,
    hlater_unbroken, ?_⟩
  · rw [Statement.shift_span, Span.shift_start] at hsize
    rw [Statement.shift_span, Span.shift_stop, Source.size_append] at hstop
    obtain ⟨hstart, hstop⟩ : t.span.start = 0 ∧ t.span.stop = block.size := by omega
    rw [← hstart, ← hstop]
  · rw [← hlater_st, List.length_map]

end Row

/-! ## Reports and fixes in a row -/

/-- The reports about a statement and those behind it. -/
def reportsFrom (source : Source) (packages : Packages) :
    Statement → List Statement → Checked (List Diagnostic)
  | _, [] => .ok []
  | s, t :: statements => do
    let here ← checkPair source (itemOf source packages s) (itemOf source packages t)
    let later ← reportsFrom source packages t statements
    return here ++ later

theorem reportsFrom_row {source front space block rest : Source} {packages : Packages}
    {s t : Statement} {here later : List Diagnostic} (hspace : IsSpace space)
    (hblock : IsBlock block t)
    (hcheck : checkPair source (itemOf source packages s)
      (itemOf source packages (t.shift (front.size + space.size))) = .ok here)
    (hlater : reportsFrom source packages (t.shift (front.size + space.size))
      (rest.statements.map (·.shift (front ++ space ++ block).size)) = .ok later) :
    reportsFrom source packages s
      ((space ++ (block ++ rest)).statements.map (·.shift front.size)) = .ok (here ++ later) := by
  have hstatements : (space ++ (block ++ rest)).statements.map (·.shift front.size) =
      t.shift (front.size + space.size) ::
        rest.statements.map (·.shift (front ++ space ++ block).size) := by
    simp [hspace.empty, hblock.statements_eq, Function.comp_def, Nat.add_assoc]
  rw [hstatements, reportsFrom, hcheck, Checked.ok_bind, hlater, Checked.ok_bind]
  rfl

/-- The reports of the rule are those about the first statement and the others behind it. -/
theorem check_eq {source : Source} (h : source.WellFormed) (packages : Packages) {s : Statement}
    {D : List Statement} (hst : source.statements = s :: D) :
    rule.check source packages = reportsFrom source packages s D := by
  have hitems : source.statements.mapM (item source packages) =
      .ok (source.statements.map (itemOf source packages)) :=
    Checked.mapM_eq_ok fun s hs => item_eq h packages hs
  have hrow : ∀ (D : List Statement) (s : Statement),
      ((((s :: D).map (itemOf source packages)).zip (D.map (itemOf source packages))).mapM
        fun p => checkPair source p.1 p.2) >>= (fun reports => pure reports.flatten) =
      reportsFrom source packages s D := by
    intro D
    induction D with
    | nil => exact fun _ => rfl
    | cons t D ih =>
      intro s
      rw [reportsFrom, ← ih t]
      simp only [List.map_cons, List.zip_cons_cons, List.mapM_cons, bind_assoc, pure_bind]
      rfl
  rw [← hrow D s]
  simp only [rule, hitems, Checked.ok_bind]
  rw [hst]
  rfl

/-- What a pass makes of the pieces behind `front`, which ends with the statement `s`, and the
reports about them. -/
inductive Mended (source : Source) (packages : Packages) :
    (front : Source) → (s : Statement) → (rest : Source) → List Diagnostic → (rest' : Source) →
      Prop where
  /-- No statement comes behind. -/
  | last {front rest : Source} {s : Statement} (hrest : IsSpace rest) :
      Mended source packages front s rest [] rest
  /-- The space in front of the next statement is mended or left alone, and so is the rest. -/
  | next {front space space' block rest rest' : Source} {s t : Statement}
      {here later : List Diagnostic} (hspace : IsSpace space) (hspace' : IsSpace space')
      (hblock : IsBlock block t)
      (hcheck : checkPair source (itemOf source packages s)
        (itemOf source packages (t.shift (front.size + space.size))) = .ok here)
      (hmending : Mending source (itemOf source packages s).group
        (itemOf source packages (t.shift (front.size + space.size))).group front space here space')
      (hrest : Mended source packages (front ++ space ++ block)
        (t.shift (front.size + space.size)) rest later rest') :
      Mended source packages front s (space ++ (block ++ rest)) (here ++ later)
        (space' ++ (block ++ rest'))

section Mended

variable {source front rest rest' : Source} {packages : Packages} {s : Statement}
  {ds : List Diagnostic}

/-- Every row of statements and spaces is mended. -/
theorem exists_mended (htidy : source.Tidy) (hsource : source = front ++ rest)
    (hfront : EndsWith front s) (hrest : rest.WellFormed) (hunbroken : rest.ItemsUnbroken)
    (packages : Packages) : ∃ ds rest', Mended source packages front s rest ds rest' := by
  induction hn : rest.statements.length generalizing front rest s with
  | zero =>
    exact ⟨[], rest, .last ⟨hrest, hunbroken, List.length_eq_zero_iff.1 hn⟩⟩
  | succ n ih =>
    obtain ⟨t, D, hst⟩ := List.exists_cons_of_length_eq_add_one hn
    obtain ⟨space, block, later, t, rfl, hspace, hblock, hlater, hlater_unbroken, hlength⟩ :=
      exists_block hrest hunbroken hst
    rw [hst, List.length_cons, Nat.add_right_cancel_iff] at hn
    have hpieces : source = front ++ space ++ (block ++ later) := by
      rw [hsource, Source.append_assoc front]
    obtain ⟨here, space', hcheck, hmending, hspace'⟩ :=
      exists_mending (hfront.joint hspace hblock hlater hlater_unbroken) hspace (hpieces ▸ htidy)
        packages
    rw [← hpieces] at hcheck hmending
    obtain ⟨ds, later', hmended⟩ := ih (by rw [hpieces, Source.append_assoc (front ++ space)])
      (hfront.append hspace hblock) hlater hlater_unbroken (hlength.trans hn)
    exact ⟨here ++ ds, _, .next hspace hspace' hblock hcheck hmending hmended⟩

namespace Mended

theorem wellFormed (h : Mended source packages front s rest ds rest') :
    rest'.WellFormed ∧ rest'.ItemsUnbroken := by
  induction h with
  | last hrest => exact ⟨hrest.wellFormed, hrest.unbroken⟩
  | next _ hspace' hblock _ _ _ ih =>
    refine ⟨hspace'.wellFormed.append (hblock.wellFormed.append ih.1), ?_⟩
    rw [Source.itemsUnbroken_append hspace'.wellFormed,
      Source.itemsUnbroken_append hblock.wellFormed]
    exact ⟨hspace'.unbroken, hblock.unbroken, ih.2⟩

theorem reports_eq (h : Mended source packages front s rest ds rest') :
    reportsFrom source packages s (rest.statements.map (·.shift front.size)) = .ok ds := by
  induction h with
  | last hrest =>
    rw [hrest.empty]
    rfl
  | next hspace _ hblock hcheck _ _ ih => exact reportsFrom_row hspace hblock hcheck ih

/-- The fixes keep apart, as there is a statement between any two of them. -/
theorem exists_edits (h : Mended source packages front s rest ds rest') :
    ∃ edits : List (Edit × Fix), (ds.filterMap (·.fix)).filterMap source.text.mergedFix? = edits ∧
      edits.map (·.2) = ds.filterMap (·.fix) ∧
      edits.Pairwise (fun e f => e.1.span.stop < f.1.span.start) ∧
      ∀ e ∈ edits, front.size ≤ e.1.span.start ∧ e.1.span.start ≤ e.1.span.stop := by
  induction h with
  | last => exact ⟨[], rfl, rfl, .nil, by simp⟩
  | @next front space space' block rest rest' s t here later _ _ hblock _ hmending _ ih =>
    obtain ⟨edits, hmerged, hfixes, hseparated, hbounds⟩ := ih
    have hpos := hblock.size_pos
    rw [Source.size_append, Source.size_append] at hbounds
    cases hmending with
    | keep hreports =>
      have hnone : here.filterMap (·.fix) = [] := List.filterMap_eq_nil_iff.2 hreports
      rw [List.filterMap_append, hnone, List.nil_append]
      refine ⟨edits, hmerged, hfixes, hseparated, fun e he => ?_⟩
      have := hbounds e he
      omega
    | @mend r fix _ hr hreplaces =>
      obtain ⟨edit, hedit, hstart, hle, hstop⟩ := hreplaces.merged
      have hpair : source.text.mergedFix? fix = some (edit, fix) := by
        rw [Text.mergedFix?, hedit]
        rfl
      refine ⟨(edit, fix) :: edits, ?_, ?_, ?_, ?_⟩
      · rw [List.singleton_append, List.filterMap_cons_some hr, List.filterMap_cons_some hpair,
          hmerged]
      · rw [List.singleton_append, List.filterMap_cons_some hr, List.map_cons, hfixes]
      · refine List.pairwise_cons.2 ⟨fun e he => ?_, hseparated⟩
        have := hbounds e he
        show edit.span.stop < e.1.span.start
        omega
      · refine List.forall_mem_cons.2 ⟨⟨hstart, hle⟩, fun e he => ?_⟩
        have := hbounds e he
        omega

/-- The fixes, made from the last to the first, lead to what the pass makes of the pieces. -/
theorem foldr_amended (h : Mended source packages front s rest ds rest')
    (hsource : source = front ++ rest) :
    (ds.filterMap (·.fix)).foldr (fun fix next => next.amended fix) source = front ++ rest' := by
  induction h with
  | last => exact hsource
  | @next front space space' block rest rest' s t here later _ hspace' hblock _ hmending hrest ih =>
    have hlater := ih (by rw [hsource]; simp only [Source.append_assoc])
    cases hmending with
    | keep hreports =>
      have hnone : here.filterMap (·.fix) = [] := List.filterMap_eq_nil_iff.2 hreports
      rw [List.filterMap_append, hnone, List.nil_append, hlater]
      simp only [Source.append_assoc]
    | mend hr hreplaces =>
      rw [List.singleton_append, List.filterMap_cons_some hr, List.foldr_cons, hlater,
        Source.append_assoc (front ++ space), hreplaces.amended _ (hblock.wellFormed.append
          hrest.wellFormed.1)]
      simp only [Source.append_assoc]

/-- All fixes are made. -/
theorem appliedFixes_eq (h : Mended source packages front s rest ds rest') :
    source.text.appliedFixes ds = ds.filterMap (·.fix) := by
  obtain ⟨edits, hmerged, hfixes, hseparated, hbounds⟩ := h.exists_edits
  rw [Text.appliedFixes_of_separated hmerged hseparated fun e he => (hbounds e he).2, hfixes]

theorem after_eq (h : Mended source packages front s rest ds rest')
    (hsource : source = front ++ rest) : source.after ds = front ++ rest' := by
  rw [Source.after, h.appliedFixes_eq, h.foldr_amended hsource]

end Mended

/-! ## The next reports -/

/-- A statement has the group that its own piece gives it. -/
theorem group_eq {space block later : Source} {t : Statement} (hblock : IsBlock block t)
    (front : Source) :
    (itemOf (front ++ space ++ (block ++ later)) packages
      (t.shift (front.size + space.size))).group =
      Group.of? packages (block.passage t).category t.path? := by
  have hpassage : (front ++ space ++ (block ++ later)).passage (t.shift (front.size + space.size)) =
      block.passage t := by
    rw [← Source.size_append, Source.passage_append_shift,
      hblock.wellFormed.passage_append (by rw [hblock.statements_eq]; simp)]
  rw [itemOf, hpassage]
  rfl

/-- Whether there is a fix for a space shows in the space. -/
theorem Mending.fix_eq_none_iff {g g' : Option Group} {space space' : Source}
    (h : Mending source g g' front space ds space') :
    (∀ r ∈ ds, r.fix = none) ↔ ¬ Fixable g g' space := by
  cases h with
  | keep hreports hspace => exact iff_of_true hreports hspace
  | mend hr _ _ _ hspace =>
    refine iff_of_false (fun hnone => ?_) (not_not.2 hspace)
    rw [hnone _ (List.mem_singleton.2 rfl)] at hr
    exact absurd hr nofun

/-- A mended space has a fix again if the fix joined two line terminators. -/
theorem Mending.not_fixable_iff {g g' : Option Group} {space space' : Source}
    (h : Mending source g g' front space ds space') :
    ¬ Fixable g g' space' ↔ ∀ r ∈ ds, ∀ fix ∈ r.fix, fix.joinsBreak source.text = false := by
  cases h with
  | keep hreports hspace =>
    refine iff_of_true hspace fun r hr fix hfix => ?_
    rw [hreports r hr] at hfix
    exact absurd hfix nofun
  | mend hr _ hjoins =>
    rw [hjoins, Bool.not_eq_true]
    simp [hr]

theorem Mending.pairsReturns {g g' : Option Group} {space space' : Source}
    (h : Mending source g g' front space ds space') (hpairs : source.text.PairsReturns) :
    ∀ r ∈ ds, ∀ fix ∈ r.fix, fix.joinsBreak source.text = false := by
  intro r hr fix hfix
  cases h with
  | keep hreports =>
    rw [hreports r hr] at hfix
    exact absurd hfix nofun
  | @mend r' fix' _ hr' _ _ hreturn =>
    rw [List.mem_singleton.1 hr, hr'] at hfix
    obtain rfl := Option.some.inj hfix
    apply Bool.eq_false_iff.2
    intro hjoins
    exact hreturn hjoins hpairs

theorem Mended.pairsReturns (h : Mended source packages front s rest ds rest')
    (hpairs : source.text.PairsReturns) :
    ∀ r ∈ ds, ∀ fix ∈ r.fix, fix.joinsBreak source.text = false := by
  induction h with
  | last => exact fun r hr => absurd hr List.not_mem_nil
  | next _ _ _ _ hmending _ ih =>
    exact List.forall_mem_append.2 ⟨hmending.pairsReturns hpairs, ih⟩

/-- The reports on the mended pieces: there is a fix again exactly where two line terminators were
joined. -/
theorem Mended.exists_reports (h : Mended source packages front s rest ds rest')
    (hsource : source = front ++ rest) {front' : Source} {s' : Statement}
    (hfront' : EndsWith front' s') (htidy' : (front' ++ rest').Tidy)
    (hgroup : (itemOf (front' ++ rest') packages s').group = (itemOf source packages s).group) :
    ∃ ds', reportsFrom (front' ++ rest') packages s' (rest'.statements.map (·.shift front'.size)) =
        .ok ds' ∧
      ((∀ r ∈ ds', r.fix = none) ↔
        ∀ r ∈ ds, ∀ fix ∈ r.fix, fix.joinsBreak source.text = false) := by
  induction h generalizing front' s' with
  | last hrest =>
    rw [hrest.empty]
    exact ⟨[], rfl, by simp⟩
  | @next front space space' block rest rest' s t here later hspace hspace' hblock _ hmending hrest
      ih =>
    have hlater := hrest.wellFormed
    have hpieces : front' ++ (space' ++ (block ++ rest')) = front' ++ space' ++ (block ++ rest') :=
      (Source.append_assoc _ _ _).symm
    have hsource' : source = front ++ space ++ (block ++ rest) := by
      rw [hsource, Source.append_assoc front]
    have hgroup_t : (itemOf (front' ++ space' ++ (block ++ rest')) packages
        (t.shift (front'.size + space'.size))).group =
        (itemOf source packages (t.shift (front.size + space.size))).group := by
      rw [hsource', group_eq hblock front', group_eq hblock front]
    rw [hpieces] at htidy' hgroup ⊢
    obtain ⟨here', _, hcheck', hmending', -⟩ := exists_mending
      (hfront'.joint hspace' hblock hlater.1 hlater.2) hspace' htidy' packages
    rw [hgroup, hgroup_t] at hmending'
    have hlast : front' ++ space' ++ (block ++ rest') = front' ++ space' ++ block ++ rest' :=
      (Source.append_assoc _ _ _).symm
    obtain ⟨later', hlater', hiff⟩ := ih (by rw [hsource', Source.append_assoc (front ++ space)])
      (hfront'.append hspace' hblock) (hlast ▸ htidy') (hlast ▸ hgroup_t)
    rw [← hlast] at hlater'
    refine ⟨here' ++ later', ?_, ?_⟩
    · exact reportsFrom_row hspace' hblock hcheck' hlater'
    · rw [List.forall_mem_append, List.forall_mem_append, hiff, hmending'.fix_eq_none_iff,
        hmending.not_fixable_iff]

end Mended

/-! ## A pass -/

section Pass

variable {source : Source} {packages : Packages} {ds : List Diagnostic} {outcome : FixOutcome}

theorem applied_eq (h : source.Tidy) (hcheck : rule.check source packages = .ok ds)
    (happly : source.text.applyFixes ds = .ok outcome) :
    outcome.applied = (source.text.appliedFixes ds).length := by
  obtain ⟨ds', hcheck', hrespaces⟩ := exists_check h packages
  obtain rfl : ds' = ds := Except.ok.inj (hcheck'.symm.trans hcheck)
  obtain ⟨outcome', happly', -, -, -, happlied⟩ :=
    h.toWellFormed.exists_outcome (R := Source.Respaces) fun fix hfix => by
      obtain ⟨d, hd, hfix⟩ := List.mem_filterMap.1 hfix
      exact hrespaces d hd fix hfix
  obtain rfl : outcome' = outcome := Except.ok.inj (happly'.symm.trans happly)
  exact happlied

/-- The reports on the source after a pass. -/
theorem exists_check_after (h : source.Tidy) (hitems : source.ItemsUnbroken)
    (hcheck : rule.check source packages = .ok ds) (hafter : (source.after ds).Tidy) :
    source.text.appliedFixes ds = ds.filterMap (·.fix) ∧ (source.after ds).ItemsUnbroken ∧
      ∃ ds', rule.check (source.after ds) packages = .ok ds' ∧
        ((∀ d ∈ ds', d.fix = none) ↔
          ∀ d ∈ ds, ∀ fix ∈ d.fix, fix.joinsBreak source.text = false) ∧
        (source.text.PairsReturns → ∀ d ∈ ds', d.fix = none) := by
  cases hst : source.statements with
  | nil =>
    have hnone : rule.check source packages = .ok [] := by
      simp only [rule, hst]
      rfl
    obtain rfl : [] = ds := Except.ok.inj (hnone.symm.trans hcheck)
    have happlied : source.text.appliedFixes [] = [] := by
      simp [Text.appliedFixes, Text.sortedFixes, Text.chosen]
    have hsame : source.after [] = source := by
      rw [Source.after, happlied]
      rfl
    rw [hsame]
    exact ⟨happlied, hitems, [], hcheck, by simp, by simp⟩
  | cons s D =>
    obtain ⟨front, rest, rfl, hfront, hfront_st, hrest, hrest_unbroken, rfl⟩ :=
      exists_first h.toWellFormed hitems hst
    obtain ⟨ds', rest', hmended⟩ := exists_mended h rfl hfront hrest hrest_unbroken packages
    rw [check_eq h.toWellFormed packages hst, hmended.reports_eq] at hcheck
    obtain rfl : ds' = ds := Except.ok.inj hcheck
    rw [hmended.after_eq rfl] at hafter ⊢
    have hs : s ∈ front.statements := by rw [hfront_st]; simp
    have hgroup : (itemOf (front ++ rest') packages s).group =
        (itemOf (front ++ rest) packages s).group := by
      rw [itemOf, itemOf, hfront.wellFormed.passage_append hs, hfront.wellFormed.passage_append hs]
    obtain ⟨ds'', hreports, hiff⟩ := hmended.exists_reports rfl hfront hafter hgroup
    have hst' : (front ++ rest').statements = s :: rest'.statements.map (·.shift front.size) := by
      rw [Source.statements_append, hfront_st]
      rfl
    refine ⟨hmended.appliedFixes_eq, ?_, ds'', ?_, hiff, fun hpairs => ?_⟩
    · exact (Source.itemsUnbroken_append hfront.wellFormed).2
        ⟨hfront.unbroken, hmended.wellFormed.2⟩
    · rw [check_eq hafter.toWellFormed packages hst', hreports]
    · exact hiff.2 (hmended.pairsReturns hpairs)

/-- Of a source that holds nothing but statements, comments and blanks and in which no item ends
with a line break, make all fixes of the rule at once. On what comes out, which holds the same
statements and comments, the rule has a fix again exactly if one of the fixes put a line feed behind
a carriage return, where the two are one line terminator and no blank line. No fix does so if every
carriage return is followed by a line feed. -/
theorem pass_settles_unless_joined (h : source.Tidy) (hitems : source.ItemsUnbroken)
    (packages : Packages) :
    ∃ ds outcome next ds', rule.check source packages = .ok ds ∧
      source.text.applyFixes ds = .ok outcome ∧
      outcome.applied = (ds.filterMap (·.fix)).length ∧
      rule.pass packages source = .ok next ∧ next.text = outcome.output ∧ next.Tidy ∧
      next.ItemsUnbroken ∧ next.passages = source.passages ∧ next.remarks = source.remarks ∧
      rule.check next packages = .ok ds' ∧
      ((∀ d ∈ ds', d.fix = none) ↔
        ∀ d ∈ ds, ∀ fix ∈ d.fix, fix.joinsBreak source.text = false) ∧
      (source.text.PairsReturns → ∀ d ∈ ds', d.fix = none) := by
  obtain ⟨ds, outcome, hcheck, happly, htext, hpass, hafter, hpassages, hremarks⟩ :=
    exists_pass h packages
  obtain ⟨happlied, hunbroken, ds', hcheck', hiff, hpairs⟩ :=
    exists_check_after h hitems hcheck hafter
  have hall : outcome.applied = (ds.filterMap (·.fix)).length := by
    rw [applied_eq h hcheck happly, happlied]
  exact ⟨ds, outcome, source.after ds, ds', hcheck, happly, hall, hpass, htext, hafter, hunbroken,
    hpassages, hremarks, hcheck', hiff, hpairs⟩

end Pass

/-- Two imports of different groups on lines that a carriage return separates. -/
def returned : Source where
  text := "import 'a';\rimport {b} from './b';\n".toList
  statements := [⟨.importDecl, 0, false, some "a", ⟨0, 11⟩⟩,
    ⟨.importDecl, 1, false, some "./b", ⟨12, 34⟩⟩]
  comments := []

/-- The inserted line feed makes one terminator of the two, and the rule wants another. -/
theorem pass_joins_return : returned.Tidy ∧ returned.ItemsUnbroken ∧
    ∃ next ds', rule.pass [] returned = .ok next ∧
      next.text = "import 'a';\r\nimport {b} from './b';\n".toList ∧
      rule.check next [] = .ok ds' ∧ ¬ ∀ d ∈ ds', d.fix = none := by
  have h : returned.Tidy := by decide
  have hitems : returned.ItemsUnbroken := by decide
  have hcheck' : rule.check returned [] = .ok [report returned "insertNewline"
      "Add the missing newline between imports" ⟨12, 34⟩
      (some ⟨[Edit.insertAt 12 ['\n']]⟩)] := by
    decide
  obtain ⟨ds, outcome, next, ds', hcheck, happly, -, hpass, htext, -, -, -, -, hnext, hiff, -⟩ :=
    pass_settles_unless_joined h hitems []
  obtain rfl := Except.ok.inj (hcheck.symm.trans hcheck')
  have hmerged : Fix.merged ⟨[Edit.insertAt 12 ['\n']]⟩ returned.text =
      .ok (some ⟨⟨12, 12⟩, ['\n']⟩) := by
    rw [Fix.merged, List.mergeSort_singleton]
    decide
  refine ⟨h, hitems, next, ds', hpass, ?_, hnext, fun hnone => ?_⟩
  · rw [Text.applyFixes_singleton rfl hmerged] at happly
    obtain rfl := Except.ok.inj happly
    rw [htext]
    rfl
  · have hjoins := hiff.1 hnone _ List.mem_cons_self _ rfl
    exact absurd hjoins (by decide)

end ImportNewlines

end ImportOrder
