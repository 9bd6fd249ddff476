import ImportOrder.Proofs.AttachedRange
import ImportOrder.Proofs.Source.Tidy
import ImportOrder.Proofs.Text.Lines
import ImportOrder.Rule.ImportNewlines

/-!
# Blank lines are made of blanks

Every fix of the rule on blank lines replaces blanks between two neighbouring statements by blanks.
The space between two ranges that holds no comment is a piece of the source without items, and in a
tidy source such a piece is blank.

## Main statements

- `Fix.single_changes`: a fix with one edit merges into it
- `Source.Tidy.exists_gap`: the space between neighbouring statements is a blank piece
- `ImportNewlines.exists_check`: the reports of the rule and what their fixes do
- `ImportNewlines.exists_pass`: a pass of the rule moves nothing
-/

namespace ImportOrder

/-- A fix with one edit merges into it. -/
theorem Fix.single_changes {a b c : Source} (ha : a.WellFormed) (hb : b.WellFormed)
    (hc : c.WellFormed) (text : Text) :
    Fix.Changes ⟨[⟨⟨a.size, a.size + b.size⟩, text⟩]⟩ (a ++ b ++ c) a b (Source.ofText text) c where
  eq := rfl
  front_wellFormed := ha
  old_wellFormed := hb
  new_wellFormed := Source.wellFormed_ofText text
  back_wellFormed := hc
  merged := by
    have hstart : (a ++ b ++ c).text.slice ⟨a.size, a.size⟩ = .ok [] :=
      Text.slice_eq_ok_iff.2 ⟨a.text, b.text ++ c.text, by simp, rfl, rfl⟩
    have hstop : (a ++ b ++ c).text.slice ⟨a.size + b.size, a.size + b.size⟩ = .ok [] :=
      Text.slice_eq_ok_iff.2 ⟨a.text ++ b.text, c.text, by simp, by simp [Source.size],
        by simp [Source.size]⟩
    simp only [Fix.merged, List.mergeSort_singleton, Fix.furthest, List.foldl_cons, List.foldl_nil,
      Nat.zero_max, Fix.splice, Nat.lt_irrefl, if_false, hstart, hstop, bind, Except.bind]
    simp [pure, Except.pure]
  amended back hback := by
    rw [Source.amended]
    exact Source.replaced_append ha hb hback text

namespace Source

variable {source : Source} {L D : List Statement} {s t : Statement}

theorem eq_ofText (h : source.items = []) : source = ofText source.text := by
  obtain ⟨hspans, hcomments⟩ := List.append_eq_nil_iff.1 h
  obtain ⟨text, statements, comments⟩ := source
  simp only [spans, List.map_eq_nil_iff] at hspans hcomments
  rw [ofText, hspans, hcomments]

/-- The gap between two ranges is where they end and start. -/
theorem gap?_eq_some {left right gap : Span} (h : source.gap? left right = some gap) :
    left.stop ≤ right.start ∧ gap = ⟨left.stop, right.start⟩ := by
  unfold gap? at h
  split at h
  · next hfree => exact ⟨hfree.1, (Option.some.inj h).symm⟩
  · exact absurd h nofun

/-- No item lies between the ranges of neighbouring statements, if no comment does. -/
theorem WellFormed.not_between (h : source.WellFormed)
    (hst : source.statements = L ++ s :: t :: D)
    (hnone : source.commentsBetween (source.rangeOf s.span).bare (source.rangeOf t.span).bare = [])
    {x : Span} (hx : x ∈ source.items) (hstart : (source.rangeOf s.span).bare.stop ≤ x.start)
    (hstop : x.stop ≤ (source.rangeOf t.span).bare.start) : False := by
  have hspan : ∀ y ∈ L ++ s :: t :: D, y.span ∈ source.spans := fun y hy =>
    List.mem_map_of_mem (hst ▸ hy)
  have hs := (h.attached (hspan s (by simp))).le_stop
  have ht := (h.attached (hspan t (by simp))).start_le
  rw [← (h.attached (hspan t (by simp))).start_eq] at ht
  have hroom := h.bounds hx
  rcases List.mem_append.1 hx with hx | hx
  · obtain ⟨y, hy, rfl⟩ := List.mem_map.1 hx
    have hordered := h.spans_ordered
    rw [spans, List.pairwise_map, hst, List.pairwise_append, List.pairwise_cons,
      List.pairwise_cons] at hordered
    have hroom_s := h.bounds_span (hspan s (by simp))
    have hroom_t := h.bounds_span (hspan t (by simp))
    rw [hst] at hy
    rcases List.mem_append.1 hy with hy | hy
    · have := hordered.2.2 y hy s (by simp)
      omega
    · rcases List.mem_cons.1 hy with rfl | hy
      · omega
      · rcases List.mem_cons.1 hy with rfl | hy
        · omega
        · have := hordered.2.1.2.1 y hy
          omega
  · have hmem : x ∈ source.commentsBetween (source.rangeOf s.span).bare
        (source.rangeOf t.span).bare :=
      List.mem_filter.2 ⟨hx, by simp [hstart, hstop]⟩
    rw [hnone] at hmem
    exact List.not_mem_nil hmem

/-- The space between neighbouring statements that holds no comment is a blank piece. -/
theorem Tidy.exists_gap (h : source.Tidy) (hst : source.statements = L ++ s :: t :: D) {gap : Span}
    (hgap : source.gap? (source.rangeOf s.span).bare (source.rangeOf t.span).bare = some gap) :
    ∃ (a d : Source) (blanks : Text), a.WellFormed ∧ d.WellFormed ∧
      source = a ++ ofText blanks ++ d ∧ gap = ⟨a.size, a.size + (ofText blanks).size⟩ ∧
      (source.rangeOf t.span).bare.start = gap.stop ∧
      ∀ c ∈ blanks, Character.isBlank c = true := by
  have hwf := h.toWellFormed
  have hspan : ∀ y ∈ L ++ s :: t :: D, y.span ∈ source.spans := fun y hy =>
    List.mem_map_of_mem (hst ▸ hy)
  have hs := hwf.attached (hspan s (by simp))
  have ht := hwf.attached (hspan t (by simp))
  rw [gap?] at hgap
  split at hgap
  · next hfree =>
    obtain rfl := Option.some.inj hgap
    have hclear := ht.clear_start
    rw [← ht.start_eq] at hclear
    obtain ⟨x, d, hsource, hxsize, hx, hd⟩ := hwf.exists_append hclear
    have hclear' : (x ++ d).Clear (source.rangeOf s.span).bare.stop := hsource ▸ hs.clear_stop
    obtain ⟨a, m, rfl, hasize, ha, hm⟩ := hx.exists_append (hclear'.left (hxsize ▸ hfree.1))
    rw [size_append] at hxsize
    -- an item of the piece would lie between the two ranges
    have hitems : m.items = [] := by
      apply List.eq_nil_iff_forall_not_mem.2
      intro x hxm
      have hbounds := hm.bounds hxm
      have hmem : x.shift a.size ∈ source.items := by
        rw [hsource]
        exact mem_items_append.2 (.inl (mem_items_append.2 (.inr ⟨x, hxm, rfl⟩)))
      exact hwf.not_between hst hfree.2 hmem (by simp [hasize]) (by
        simp only [Span.shift_stop]
        omega)
    have hblank := h.blank_outside
    rw [hsource, blankOutside_append (ha.append hm), blankOutside_append ha, eq_ofText hitems]
      at hblank
    refine ⟨a, d, m.text, ha, hd, ?_, ?_, rfl, blankOutside_ofText.1 hblank.1.2⟩
    · rw [← eq_ofText hitems]
      exact hsource
    · rw [← eq_ofText hitems, hxsize, hasize]
  · exact absurd hgap nofun

/-- The replacement of blanks moves no statement and no comment past another. -/
theorem passages_eq_of_respaces {s t : Source} (h : Relation.ReflTransGen (Step Respaces) s t) :
    t.passages = s.passages ∧ t.remarks = s.remarks := by
  induction h with
  | refl => exact ⟨rfl, rfl⟩
  | tail _ hstep ih =>
    obtain ⟨hfront, hold, hnew, -, hrespaces⟩ := hstep
    obtain ⟨hold_blank, hnew_blank⟩ := hrespaces
    rw [← ih.1, ← ih.2, passages_append (hfront.append hold), passages_append (hfront.append hnew),
      passages_append hfront, passages_append hfront, remarks_append (hfront.append hold),
      remarks_append (hfront.append hnew), remarks_append hfront, remarks_append hfront]
    exact ⟨rfl, rfl⟩

section Gap

variable {a d : Source} {blanks : Text} (hsource : source = a ++ ofText blanks ++ d)

include hsource

/-- The line terminator to insert is made of blanks. -/
theorem exists_lineBreak :
    ∃ terminator, source.lineBreak ⟨a.size, a.size + (ofText blanks).size⟩ = .ok terminator ∧
      ∀ c ∈ terminator, Character.isBlank c = true := by
  have hslice : source.slice ⟨a.size, a.size + (ofText blanks).size⟩ = .ok blanks := by
    rw [slice, hsource]
    exact Text.slice_append a.text blanks d.text
  simp only [lineBreak, hslice, bind, Except.bind]
  refine ⟨_, rfl, ?_⟩
  split <;> split <;> exact List.all_eq_true.1 (by decide)

/-- The line in which a gap ends starts in the gap or in front of it. -/
theorem exists_indentation :
    ∃ kept indentation, blanks = kept ++ indentation ∧
      a.size + Text.byteLength kept =
        max (source.text.lineStart (a.size + (ofText blanks).size)) a.size := by
  obtain ⟨front, rest, htext, hfront, hle⟩ :=
    source.text.exists_lineStart (a.size + (ofText blanks).size)
  rcases Nat.le_total (source.text.lineStart (a.size + (ofText blanks).size)) a.size with hn | hn
  · exact ⟨[], blanks, rfl, by simp [Nat.max_eq_right hn]⟩
  · rw [Nat.max_eq_left hn]
    rw [← hfront] at hn hle ⊢
    have htext' : a.text ++ (blanks ++ d.text) = front ++ rest := by
      rw [← htext, hsource]
      simp
    obtain ⟨kept, rfl, hrest⟩ := Text.append_split htext' hn
    rw [Text.byteLength_append] at hle
    obtain ⟨indentation, rfl, -⟩ := Text.append_split hrest.symm
      (Nat.le_of_add_le_add_left hle)
    exact ⟨kept, indentation, rfl, (Text.byteLength_append _ _).symm⟩

end Gap

end Source

namespace ImportNewlines

variable {source : Source} {L D : List Statement} {s t : Statement}

/-- A fix that replaces blanks by blanks, if there is one. -/
def RespacesAt (source : Source) (fix? : Option Fix) : Prop :=
  ∀ fix ∈ fix?, ∃ front old new back, fix.Changes source front old new back ∧
    Source.Respaces old new

/-- The fix that removes blank lines. -/
theorem exists_removalFix (h : source.Tidy) (hst : source.statements = L ++ s :: t :: D) :
    ∃ fix?, removalFix source (source.rangeOf s.span).bare (source.rangeOf t.span).bare = .ok fix? ∧
      RespacesAt source fix? := by
  rw [removalFix]
  cases hgap : source.gap? (source.rangeOf s.span).bare (source.rangeOf t.span).bare with
  | none => exact ⟨none, rfl, by simp [RespacesAt]⟩
  | some gap =>
    obtain ⟨a, d, blanks, ha, hd, hsource, rfl, hright, hblank⟩ := h.exists_gap hst hgap
    obtain ⟨terminator, hbreak, hterminator⟩ := Source.exists_lineBreak hsource
    obtain ⟨kept, indentation, rfl, hline⟩ := Source.exists_indentation hsource
    have hslice : source.slice ⟨a.size + Text.byteLength kept,
        a.size + (Source.ofText (kept ++ indentation)).size⟩ = .ok indentation := by
      rw [Source.slice, hsource]
      exact Text.slice_eq_ok_iff.2 ⟨a.text ++ kept, d.text, by simp, by simp [Source.size],
        by simp [Source.size, Nat.add_assoc]⟩
    have hindentation := fun c hc => hblank c (List.mem_append_right kept hc)
    simp only [hright, ← hline, hslice, hbreak, bind, Except.bind]
    refine ⟨_, rfl, fun fix hfix => ?_⟩
    obtain rfl := Option.some.inj hfix
    have hchanges := Fix.single_changes ha (Source.wellFormed_ofText (kept ++ indentation)) hd
      (terminator ++ indentation)
    rw [← hsource] at hchanges
    exact ⟨_, _, _, _, hchanges, .respace hblank
      (List.forall_mem_append.2 ⟨hterminator, hindentation⟩)⟩

theorem exists_insertionFix (h : source.Tidy) (hst : source.statements = L ++ s :: t :: D) :
    ∃ fix?, insertionFix source (source.rangeOf s.span).bare (source.rangeOf t.span).bare =
        .ok fix? ∧ RespacesAt source fix? := by
  rw [insertionFix]
  cases hgap : source.gap? (source.rangeOf s.span).bare (source.rangeOf t.span).bare with
  | none => exact ⟨none, rfl, by simp [RespacesAt]⟩
  | some gap =>
    obtain ⟨a, d, blanks, ha, hd, hsource, rfl, hright, hblank⟩ := h.exists_gap hst hgap
    obtain ⟨terminator, hbreak, hterminator⟩ := Source.exists_lineBreak hsource
    obtain ⟨kept, indentation, rfl, hline⟩ := Source.exists_indentation hsource
    simp only [hright, hbreak, bind, Except.bind]
    refine ⟨_, rfl, fun fix hfix => ?_⟩
    obtain rfl := Option.some.inj hfix
    split
    · next hlater =>
      rw [Nat.max_eq_left (Nat.le_of_lt hlater)] at hline
      rw [← hline]
      -- the line starts between two parts of the gap
      have hchanges := Fix.single_changes (ha.append (Source.wellFormed_ofText kept))
        (Source.wellFormed_ofText []) ((Source.wellFormed_ofText indentation).append hd) terminator
      rw [Source.append_ofText_nil, ← Source.append_assoc, Source.append_assoc a,
        ← Source.ofText_append, ← hsource, Source.size_append] at hchanges
      exact ⟨_, _, _, _, hchanges, .respace (by simp) hterminator⟩
    · have hchanges := Fix.single_changes ha (Source.wellFormed_ofText (kept ++ indentation)) hd
        (terminator ++ terminator)
      rw [← hsource] at hchanges
      exact ⟨_, _, _, _, hchanges, .respace hblank
        (List.forall_mem_append.2 ⟨hterminator, hterminator⟩)⟩

/-- The report about the second of two neighbouring statements. -/
theorem exists_checkPair (h : source.Tidy) (hst : source.statements = L ++ s :: t :: D)
    (g g' : Option Group) :
    ∃ ds, checkPair source ⟨g, (source.rangeOf s.span).bare⟩ ⟨g', (source.rangeOf t.span).bare⟩ =
        .ok ds ∧ ∀ d ∈ ds, RespacesAt source d.fix := by
  rw [checkPair]
  split
  · obtain ⟨removal, hremoval, hrespaces⟩ := exists_removalFix h hst
    obtain ⟨insertion, hinsertion, hrespaces'⟩ := exists_insertionFix h hst
    simp only [hremoval, hinsertion, bind, Except.bind]
    split
    · refine ⟨_, rfl, fun d hd => ?_⟩
      rw [List.mem_singleton.1 hd]
      exact hrespaces
    · split
      · refine ⟨_, rfl, fun d hd => ?_⟩
        rw [List.mem_singleton.1 hd]
        exact hrespaces'
      · exact ⟨[], rfl, by simp⟩
  · exact ⟨[], rfl, by simp⟩

/-- What the rule sees of a statement of a well-formed source. -/
def itemOf (source : Source) (packages : Packages) (s : Statement) : Item :=
  ⟨Group.of? packages (source.passage s).category s.path?, (source.rangeOf s.span).bare⟩

theorem item_eq (h : source.WellFormed) (packages : Packages) (hs : s ∈ source.statements) :
    item source packages s = .ok (itemOf source packages s) := by
  simp only [item, Source.group?, h.classify_eq hs, h.attachedRange_eq (List.mem_map_of_mem hs),
    bind, Except.bind]
  rfl

/-- Neighbours in a list. -/
theorem exists_of_mem_zip_tail {α : Type} {l : List α} {x y : α} (h : (x, y) ∈ l.zip l.tail) :
    ∃ A D, l = A ++ x :: y :: D := by
  induction l with
  | nil => simp at h
  | cons a l ih =>
    cases l with
    | nil => simp at h
    | cons b l =>
      rw [List.tail_cons, List.zip_cons_cons, List.mem_cons] at h
      rcases h with h | h
      · obtain ⟨rfl, rfl⟩ := Prod.mk.inj h
        exact ⟨[], l, rfl⟩
      · obtain ⟨A, D, heq⟩ := ih h
        exact ⟨a :: A, D, by rw [heq]; rfl⟩

/-- The rule checks the pairs of neighbouring statements, one after the other. -/
theorem check_eq_mapM {packages : Packages} (hitem : ∀ s ∈ source.statements,
      item source packages s = .ok (itemOf source packages s)) :
    rule.check source packages =
      List.flatten <$> (source.statements.zip source.statements.tail).mapM fun pair =>
        checkPair source (itemOf source packages pair.1) (itemOf source packages pair.2) := by
  simp only [rule, Checked.mapM_eq_ok hitem, Checked.ok_bind, ← List.map_tail, List.zip_map,
    List.mapM_map]
  rfl

/-- What holds of the reports about all neighbours holds of the reports of the rule. -/
theorem exists_check_of_pairs (h : source.WellFormed) (packages : Packages) {P : Diagnostic → Prop}
    (hpairs : ∀ L s t D, source.statements = L ++ s :: t :: D → ∃ ds,
      checkPair source (itemOf source packages s) (itemOf source packages t) = .ok ds ∧
        ∀ d ∈ ds, P d) :
    ∃ ds, rule.check source packages = .ok ds ∧ ∀ d ∈ ds, P d := by
  have hpair : ∀ p ∈ source.statements.zip source.statements.tail, ∃ ds,
      checkPair source (itemOf source packages p.1) (itemOf source packages p.2) = .ok ds ∧
      ∀ d ∈ ds, P d := by
    rintro ⟨s, t⟩ hp
    obtain ⟨L, D, hst⟩ := exists_of_mem_zip_tail hp
    exact hpairs L s t D hst
  choose! reports hreports hP using hpair
  refine ⟨((source.statements.zip source.statements.tail).map reports).flatten, ?_, ?_⟩
  · rw [check_eq_mapM fun s hs => item_eq h packages hs, Checked.mapM_eq_ok hreports]
    rfl
  · intro d hd
    obtain ⟨ds, hds, hd⟩ := List.mem_flatten.1 hd
    obtain ⟨p, hp, rfl⟩ := List.mem_map.1 hds
    exact hP p hp d hd

/-- The reports of the rule: each replaces blanks by blanks. -/
theorem exists_check (h : source.Tidy) (packages : Packages) :
    ∃ ds, rule.check source packages = .ok ds ∧ ∀ d ∈ ds, RespacesAt source d.fix :=
  exists_check_of_pairs h.toWellFormed packages fun _ _ _ _ hst => exists_checkPair h hst _ _

/-- A pass of the rule keeps the statements and comments in order. -/
theorem exists_pass (h : source.Tidy) (packages : Packages) :
    ∃ ds outcome, rule.check source packages = .ok ds ∧
      source.text.applyFixes ds = .ok outcome ∧ (source.after ds).text = outcome.output ∧
      rule.pass packages source = .ok (source.after ds) ∧ (source.after ds).Tidy ∧
      (source.after ds).passages = source.passages ∧ (source.after ds).remarks = source.remarks := by
  obtain ⟨ds, hcheck, hrespaces⟩ := exists_check h packages
  obtain ⟨outcome, happly, htext, hafter, hsteps, -⟩ :=
    h.toWellFormed.exists_outcome (R := Source.Respaces) fun fix hfix => by
      obtain ⟨d, hd, hfix⟩ := List.mem_filterMap.1 hfix
      exact hrespaces d hd fix hfix
  obtain ⟨hpassages, hremarks⟩ := Source.passages_eq_of_respaces hsteps
  have hrewrites : Relation.ReflTransGen (Source.Step Source.Rewrites) source (source.after ds) :=
    hsteps.lift id fun _ _ hstep => hstep.imp Or.inr
  have hblank := (Source.Preserves.of_steps hrewrites).blank_outside
  exact ⟨ds, outcome, hcheck, happly, htext, Rule.pass_eq hcheck happly htext,
    ⟨hafter, hblank h.blank_outside⟩, hpassages, hremarks⟩

end ImportNewlines

end ImportOrder
