import ImportOrder.Proofs.AttachedRange
import ImportOrder.Proofs.Order.StableSort
import ImportOrder.Proofs.Pass
import ImportOrder.Proofs.Source.Passage
import ImportOrder.Proofs.Text.Edits

/-!
# Relocations

A relocation to the front exchanges two neighbouring pieces of a source. If the moved piece is the
range of a statement, one passage goes in front of some others and everything else stays in order.

## Main definitions

- `Source.Moves`: the exchange of a piece with one statement and a piece in front of it
- `Diagnostic.Relocates`: a report that moves the range of a statement
- `Rule.Tears`: a pass after which a statement cannot be found any more

## Main statements

- `Fix.relocate_changes`: a relocation merges into the exchange of two pieces
- `Source.WellFormed.exists_relocation_of_clear`: a relocation between clear offsets
- `Source.WellFormed.exists_relocation`: the relocation of the range of a statement
-/

namespace ImportOrder

section Pieces

variable {a b c d : Source}

/-- A relocation to the front merges into the exchange of two pieces. -/
theorem Fix.relocate_changes (ha : a.WellFormed) (hb : b.WellFormed) (hc : c.WellFormed)
    (hd : d.WellFormed) (hpos : 0 < b.size) :
    ∃ fix, Fix.relocate (a ++ (b ++ c) ++ d).text
        ⟨a.size + b.size, a.size + b.size + c.size⟩ a.size = .ok fix ∧
      fix.Changes (a ++ (b ++ c) ++ d) a (b ++ c) (c ++ b) d := by
  have htext : (a ++ (b ++ c) ++ d).text = a.text ++ b.text ++ c.text ++ d.text := by simp
  have hmoved : (a ++ (b ++ c) ++ d).text.slice ⟨a.size + b.size, a.size + b.size + c.size⟩ =
      .ok c.text := by
    rw [htext]
    exact Text.slice_eq_ok_iff.2 ⟨a.text ++ b.text, d.text, rfl, by simp [Source.size],
      by simp [Source.size]⟩
  have hpassed : (a ++ (b ++ c) ++ d).text.slice ⟨a.size, a.size + b.size⟩ = .ok b.text := by
    rw [htext]
    exact Text.slice_eq_ok_iff.2 ⟨a.text, c.text ++ d.text, by simp, rfl, rfl⟩
  have hnone : (a ++ (b ++ c) ++ d).text.slice ⟨a.size, a.size⟩ = .ok [] := by
    rw [htext]
    exact Text.slice_eq_ok_iff.2 ⟨a.text, b.text ++ c.text ++ d.text, by simp, rfl, rfl⟩
  have hend : (a ++ (b ++ c) ++ d).text.slice
      ⟨a.size + b.size + c.size, a.size + b.size + c.size⟩ = .ok [] := by
    rw [htext]
    exact Text.slice_eq_ok_iff.2 ⟨a.text ++ b.text ++ c.text, d.text, by simp,
      by simp [Source.size, Nat.add_assoc], by simp [Source.size, Nat.add_assoc]⟩
  refine ⟨⟨[Edit.remove ⟨a.size + b.size, a.size + b.size + c.size⟩,
    Edit.insertAt a.size c.text]⟩, ?_, ⟨rfl, ha, hb.append hc, hc.append hb, hd, ?_, ?_⟩⟩
  · rw [Fix.relocate, hmoved]
    rfl
  · have hfurthest : max (max 0 a.size) (a.size + b.size + c.size) = a.size + b.size + c.size := by
      omega
    rw [Fix.merged, Fix.mergeSort_relocation ⟨Nat.le_add_right _ _, by simp only; omega⟩]
    simp only [Edit.remove, Edit.insertAt, Span.at, Fix.furthest, List.foldl_cons, List.foldl_nil,
      hfurthest, Fix.splice, Nat.lt_irrefl, if_false, hnone, hpassed, hend, bind, Except.bind,
      show ¬ a.size + b.size < a.size by omega]
    simp [pure, Except.pure, Nat.add_assoc]
  · intro d' hd'
    rw [Source.amended]
    exact Source.relocated_append ha hb hc hd'

end Pieces

namespace Source

/-- The exchange of a piece with one statement and a piece in front of it, all of whose statements
stand above the moved one in some sense. -/
inductive Moves (above : Passage → Passage → Prop) : Source → Source → Prop where
  /-- The piece `c` moves in front of the piece `b`. -/
  | move {b c : Source} {x : Passage} (hb : b.WellFormed) (hc : c.WellFormed)
      (hx : c.passages = [x]) (hne : b.passages ≠ []) (habove : ∀ y ∈ b.passages, above y x) :
      Moves above (b ++ c) (c ++ b)

section Steps

variable {above : Passage → Passage → Prop} {s t : Source}

/-- The exchange of a statement and what stands in front of it is a move of its passage. -/
theorem Step.hoist (h : Step (Moves above) s t) : Hoist above s.passages t.passages := by
  obtain ⟨hfront, hold, hnew, hback, hb, hc, hx, -, habove⟩ := h
  rw [passages_append (hfront.append hold), passages_append hfront, passages_append hb,
    passages_append (hfront.append hnew), passages_append hfront, passages_append hc, hx]
  simpa using Hoist.hoist _ _ _ _ habove

theorem Step.hashbangOutside (h : Step (Moves above) s t) (hs : s.HashbangOutside) :
    t.HashbangOutside := by
  obtain ⟨hfront, hold, hnew, hback, hb, hc, -, -, -⟩ := h
  rw [hashbangOutside_append (hfront.append hold), hashbangOutside_append hfront,
    hashbangOutside_append hb] at hs
  rw [hashbangOutside_append (hfront.append hnew), hashbangOutside_append hfront,
    hashbangOutside_append hc]
  tauto

end Steps

variable {source : Source}

/-- A part of a source between clear offsets can be relocated to a clear offset in front of it. -/
theorem WellFormed.exists_relocation_of_clear (h : source.WellFormed) {range : Span} {n : Nat}
    (hn : source.Clear n) (hstart : source.Clear range.start) (hstop : source.Clear range.stop)
    (hlt : n < range.start) (hle : range.start ≤ range.stop) :
    ∃ (fix : Fix) (a b c d : Source), Fix.relocate source.text range n = .ok fix ∧
      fix.Changes source a (b ++ c) (c ++ b) d ∧ b.WellFormed ∧ c.WellFormed ∧ a.size = n ∧
      a.size + b.size = range.start ∧ a.size + b.size + c.size = range.stop := by
  -- the source is cut behind the range, then in front of it, and then at the offset
  obtain ⟨x, d, rfl, hxsize, hx, hd⟩ := h.exists_append hstop
  obtain ⟨y, c, rfl, hysize, hy, hc⟩ := hx.exists_append (hstart.left (by omega))
  rw [append_assoc] at hn
  obtain ⟨a, b, rfl, rfl, ha, hb⟩ := hy.exists_append (hn.left (by omega))
  simp only [size_append] at hxsize hysize
  obtain ⟨fix, hfix, hchanges⟩ := Fix.relocate_changes ha hb hc hd (by omega)
  have hpieces : a ++ (b ++ c) ++ d = a ++ b ++ c ++ d := by simp only [append_assoc]
  rw [hpieces, hxsize, hysize] at hfix
  rw [hpieces] at hchanges
  exact ⟨fix, a, b, c, d, hfix, hchanges, hb, hc, rfl, hysize, hxsize⟩

theorem passages_of_append {a b : Source} (ha : a.WellFormed) (hb : b.WellFormed)
    {S T : List Statement} {P Q : List Passage} (hst : (a ++ b).statements = S ++ T)
    (hpq : (a ++ b).passages = P ++ Q) (hlen : P.length = S.length)
    (hS : ∀ s ∈ S, s.span.stop ≤ a.size) (hT : ∀ s ∈ T, a.size ≤ s.span.start) :
    a.statements = S ∧ a.passages = P ∧ b.passages = Q := by
  obtain ⟨hS', -⟩ := statements_of_append ha hb hst hS hT
  rw [passages_append ha] at hpq
  obtain ⟨hpa, hpb⟩ := List.append_inj hpq (by rw [passages, hS', List.length_map, hlen])
  exact ⟨hS', hpa, hpb⟩

/-- The range of a statement can be relocated in front of statements before it, and the passages of
the pieces are those of the statements there. -/
theorem WellFormed.exists_relocation (h : source.WellFormed) {L B D : List Statement}
    {s : Statement} (hst : source.statements = L ++ B ++ [s] ++ D) (hne : B ≠ []) {n : Nat}
    (hn : source.Clear n) (hL : ∀ x ∈ L, x.span.stop ≤ n) (hB : ∀ x ∈ B, n ≤ x.span.start) :
    ∃ (fix : Fix) (a b c d : Source),
      Fix.relocate source.text (source.rangeOf s.span).full n = .ok fix ∧
      fix.Changes source a (b ++ c) (c ++ b) d ∧ b.WellFormed ∧ c.WellFormed ∧
      a.passages = L.map source.passage ∧ b.passages = B.map source.passage ∧
      c.passages = [source.passage s] ∧ d.passages = D.map source.passage ∧ a.size = n ∧
      (source.rangeOf s.span).full = ⟨a.size + b.size, a.size + b.size + c.size⟩ := by
  have hspan : ∀ x ∈ L ++ B ++ [s] ++ D, x.span ∈ source.spans := fun x hx =>
    List.mem_map_of_mem (hst ▸ hx)
  have ha := h.attached (hspan s (by simp))
  have hordered := h.spans_ordered
  rw [spans, List.pairwise_map, hst] at hordered
  simp only [List.pairwise_append, List.mem_append, List.mem_singleton, forall_eq] at hordered
  have hfront : ∀ x ∈ L ++ B, x.span.stop ≤ (source.rangeOf s.span).full.start := fun x hx =>
    ha.stop_le_start _ (hspan x (by simp only [List.mem_append] at hx ⊢; tauto))
      (hordered.1.2.2 x (List.mem_append.1 hx))
  have hback : ∀ x ∈ D, (source.rangeOf s.span).full.stop ≤ x.span.start := by
    intro x hx
    have hx' := hspan x (by simp [hx])
    exact ha.full_stop_le h (List.mem_append_left _ hx')
      (ha.stop_le _ hx' (hordered.2.2 s (.inr rfl) x hx))
  have hstart := ha.start_le
  have hstop := ha.le_stop.trans ha.bare_stop_le
  have hroom := h.bounds_span (hspan s (by simp))
  -- the statements in between take up room in front of the range
  have hlt : n < (source.rangeOf s.span).full.start := by
    obtain ⟨t, ht⟩ := List.exists_mem_of_ne_nil B hne
    have := hB t ht
    have := h.bounds_span (hspan t (by simp [ht]))
    have := hfront t (by simp [ht])
    omega
  have hpassages : source.passages =
      (L ++ B ++ [s]).map source.passage ++ D.map source.passage := by
    rw [passages, hst, List.map_append]
  obtain ⟨fix, a, b, c, d, hfix, hchanges, hb, hc, hasize, hbsize, hcsize⟩ :=
    h.exists_relocation_of_clear hn ha.clear_start (ha.clear_full_stop h) hlt (by omega)
  have ha' := hchanges.front_wellFormed
  have hst' : (a ++ b ++ c ++ d).statements = L ++ B ++ [s] ++ D := by
    rw [← hst, hchanges.eq, append_assoc a]
  have hpassages' : (a ++ b ++ c ++ d).passages =
      (L ++ B ++ [s]).map source.passage ++ D.map source.passage := by
    rw [← hpassages, hchanges.eq, append_assoc a]
  obtain ⟨hst', hpassages', hdp⟩ := passages_of_append ((ha'.append hb).append hc)
    hchanges.back_wellFormed hst' hpassages' (by simp)
    (fun x hx => by
      simp only [size_append]
      rcases List.mem_append.1 hx with hx | hx
      · have := hfront x hx
        omega
      · obtain rfl := List.mem_singleton.1 hx
        omega)
    (fun x hx => by simpa only [size_append, hcsize] using hback x hx)
  rw [List.map_append] at hpassages'
  obtain ⟨hst', hpassages', hcp⟩ := passages_of_append (ha'.append hb) hc hst' hpassages' (by simp)
    (fun x hx => by simpa only [size_append, hbsize] using hfront x hx)
    (fun x hx => by
      obtain rfl := List.mem_singleton.1 hx
      simpa only [size_append, hbsize] using hstart)
  rw [List.map_append] at hpassages'
  obtain ⟨-, hap, hbp⟩ := passages_of_append ha' hb hst' hpassages' (by simp)
    (fun x hx => hasize ▸ hL x hx) (fun x hx => hasize ▸ hB x hx)
  exact ⟨fix, a, b, c, d, hfix, hchanges, hb, hc, hap, hbp, hcp, hdp, hasize,
    by rw [hcsize, hbsize]⟩

end Source

/-- A report whose fix moves the range of a statement over another to an offset between ranges. -/
def Diagnostic.Relocates (diagnostic : Diagnostic) (source : Source) : Prop :=
  ∃ fix, diagnostic.fix = some fix ∧ ∃ s ∈ source.spans, ∃ t ∈ source.spans, ∃ n,
    source.Between n ∧ n ≤ t.start ∧ t.stop ≤ s.start ∧
    Fix.relocate source.text (source.rangeOf s).full n = .ok fix

/-- A pass of the rule gives out the text of no source that has the same statements. -/
def Rule.Tears (rule : Rule) (source : Source) : Prop :=
  ∃ ds outcome, rule.check source [] = .ok ds ∧ source.text.applyFixes ds = .ok outcome ∧
    ∀ next : Source, next.text = outcome.output → ¬ next.passages.Perm source.passages

theorem Rule.tears_of_absent {rule : Rule} {source : Source} {ds : List Diagnostic}
    {outcome : FixOutcome} {passage : Passage} (hcheck : rule.check source [] = .ok ds)
    (happly : source.text.applyFixes ds = .ok outcome) (hmem : passage ∈ source.passages)
    (habsent : ¬ passage.text <:+: outcome.output) : rule.Tears source :=
  ⟨ds, outcome, hcheck, happly, fun _ htext => Source.not_perm_passages hmem (htext ▸ habsent)⟩

end ImportOrder
