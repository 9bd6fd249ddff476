import ImportOrder.Fixing
import ImportOrder.Proofs.Source.Part
import Mathlib.Data.List.Sort
import Mathlib.Logic.Relation

/-!
# Passes over a source

A pass makes the fixes of some reports and leaves out those that conflict with an earlier one. Here
it is followed on sources: statements and comments go along with their texts, and the source after
the pass has as its text what the pass gives out. If every fix exchanges one piece of the source for
another, the pass is a sequence of such exchanges.

## Main definitions

- `Text.chosen`, `Text.appliedFixes`: the fixes that a pass makes
- `Source.after`: the source after a pass
- `Rule.pass`, `Rule.passes`: passes with the reports of one rule
- `Fix.Changes`: a fix that exchanges one piece for another
- `Source.Step`: the exchange of one piece
- `Source.Reworked`: what a list of fixes makes of a source

## Main statements

- `Source.applyEdits_chosen`: a run of edits reworks a source
- `Source.WellFormed.exists_reworked`: a pass over a well-formed source leads to `after`
- `Rule.exists_passes`: passes that lower a measure come to an end
-/

namespace ImportOrder

namespace Text

/-- The edits of a list that are made, each with its fix: one that starts at or before `last`, the
end of the edit made before it, is left out. -/
def chosen : (last : Option Nat) → List (Edit × Fix) → List (Edit × Fix)
  | _, [] => []
  | last, (edit, fix) :: edits =>
    if last.any (edit.span.start ≤ ·) then chosen last edits
    else (edit, fix) :: chosen (some edit.span.stop) edits

/-- The edit into which a fix merges, with the fix. -/
def mergedFix? (text : Text) (fix : Fix) : Option (Edit × Fix) :=
  match fix.merged text with
  | .ok edit => edit.map (·, fix)
  | .error _ => none

/-- The fixes of the reports, each with the edit into which it merges, in the order of their places.
-/
def sortedFixes (text : Text) (diagnostics : List Diagnostic) : List (Edit × Fix) :=
  ((diagnostics.filterMap (·.fix)).filterMap text.mergedFix?).mergeSort fun e f => e.1.precedes f.1

/-- The fixes that a pass makes, in the order of their places. -/
def appliedFixes (text : Text) (diagnostics : List Diagnostic) : List Fix :=
  (chosen none (text.sortedFixes diagnostics)).map (·.2)

/-- The edits into which the fixes of the reports merge. -/
def mergedEdits (text : Text) (diagnostics : List Diagnostic) : List Edit :=
  ((diagnostics.filterMap (·.fix)).filterMap text.mergedFix?).map (·.1)

/-- A pass whose fixes can be merged applies what they merge into, and the others are left out. -/
theorem applyFixes_eq_of_merges {text : Text} {ds : List Diagnostic}
    (h : ∀ fix ∈ ds.filterMap (·.fix), ∃ edit?, fix.merged text = .ok edit?) :
    text.applyFixes ds = (do
      let outcome ← text.applyEdits 0 none ((text.mergedEdits ds).mergeSort Edit.precedes)
      return { outcome with
        skipped := outcome.skipped +
          ((ds.filterMap (·.fix)).length - (text.mergedEdits ds).length) }) := by
  have hmerged : (ds.filterMap (·.fix)).mapM (·.merged text) =
      .ok ((ds.filterMap (·.fix)).map fun fix => (text.mergedFix? fix).map (·.1)) := by
    apply Checked.mapM_eq_ok
    intro fix hfix
    obtain ⟨edit?, hedit?⟩ := h fix hfix
    rw [mergedFix?, hedit?]
    cases edit? <;> rfl
  have hedits : ((ds.filterMap (·.fix)).map fun fix => (text.mergedFix? fix).map (·.1)).filterMap
      id = text.mergedEdits ds := by
    rw [mergedEdits, List.filterMap_map, List.map_filterMap]
    rfl
  rw [applyFixes, hmerged, Checked.ok_bind, hedits]

end Text

/-- The source after a pass. The last fix is made first, so that the places of the others stay. -/
def Source.after (source : Source) (diagnostics : List Diagnostic) : Source :=
  (source.text.appliedFixes diagnostics).foldr (fun fix next => next.amended fix) source

namespace Rule

/-- One pass with the reports of a rule: the text that the pass gives out, with the statements and
comments at the places where their texts have gone. -/
def pass (rule : Rule) (packages : Packages) (source : Source) : Checked Source := do
  let diagnostics ← rule.check source packages
  let outcome ← source.text.applyFixes diagnostics
  return { source.after diagnostics with text := outcome.output }

/-- A number of passes with the reports of a rule. -/
def passes (rule : Rule) (packages : Packages) : Nat → Source → Checked Source
  | 0, source => .ok source
  | n + 1, source => do
    let next ← rule.pass packages source
    passes rule packages n next

end Rule

/-- A fix of a source that exchanges one piece of it for another. -/
structure Fix.Changes (fix : Fix) (source front old new back : Source) : Prop where
  /-- The source falls into three pieces. -/
  eq : source = front ++ old ++ back
  /-- The first piece is well-formed. -/
  front_wellFormed : front.WellFormed
  /-- The piece that goes is well-formed. -/
  old_wellFormed : old.WellFormed
  /-- The piece that comes is well-formed. -/
  new_wellFormed : new.WellFormed
  /-- The last piece is well-formed. -/
  back_wellFormed : back.WellFormed
  /-- The edits of the fix merge into the exchange of the two texts. -/
  merged : fix.merged source.text =
    .ok (some ⟨⟨front.size, front.size + old.size⟩, new.text⟩)
  /-- The fix takes along statements and comments, whatever comes behind. -/
  amended : ∀ back' : Source, back'.WellFormed →
    (front ++ old ++ back').amended fix = front ++ new ++ back'

/-- A report whose fix exchanges one piece of a source for another in some way. -/
def Diagnostic.Mends (diagnostic : Diagnostic) (source : Source)
    (P : (front old new back : Source) → Prop) : Prop :=
  ∃ fix, diagnostic.fix = some fix ∧ ∃ front old new back,
    fix.Changes source front old new back ∧ P front old new back

namespace Source

/-- The exchange of one piece for another that is related to it. -/
inductive Step (R : Source → Source → Prop) : Source → Source → Prop where
  /-- The piece `old` is exchanged for `new`. -/
  | exchange {front old new back : Source} (hfront : front.WellFormed) (hold : old.WellFormed)
      (hnew : new.WellFormed) (hback : back.WellFormed) (h : R old new) :
      Step R (front ++ old ++ back) (front ++ new ++ back)

/-- What a list of fixes makes of a source: between the pieces that are kept, every fix exchanges a
piece for another in some way that depends on what is kept in front of it. -/
inductive Reworked (P : Fix → (kept old new : Source) → Prop) :
    List Fix → Source → Source → Prop where
  /-- Without a fix everything is kept. -/
  | keep {source : Source} (h : source.WellFormed) : Reworked P [] source source
  /-- A fix exchanges the piece `old` for `new`, and the others rework what comes behind. -/
  | exchange {fix : Fix} {fixes : List Fix} {kept old new back back' : Source}
      (hkept : kept.WellFormed) (hold : old.WellFormed) (hnew : new.WellFormed)
      (hback : back.WellFormed) (h : P fix kept old new) (hrest : Reworked P fixes back back') :
      Reworked P (fix :: fixes) (kept ++ (old ++ back)) (kept ++ (new ++ back'))

variable {R : Source → Source → Prop} {P : Fix → (kept old new : Source) → Prop}
  {source s t : Source}

theorem Step.append_left {front : Source} (hfront : front.WellFormed) (h : Step R s t) :
    Step R (front ++ s) (front ++ t) := by
  obtain ⟨hfront', hold, hnew, hback, h⟩ := h
  simp only [← append_assoc]
  exact .exchange (hfront.append hfront') hold hnew hback h

theorem Step.imp {R' : Source → Source → Prop} (hR : ∀ {old new}, R old new → R' old new)
    (h : Step R s t) : Step R' s t := by
  obtain ⟨hfront, hold, hnew, hback, h⟩ := h
  exact .exchange hfront hold hnew hback (hR h)

/-- Exchanges behind a piece are exchanges of the whole. -/
theorem reflTransGen_append_left {front : Source} (hfront : front.WellFormed)
    (h : Relation.ReflTransGen (Step R) s t) :
    Relation.ReflTransGen (Step R) (front ++ s) (front ++ t) :=
  h.lift (front ++ ·) fun _ _ => Step.append_left hfront

namespace Reworked

variable {fixes : List Fix}

theorem wellFormed (h : Reworked P fixes s t) : t.WellFormed := by
  induction h with
  | keep h => exact h
  | exchange hkept _ hnew _ _ _ ih => exact hkept.append (hnew.append ih)

theorem steps (hPR : ∀ {fix kept old new}, P fix kept old new → R old new)
    (h : Reworked P fixes s t) : Relation.ReflTransGen (Step R) s t := by
  induction h with
  | keep => exact .refl
  | @exchange _ _ kept old new back _ hkept hold hnew hback h _ ih =>
    have hfirst : Step R (kept ++ (old ++ back)) (kept ++ (new ++ back)) := by
      rw [← append_assoc, ← append_assoc]
      exact .exchange hkept hold hnew hback (hPR h)
    have hlater := reflTransGen_append_left (hkept.append hnew) ih
    rw [append_assoc, append_assoc] at hlater
    exact .head hfirst hlater

end Reworked

/-- A run of edits behind the piece `front` reworks the piece `rest`. -/
theorem applyEdits_chosen
    (hP : ∀ fix front kept old new, front.WellFormed → P fix (front ++ kept) old new →
      P fix kept old new)
    {edits : List (Edit × Fix)}
    (hedits : ∀ e ∈ edits, ∃ a old new d : Source, e.2.Changes source a old new d ∧
      e.1 = ⟨⟨a.size, a.size + old.size⟩, new.text⟩ ∧ P e.2 a old new)
    {front rest : Source} (last : Option Nat) (hfront : front.WellFormed) (hrest : rest.WellFormed)
    (hsource : source = front ++ rest)
    (hlast : ∀ n, last.any (n ≤ ·) = false → front.size ≤ n) :
    ∃ outcome rest', source.text.applyEdits front.size last (edits.map (·.1)) = .ok outcome ∧
      (Text.chosen last edits).foldr (fun e next => next.amended e.2) source = front ++ rest' ∧
      outcome.output = rest'.text ∧ outcome.applied = (Text.chosen last edits).length ∧
      Reworked P ((Text.chosen last edits).map (·.2)) rest rest' := by
  induction edits generalizing front rest last with
  | nil =>
    refine ⟨⟨rest.text, 0, 0⟩, rest, ?_, hsource, rfl, rfl, .keep hrest⟩
    have hslice : source.text.sliceFrom front.size = .ok rest.text := by
      rw [hsource]
      exact Text.sliceFrom_append front.text rest.text
    simp only [List.map_nil, Text.applyEdits, hslice]
    rfl
  | cons e edits ih =>
    have ih := @ih fun e he => hedits e (List.mem_cons_of_mem _ he)
    obtain ⟨edit, fix⟩ := e
    by_cases hskip : last.any (edit.span.start ≤ ·) = true
    · obtain ⟨outcome, rest', heq, hchosen, hout, happlied, hreworked⟩ :=
        ih last hfront hrest hsource hlast
      refine ⟨{ outcome with skipped := outcome.skipped + 1 }, rest', ?_, ?_, hout, ?_, ?_⟩
      · simp only [List.map_cons, Text.applyEdits, if_pos hskip, heq]
        rfl
      · rw [Text.chosen, if_pos hskip, hchosen]
      · rw [Text.chosen, if_pos hskip]
        exact happlied
      · rw [Text.chosen, if_pos hskip]
        exact hreworked
    · obtain ⟨a, old, new, d, hfix, rfl, hchange⟩ := hedits (edit, fix) List.mem_cons_self
      have ha := hfix.front_wellFormed
      have hold := hfix.old_wellFormed
      have hd := hfix.back_wellFormed
      -- the edit starts behind what is done, so that the part in between is kept
      have hpieces : front ++ rest = a ++ (old ++ d) := by
        rw [← hsource, hfix.eq, append_assoc]
      obtain ⟨k, hk, rfl, rfl⟩ := append_split hfront hrest ha hpieces
        (hlast a.size (by simpa using hskip))
      obtain ⟨outcome, d', heq, hchosen, hout, happlied, hreworked⟩ :=
        ih (some (front ++ k ++ old).size) (ha.append hold) hd hfix.eq
          (fun n hn => by simp at hn ⊢; omega)
      have hkept : source.text.slice ⟨front.size, (front ++ k).size⟩ = .ok k.text := by
        rw [hsource, size_append]
        simp only [text_append, ← List.append_assoc]
        rw [List.append_assoc (front.text ++ k.text)]
        exact Text.slice_append front.text k.text (old.text ++ d.text)
      refine ⟨{ outcome with
        output := k.text ++ new.text ++ outcome.output
        applied := outcome.applied + 1 }, k ++ (new ++ d'), ?_, ?_, ?_, ?_, ?_⟩
      · simp only [List.map_cons, Text.applyEdits, if_neg hskip, hkept]
        rw [← size_append, heq]
        rfl
      · rw [Text.chosen, if_neg hskip, List.foldr_cons]
        simp only [← size_append]
        rw [hchosen, hfix.amended d' hreworked.wellFormed, append_assoc, append_assoc]
      · simp [hout]
      · rw [Text.chosen, if_neg hskip]
        simp only [← size_append]
        rw [List.length_cons, happlied]
      · rw [Text.chosen, if_neg hskip, List.map_cons]
        simp only [← size_append]
        exact .exchange hk hold hfix.new_wellFormed hd (hP _ _ _ _ _ hfront hchange) hreworked

section Pass

variable {ds : List Diagnostic} {Q : (front old new back : Source) → Prop}

theorem exists_changes (hds : ∀ d ∈ ds, d.Mends source Q) :
    ∀ fix ∈ ds.filterMap (·.fix), ∃ front old new back,
      fix.Changes source front old new back ∧ Q front old new back := by
  intro fix hfix
  obtain ⟨d, hd, heq⟩ := List.mem_filterMap.1 hfix
  obtain ⟨fix', heq', hchanges⟩ := hds d hd
  obtain rfl : fix' = fix := Option.some.inj (heq'.symm.trans heq)
  exact hchanges

theorem filterMap_fix_ne_nil (hds : ∀ d ∈ ds, d.Mends source Q) (hne : ds ≠ []) :
    ds.filterMap (·.fix) ≠ [] := by
  obtain ⟨d, hd⟩ := List.exists_mem_of_ne_nil ds hne
  obtain ⟨fix, hfix, -⟩ := hds d hd
  exact List.ne_nil_of_mem (List.mem_filterMap.2 ⟨d, hd, hfix⟩)

theorem after_eq (source : Source) (ds : List Diagnostic) :
    source.after ds =
      (Text.chosen none (source.text.sortedFixes ds)).foldr (fun e next => next.amended e.2)
        source := by
  rw [after, Text.appliedFixes, List.foldr_map]

theorem mergedFix?_of_changes {fix : Fix} {front old new back : Source}
    (h : fix.Changes source front old new back) :
    source.text.mergedFix? fix = some (⟨⟨front.size, front.size + old.size⟩, new.text⟩, fix) := by
  rw [Text.mergedFix?, h.merged]
  rfl

/-- Every fix of the reports is among those in order, with the edit into which it merges. -/
theorem mem_sortedFixes {Q : Fix → (front old new back : Source) → Prop}
    (hds : ∀ fix ∈ ds.filterMap (·.fix), ∃ front old new back,
      fix.Changes source front old new back ∧ Q fix front old new back) :
    ∀ e ∈ source.text.sortedFixes ds, ∃ front old new back, e.2.Changes source front old new back ∧
      e.1 = ⟨⟨front.size, front.size + old.size⟩, new.text⟩ ∧ Q e.2 front old new back := by
  intro e he
  obtain ⟨fix, hfix, heq⟩ := List.mem_filterMap.1 (List.mem_mergeSort.1 he)
  obtain ⟨front, old, new, back, hchanges, hQ⟩ := hds fix hfix
  rw [mergedFix?_of_changes hchanges, Option.some.injEq] at heq
  subst heq
  exact ⟨front, old, new, back, hchanges, rfl, hQ⟩

/-- No fix of the reports is lost when they are put in order. -/
theorem length_sortedFixes (hds : ∀ fix ∈ ds.filterMap (·.fix), ∃ front old new back,
      fix.Changes source front old new back) :
    (source.text.sortedFixes ds).length = (ds.filterMap (·.fix)).length := by
  rw [Text.sortedFixes, List.length_mergeSort]
  apply List.filterMap_length_eq_length.2
  intro fix hfix
  obtain ⟨front, old, new, back, hchanges⟩ := hds fix hfix
  rw [mergedFix?_of_changes hchanges]
  rfl

theorem applyFixes_eq (hds : ∀ fix ∈ ds.filterMap (·.fix), ∃ front old new back,
      fix.Changes source front old new back) :
    source.text.applyFixes ds =
      source.text.applyEdits 0 none ((source.text.sortedFixes ds).map (·.1)) := by
  have hmerges : ∀ fix ∈ ds.filterMap (·.fix), ∃ edit?, fix.merged source.text = .ok edit? := by
    intro fix hfix
    obtain ⟨front, old, new, back, hchanges⟩ := hds fix hfix
    exact ⟨_, hchanges.merged⟩
  have hsorted : (source.text.mergedEdits ds).mergeSort Edit.precedes =
      (source.text.sortedFixes ds).map (·.1) := by
    rw [Text.mergedEdits, Text.sortedFixes, List.map_mergeSort]
    exact fun _ _ _ _ => rfl
  have hlength : (ds.filterMap (·.fix)).length - (source.text.mergedEdits ds).length = 0 := by
    have := length_sortedFixes hds
    rw [Text.sortedFixes, List.length_mergeSort] at this
    rw [Text.mergedEdits, List.length_map, this, Nat.sub_self]
  rw [Text.applyFixes_eq_of_merges hmerges, hsorted, hlength]
  cases source.text.applyEdits 0 none ((source.text.sortedFixes ds).map (·.1)) <;> rfl

/-- A pass whose fixes exchange pieces succeeds, and the fixes that it makes rework the source. -/
theorem WellFormed.exists_reworked (h : source.WellFormed)
    (hP : ∀ fix front kept old new, front.WellFormed → P fix (front ++ kept) old new →
      P fix kept old new)
    (hds : ∀ fix ∈ ds.filterMap (·.fix), ∃ front old new back,
      fix.Changes source front old new back ∧ P fix front old new) :
    ∃ outcome, source.text.applyFixes ds = .ok outcome ∧
      (source.after ds).text = outcome.output ∧
      outcome.applied = (source.text.appliedFixes ds).length ∧
      Reworked P (source.text.appliedFixes ds) source (source.after ds) := by
  obtain ⟨outcome, next, heq, hchosen, hout, happlied, hreworked⟩ :=
    applyEdits_chosen hP (mem_sortedFixes (Q := fun fix front old new _ => P fix front old new) hds)
      none (wellFormed_ofText []) h (ofText_nil_append source).symm fun n _ => Nat.zero_le n
  rw [ofText_nil_append, ← after_eq] at hchosen
  rw [hchosen]
  refine ⟨outcome, ?_, hout.symm, ?_, hreworked⟩
  · rw [applyFixes_eq fun fix hfix => ?_]
    · exact heq
    · obtain ⟨front, old, new, back, hchanges, -⟩ := hds fix hfix
      exact ⟨front, old, new, back, hchanges⟩
  · rw [happlied, Text.appliedFixes, List.length_map]

/-- A pass whose fixes exchange pieces succeeds, and it is a sequence of exchanges. -/
theorem WellFormed.exists_outcome (h : source.WellFormed)
    (hds : ∀ fix ∈ ds.filterMap (·.fix), ∃ front old new back,
      fix.Changes source front old new back ∧ R old new) :
    ∃ outcome, source.text.applyFixes ds = .ok outcome ∧
      (source.after ds).text = outcome.output ∧ (source.after ds).WellFormed ∧
      Relation.ReflTransGen (Step R) source (source.after ds) ∧
      outcome.applied = (source.text.appliedFixes ds).length := by
  obtain ⟨outcome, happly, htext, happlied, hreworked⟩ :=
    h.exists_reworked (P := fun _ _ old new => R old new) (fun _ _ _ _ _ _ hR => hR) hds
  exact ⟨outcome, happly, htext, hreworked.wellFormed, hreworked.steps id, happlied⟩

/-- The first fix of a pass is made as it is, and the others are made behind it. -/
theorem exists_first_change (hQR : ∀ {front old new back}, Q front old new back → R old new)
    (hds : ∀ fix ∈ ds.filterMap (·.fix), ∃ front old new back,
      fix.Changes source front old new back ∧ Q front old new back)
    (hne : ds.filterMap (·.fix) ≠ []) :
    source.text.appliedFixes ds ≠ [] ∧
    ∃ (fix : Fix) (front old new back back' : Source), fix.Changes source front old new back ∧
      Q front old new back ∧ back'.WellFormed ∧ Relation.ReflTransGen (Step R) back back' ∧
      source.after ds = front ++ new ++ back' := by
  have hmem := mem_sortedFixes (Q := fun _ => Q) hds
  have hlength := length_sortedFixes fun fix hfix => by
    obtain ⟨front, old, new, back, hchanges, -⟩ := hds fix hfix
    exact ⟨front, old, new, back, hchanges⟩
  rw [Text.appliedFixes, after_eq]
  cases hsorted : source.text.sortedFixes ds with
  | nil =>
    rw [hsorted, List.length_nil, eq_comm, List.length_eq_zero_iff] at hlength
    exact absurd hlength hne
  | cons e edits =>
    rw [hsorted] at hmem
    obtain ⟨edit, fix⟩ := e
    obtain ⟨front, old, new, back, hchanges, rfl, hQ⟩ := hmem (edit, fix) List.mem_cons_self
    have hothers : ∀ e ∈ edits, ∃ a old new d : Source, e.2.Changes source a old new d ∧
        e.1 = ⟨⟨a.size, a.size + old.size⟩, new.text⟩ ∧ R old new := by
      intro e he
      obtain ⟨a, old', new', d, hfix, heq, hQ'⟩ := hmem e (List.mem_cons_of_mem _ he)
      exact ⟨a, old', new', d, hfix, heq, hQR hQ'⟩
    obtain ⟨-, back', -, hchosen, -, -, hreworked⟩ :=
      applyEdits_chosen (P := fun _ _ old new => R old new) (fun _ _ _ _ _ _ hR => hR) hothers
        (some (front ++ old).size)
        (hchanges.front_wellFormed.append hchanges.old_wellFormed) hchanges.back_wellFormed
        hchanges.eq fun n hn => by simp at hn ⊢; omega
    have hback' := hreworked.wellFormed
    refine ⟨by simp [Text.chosen], fix, front, old, new, back, back', hchanges, hQ, hback',
      hreworked.steps id, ?_⟩
    simp only [Text.chosen, Option.any_none, Bool.false_eq_true, if_false, List.foldr_cons]
    rw [← size_append, hchosen, hchanges.amended back' hback']

end Pass

end Source

theorem Text.applyFixes_singleton {text : Text} {d : Diagnostic} {fix : Fix} {edit : Edit}
    (hfix : d.fix = some fix) (hmerged : fix.merged text = .ok (some edit)) :
    text.applyFixes [d] = text.applyEdits 0 none [edit] := by
  simp only [applyFixes, List.filterMap_cons, List.filterMap_nil, hfix, List.mapM_cons,
    List.mapM_nil, hmerged, bind, Except.bind, pure, Except.pure, id, List.mergeSort_singleton,
    List.length_singleton, Nat.sub_self, Nat.add_zero]
  cases text.applyEdits 0 none [edit] <;> rfl

theorem Text.appliedFixes_singleton {text : Text} {d : Diagnostic} {fix : Fix} {edit : Edit}
    (hfix : d.fix = some fix) (hmerged : fix.merged text = .ok (some edit)) :
    text.appliedFixes [d] = [fix] := by
  simp [appliedFixes, sortedFixes, mergedFix?, hfix, hmerged, List.mergeSort_singleton, chosen]

/-- Edits that do not touch each other are all made. -/
theorem Text.chosen_of_separated {edits : List (Edit × Fix)} {last : Option Nat}
    (hseparated : edits.Pairwise fun e f => e.1.span.stop < f.1.span.start)
    (hlast : ∀ e ∈ edits, last.all (· < e.1.span.start) = true) : chosen last edits = edits := by
  induction edits generalizing last with
  | nil => rfl
  | cons e edits ih =>
    rw [List.pairwise_cons] at hseparated
    have hfirst := hlast e List.mem_cons_self
    have hmade : ¬ last.any (e.1.span.start ≤ ·) = true := by
      cases last with
      | none => simp
      | some n => simpa using hfirst
    rw [chosen, if_neg hmade, ih hseparated.2 fun f hf => by simpa using hseparated.1 f hf]

theorem Text.appliedFixes_of_separated {text : Text} {ds : List Diagnostic}
    {edits : List (Edit × Fix)}
    (hmerged : (ds.filterMap (·.fix)).filterMap text.mergedFix? = edits)
    (hseparated : edits.Pairwise fun e f => e.1.span.stop < f.1.span.start)
    (hroom : ∀ e ∈ edits, e.1.span.start ≤ e.1.span.stop) :
    text.appliedFixes ds = edits.map (·.2) := by
  have hsorted : edits.Pairwise fun e f => e.1.precedes f.1 = true := by
    apply hseparated.imp_of_mem
    intro e f he _ hlt
    have := hroom e he
    rw [Edit.precedes, decide_eq_true (by omega : e.1.span.start < f.1.span.start), Bool.true_or]
  rw [appliedFixes, sortedFixes, hmerged, List.mergeSort_of_pairwise hsorted,
    chosen_of_separated hseparated fun _ _ => rfl]

theorem Rule.pass_eq {rule : Rule} {packages : Packages} {source : Source} {ds : List Diagnostic}
    {outcome : FixOutcome} (hcheck : rule.check source packages = .ok ds)
    (happly : source.text.applyFixes ds = .ok outcome)
    (htext : (source.after ds).text = outcome.output) :
    rule.pass packages source = .ok (source.after ds) := by
  rw [pass, hcheck]
  simp only [bind, Except.bind, happly, ← htext]
  rfl

/-- Passes that lower a measure as long as there is a report end without one. -/
theorem Rule.exists_passes (rule : Rule) (packages : Packages) (Inv : Source → Prop)
    (measure : Source → Nat)
    (hpass : ∀ source, Inv source → ∃ ds, rule.check source packages = .ok ds ∧
      (ds ≠ [] → ∃ next, rule.pass packages source = .ok next ∧ Inv next ∧
        measure next < measure source))
    {source : Source} (h : Inv source) :
    ∃ n final, n ≤ measure source ∧ rule.passes packages n source = .ok final ∧ Inv final ∧
      rule.check final packages = .ok [] := by
  induction hm : measure source using Nat.strong_induction_on generalizing source with
  | _ m ih =>
    obtain ⟨ds, hcheck, hlower⟩ := hpass source h
    by_cases hds : ds = []
    · exact ⟨0, source, Nat.zero_le _, rfl, h, hds ▸ hcheck⟩
    · obtain ⟨next, hnext, hinv, hlt⟩ := hlower hds
      obtain ⟨n, final, hn, hfinal, hrest⟩ := ih (measure next) (hm ▸ hlt) hinv rfl
      refine ⟨n + 1, final, by omega, ?_, hrest⟩
      rw [passes, hnext]
      exact hfinal

end ImportOrder
