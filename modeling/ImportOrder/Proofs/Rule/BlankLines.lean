import ImportOrder.Proofs.Interspace

/-!
# Blank lines after a fix

The rule on blank lines counts the blank lines of a space by its line terminators, and it inserts
terminators of its own. A fix that removes blank lines leaves one terminator, and two statements on
one line are put apart by two, so that neither leaves anything to fix. A blank line above a
statement is inserted behind the terminator that is there: the fix settles the space as well, unless
a line feed comes to stand behind a carriage return, where the two are one terminator.

## Main definitions

- `Fix.joinsBreak`: a line feed behind a carriage return
- `ImportNewlines.Fixable`: the spaces for which the rule has a fix
- `ImportNewlines.Mending`: what becomes of a space

## Main statements

- `ImportNewlines.exists_removal`, `ImportNewlines.exists_insertion`: the fixes of the rule
- `ImportNewlines.exists_mending`: a space is mended or left alone
-/

namespace ImportOrder

/-- Is every carriage return followed by a line feed? -/
def Text.PairsReturns (text : Text) : Prop :=
  ∀ front rest, text = front ++ '\r' :: rest → rest.head? = some '\n'

/-- Does a fix put a line feed behind a carriage return, where the two are one line terminator? -/
def Fix.joinsBreak (fix : Fix) (text : Text) : Bool :=
  match fix.edits with
  | [edit] =>
    edit.text.head? == some '\n' &&
      (text.take? edit.span.start).any (·.getLast? == some '\r')
  | _ => false

theorem Fix.joinsBreak_iff {front rest : Text} {edit : Edit}
    (hstart : edit.span.start = Text.byteLength front) :
    (⟨[edit]⟩ : Fix).joinsBreak (front ++ rest) = true ↔ ¬ Text.Seam front edit.text := by
  simp only [joinsBreak, hstart, Text.take?_append, Option.any_some, Bool.and_eq_true,
    beq_iff_eq, Text.Seam]
  tauto

theorem Text.not_pairsReturns {u v : Text} (hu : u.getLast? = some '\r')
    (hv : v.head? ≠ some '\n') : ¬ PairsReturns (u ++ v) := by
  intro h
  obtain ⟨front, rfl⟩ := List.getLast?_eq_some_iff.1 hu
  exact hv (h front v (by simp))

namespace ImportNewlines

open Source (ofText)

/-! ## Terminators -/

/-- The terminators that the rule inserts. -/
def Terminates (text : Text) : Prop := text = ['\n'] ∨ text = ['\r', '\n']

theorem exists_terminator (source : Source) {gap : Span} {inGap : Text}
    (hslice : source.slice gap = .ok inGap) :
    ∃ terminator, source.lineBreak gap = .ok terminator ∧ Terminates terminator := by
  rw [Source.lineBreak, hslice]
  refine ⟨_, rfl, ?_⟩
  cases Source.firstBreakIsPair (if inGap.contains '\n' then inGap else source.text) with
  | false => exact .inl rfl
  | true => exact .inr rfl

namespace Terminates

variable {terminator : Text}

theorem breaks_eq (h : Terminates terminator) : Text.breaks terminator = 1 := by
  cases h with
  | inl h => rw [h]; rfl
  | inr h => rw [h]; rfl

theorem seam (h : Terminates terminator) (text : Text) : Text.Seam terminator text := by
  intro hlast
  cases h with
  | inl h => rw [h] at hlast; exact absurd hlast (by decide)
  | inr h => rw [h] at hlast; exact absurd hlast (by decide)

theorem ne_nil (h : Terminates terminator) : terminator ≠ [] := by
  intro hnil
  have := h.breaks_eq
  rw [hnil] at this
  exact absurd this (by decide)

/-- A terminator behind one other makes two, unless they are joined. -/
theorem breaks_above (h : Terminates terminator) {kept line : Text} (hkept : Text.breaks kept = 1)
    (hline : ∀ c ∈ line, Character.isLineBreak c = false) :
    1 ≤ Text.breaks (kept ++ terminator ++ line) ∧
      (Text.breaks (kept ++ terminator ++ line) = 1 ↔ ¬ Text.Seam kept terminator) := by
  have htail : Text.breaks (terminator ++ line) = 1 := by
    rw [Text.breaks_append (h.seam line), Text.breaks_of_unbroken hline, h.breaks_eq]
  have hseam : Text.Seam kept (terminator ++ line) ↔ Text.Seam kept terminator :=
    Text.seam_append_right h.ne_nil line
  rw [List.append_assoc]
  by_cases hjoin : Text.Seam kept terminator
  · rw [Text.breaks_append (hseam.2 hjoin)]
    simp only [hjoin, not_true_eq_false, iff_false]
    omega
  · have := Text.breaks_append_of_join (mt hseam.1 hjoin)
    simp only [hjoin, not_false_eq_true, iff_true]
    omega

end Terminates

/-! ## Fixes -/

/-- A fix that exchanges the piece `old` for `new`, whatever comes behind. -/
structure Replaces (fix : Fix) (source front old new : Source) : Prop where
  /-- The fix merges into an edit of the piece. -/
  merged : ∃ edit, fix.merged source.text = .ok (some edit) ∧ front.size ≤ edit.span.start ∧
    edit.span.start ≤ edit.span.stop ∧ edit.span.stop ≤ front.size + old.size
  /-- The fix takes along statements and comments. -/
  amended : ∀ back : Source, back.WellFormed →
    (front ++ old ++ back).amended fix = front ++ new ++ back

/-- Two pieces, of which the first does not end with a line break and the second does not start with
one. -/
structure Closed (a d : Source) : Prop where
  left_wellFormed : a.WellFormed
  right_wellFormed : d.WellFormed
  left_closed : a.text.endsWithBreak = false
  right_closed : d.text.head?.any Character.isLineBreak = false

section Fixes

variable {a d : Source} {blanks kept line : Text} {left right : Span}

theorem replaces_gap (h : Closed a d) (blanks text : Text) :
    Replaces ⟨[⟨⟨a.size, a.size + Text.byteLength blanks⟩, text⟩]⟩ (a ++ ofText blanks ++ d) a
      (ofText blanks) (ofText text) := by
  have hchanges := Fix.single_changes h.left_wellFormed (Source.wellFormed_ofText blanks)
    h.right_wellFormed text
  exact ⟨⟨_, hchanges.merged, Nat.le_refl _, Nat.le_add_right _ _, Nat.le_refl _⟩,
    hchanges.amended⟩

theorem replaces_above (h : Closed a d) (kept line text : Text) :
    Replaces ⟨[Edit.insertAt (a.size + Text.byteLength kept) text]⟩
      (a ++ ofText (kept ++ line) ++ d) a (ofText (kept ++ line))
      (ofText (kept ++ text ++ line)) := by
  have hkept := h.left_wellFormed.append (Source.wellFormed_ofText kept)
  have hpieces : ∀ back, a ++ ofText kept ++ ofText [] ++ (ofText line ++ back) =
      a ++ ofText (kept ++ line) ++ back := fun back => by
    rw [Source.append_ofText_nil, ← Source.append_assoc, Source.append_assoc a,
      ← Source.ofText_append]
  have hchanges := Fix.single_changes hkept (Source.wellFormed_ofText [])
    ((Source.wellFormed_ofText line).append h.right_wellFormed) text
  rw [hpieces] at hchanges
  have hsize : (a ++ ofText kept).size = a.size + Text.byteLength kept := Source.size_append _ _
  have hedit : Edit.insertAt (a.size + Text.byteLength kept) text =
      ⟨⟨(a ++ ofText kept).size, (a ++ ofText kept).size + (ofText []).size⟩, text⟩ := by
    rw [hsize]
    rfl
  rw [hedit]
  refine ⟨⟨_, hchanges.merged, ?_, Nat.le_add_right _ _, ?_⟩, fun back hback => ?_⟩
  · simp only [hsize]
    omega
  · simp only [hsize, Source.size_ofText, Text.byteLength_append, Text.byteLength_nil]
    omega
  · have hamended :=
      hchanges.amended (ofText line ++ back) ((Source.wellFormed_ofText line).append hback)
    rw [hpieces] at hamended
    rw [hamended, Source.ofText_append, Source.ofText_append]
    simp only [Source.append_assoc]

theorem lineStart_eq (h : Closed a d) (hkept : kept.getLast?.any Character.isLineBreak = true)
    (hline : ∀ c ∈ line, Character.isLineBreak c = false) :
    (a ++ ofText (kept ++ line) ++ d).text.lineStart (a.size + Text.byteLength (kept ++ line)) =
      a.size + Text.byteLength kept := by
  rw [Source.append_assoc]
  exact Text.lineStart_append hline hkept (Text.seam_of_getLast? h.left_closed _)
    (Text.seam_of_head? _ h.right_closed)

theorem joinsBreak_replacement (h : Closed a d) (blanks text : Text) (n : Nat) :
    Fix.joinsBreak ⟨[⟨⟨a.size, n⟩, text⟩]⟩ (a ++ ofText blanks ++ d).text = false := by
  rw [Bool.eq_false_iff, Source.append_assoc, Source.text_append]
  intro hjoins
  exact (Fix.joinsBreak_iff rfl).1 hjoins (Text.seam_of_getLast? h.left_closed _)

/-- A fix that exchanges the blanks behind the piece `a` for others with a line terminator. -/
structure Refills (fix : Fix) (source a : Source) (old new : Text) : Prop
    extends Replaces fix source a (ofText old) (ofText new) where
  /-- There is a line terminator among the new blanks. -/
  breaks_pos : 1 ≤ Text.breaks new
  /-- Terminators are joined only where a carriage return stands alone. -/
  joins_return : fix.joinsBreak source.text = true → ¬ source.text.PairsReturns

theorem right_start_of_gap {source : Source} {m n : Nat}
    (hgap : source.gap? left right = some ⟨m, n⟩) : right.start = n :=
  (congrArg Span.stop (Source.gap?_eq_some hgap).2).symm

theorem slice_gap (a d : Source) (blanks : Text) :
    (a ++ ofText blanks ++ d).slice ⟨a.size, a.size + Text.byteLength blanks⟩ = .ok blanks :=
  Text.slice_append a.text blanks d.text

/-- The fix that removes blank lines leaves one line terminator. -/
theorem exists_removal (h : Closed a d) (hbreaks : 1 ≤ Text.breaks blanks)
    (hgap : (a ++ ofText blanks ++ d).gap? left right =
      some ⟨a.size, a.size + Text.byteLength blanks⟩) :
    ∃ fix new, removalFix (a ++ ofText blanks ++ d) left right = .ok (some fix) ∧
      Refills fix (a ++ ofText blanks ++ d) a blanks new ∧ Text.breaks new = 1 ∧
      fix.joinsBreak (a ++ ofText blanks ++ d).text = false := by
  have hright := right_start_of_gap hgap
  obtain ⟨terminator, hterminator, hterminates⟩ := exists_terminator _ (slice_gap a d blanks)
  cases Text.exists_last_line blanks with
  | inl hall =>
    rw [Text.breaks_of_unbroken hall] at hbreaks
    exact absurd hbreaks (by decide)
  | inr hsplit =>
    obtain ⟨kept, line, rfl, hkept, hline⟩ := hsplit
    have hslice : (a ++ ofText (kept ++ line) ++ d).slice
        ⟨a.size + Text.byteLength kept, a.size + Text.byteLength (kept ++ line)⟩ = .ok line :=
      Text.slice_eq_ok_iff.2 ⟨a.text ++ kept, d.text, by simp, Text.byteLength_append _ _, by
        rw [Text.byteLength_append, Text.byteLength_append, Nat.add_assoc]
        rfl⟩
    have hone : Text.breaks (terminator ++ line) = 1 := by
      rw [Text.breaks_append (hterminates.seam line), hterminates.breaks_eq,
        Text.breaks_of_unbroken hline]
    have hjoins := joinsBreak_replacement h (kept ++ line) (terminator ++ line)
      (a.size + Text.byteLength (kept ++ line))
    refine ⟨_, terminator ++ line, ?_, ⟨replaces_gap h (kept ++ line) (terminator ++ line),
      Nat.le_of_eq hone.symm, fun hjoin => ?_⟩, hone, hjoins⟩
    · simp only [removalFix, hgap, hright, lineStart_eq h hkept hline, hterminator,
        Nat.max_eq_left (Nat.le_add_right a.size _), hslice, Checked.ok_bind]
      rfl
    · rw [hjoins] at hjoin
      exact absurd hjoin Bool.false_ne_true

/-- Two statements on one line are put apart by two line terminators. -/
theorem exists_insertion_inline (h : Closed a d)
    (hblanks : ∀ c ∈ blanks, Character.isLineBreak c = false)
    (hgap : (a ++ ofText blanks ++ d).gap? left right =
      some ⟨a.size, a.size + Text.byteLength blanks⟩) :
    ∃ fix new, insertionFix (a ++ ofText blanks ++ d) left right = .ok (some fix) ∧
      Refills fix (a ++ ofText blanks ++ d) a blanks new ∧ Text.breaks new = 2 ∧
      fix.joinsBreak (a ++ ofText blanks ++ d).text = false := by
  have hright := right_start_of_gap hgap
  obtain ⟨terminator, hterminator, hterminates⟩ := exists_terminator _ (slice_gap a d blanks)
  have hstart : ¬ (a ++ ofText blanks ++ d).text.lineStart
      (a.size + Text.byteLength blanks) > a.size := by
    rw [Source.append_assoc]
    exact Nat.not_lt.2 (Text.lineStart_le_of_unbroken (Text.seam_of_getLast? h.left_closed _)
      (Text.seam_of_head? _ h.right_closed) hblanks)
  have htwo : Text.breaks (terminator ++ terminator) = 2 := by
    rw [Text.breaks_append (hterminates.seam _), hterminates.breaks_eq]
  have hjoins := joinsBreak_replacement h blanks (terminator ++ terminator)
    (a.size + Text.byteLength blanks)
  refine ⟨_, terminator ++ terminator, ?_, ⟨replaces_gap h blanks (terminator ++ terminator),
    by omega, fun hjoin => ?_⟩, htwo, hjoins⟩
  · simp only [insertionFix, hgap, hright, hterminator, Checked.ok_bind, if_neg hstart]
    rfl
  · rw [hjoins] at hjoin
    exact absurd hjoin Bool.false_ne_true

/-- A blank line is put above the second of two statements on neighbouring lines, unless its
terminator is joined with the one in front. -/
theorem exists_insertion_above (h : Closed a d)
    (hkept : kept.getLast?.any Character.isLineBreak = true) (hbreaks : Text.breaks kept = 1)
    (hline : ∀ c ∈ line, Character.isLineBreak c = false)
    (hgap : (a ++ ofText (kept ++ line) ++ d).gap? left right =
      some ⟨a.size, a.size + Text.byteLength (kept ++ line)⟩) :
    ∃ fix new, insertionFix (a ++ ofText (kept ++ line) ++ d) left right = .ok (some fix) ∧
      Refills fix (a ++ ofText (kept ++ line) ++ d) a (kept ++ line) new ∧
      (Text.breaks new = 1 ↔ fix.joinsBreak (a ++ ofText (kept ++ line) ++ d).text = true) := by
  have hright := right_start_of_gap hgap
  obtain ⟨terminator, hterminator, hterminates⟩ :=
    exists_terminator _ (slice_gap a d (kept ++ line))
  have hkept_ne : kept ≠ [] := by
    intro hnil
    rw [hnil] at hkept
    exact absurd hkept (by decide)
  have hstart : a.size + Text.byteLength kept > a.size :=
    Nat.lt_add_of_pos_right
      (Nat.pos_of_ne_zero fun h => hkept_ne ((Text.byteLength_eq_zero_iff kept).1 h))
  have htext : (a ++ ofText (kept ++ line) ++ d).text = a.text ++ kept ++ (line ++ d.text) := by
    simp
  have hjoins : Fix.joinsBreak ⟨[Edit.insertAt (a.size + Text.byteLength kept) terminator]⟩
      (a ++ ofText (kept ++ line) ++ d).text = true ↔ ¬ Text.Seam kept terminator := by
    rw [htext, Fix.joinsBreak_iff (Text.byteLength_append _ _).symm]
    exact not_congr (Text.seam_append_left a.text hkept_ne terminator)
  obtain ⟨hpos, hone⟩ := hterminates.breaks_above hbreaks hline
  refine ⟨_, kept ++ terminator ++ line, ?_, ⟨replaces_above h kept line terminator, hpos, ?_⟩,
    hone.trans hjoins.symm⟩
  · simp only [insertionFix, hgap, hright, hterminator, Checked.ok_bind,
      lineStart_eq h hkept hline, if_pos hstart]
    rfl
  · intro hjoin
    have hreturn : kept.getLast? = some '\r' := (Classical.not_imp.1 (hjoins.1 hjoin)).1
    rw [htext]
    apply Text.not_pairsReturns
    · rw [List.getLast?_append_of_ne_nil _ hkept_ne, hreturn]
    · -- what follows is the rest of the line or, if there is none, the next piece
      cases line with
      | nil =>
        exact Text.seam_of_head? kept h.right_closed hreturn
      | cons c line =>
        intro hhead
        rw [List.cons_append, List.head?_cons, Option.some.injEq] at hhead
        exact absurd (hline c List.mem_cons_self) (by rw [hhead]; decide)

theorem exists_insertion (h : Closed a d) (hbreaks : Text.breaks blanks ≤ 1)
    (hgap : (a ++ ofText blanks ++ d).gap? left right =
      some ⟨a.size, a.size + Text.byteLength blanks⟩) :
    ∃ fix new, insertionFix (a ++ ofText blanks ++ d) left right = .ok (some fix) ∧
      Refills fix (a ++ ofText blanks ++ d) a blanks new ∧
      (Text.breaks new = 1 ↔ fix.joinsBreak (a ++ ofText blanks ++ d).text = true) := by
  cases Text.exists_last_line blanks with
  | inl hall =>
    obtain ⟨fix, new, hfix, hrefills, htwo, hjoins⟩ := exists_insertion_inline h hall hgap
    refine ⟨fix, new, hfix, hrefills, ?_⟩
    rw [htwo, hjoins]
    simp
  | inr hsplit =>
    obtain ⟨kept, line, rfl, hkept, hline⟩ := hsplit
    have hpos := Text.breaks_pos_of_getLast? hkept
    rw [Text.breaks_append (Text.seam_of_unbroken kept hline), Text.breaks_of_unbroken hline]
      at hbreaks
    exact exists_insertion_above h hkept (by omega) hline hgap

end Fixes

/-! ## Reports -/

/-- Is a number of blank lines wrong between statements of two groups? -/
def Misspaced : Option Group → Option Group → Nat → Prop
  | some g, some h, blank => g = h ∧ 1 ≤ blank ∨ g ≠ h ∧ blank = 0
  | _, _, _ => False

/-- Does the rule have a fix for the space between statements of two groups? -/
def Fixable (g h : Option Group) (space : Source) : Prop :=
  space.innerGap? ≠ none ∧ Misspaced g h space.innerBlankLines

section Reports

variable {source a d : Source} {g g' : Option Group} {left right : Span} {blanks : Text}

theorem checkPair_of_spaced (h : ¬ Misspaced g g' (source.blankLinesBetween left right)) :
    checkPair source ⟨g, left⟩ ⟨g', right⟩ = .ok [] := by
  cases g with
  | none => rfl
  | some g =>
    cases g' with
    | none => rfl
    | some g' =>
      obtain ⟨hsame, hother⟩ := not_or.1 h
      simp only [checkPair, if_neg hsame, if_neg hother]

theorem exists_checkPair_of_crowded (h : source.gap? left right = none) :
    ∃ reports, checkPair source ⟨g, left⟩ ⟨g', right⟩ = .ok reports ∧
      ∀ r ∈ reports, r.fix = none := by
  have hremoval : removalFix source left right = .ok none := by rw [removalFix, h]
  have hinsertion : insertionFix source left right = .ok none := by rw [insertionFix, h]
  cases g with
  | none => exact ⟨[], rfl, by simp⟩
  | some g =>
    cases g' with
    | none => exact ⟨[], rfl, by simp⟩
    | some g' =>
      simp only [checkPair, hremoval, hinsertion, Checked.ok_bind]
      split
      · exact ⟨_, rfl, by simp [report, Diagnostic.make]⟩
      · split
        · exact ⟨_, rfl, by simp [report, Diagnostic.make]⟩
        · exact ⟨[], rfl, by simp⟩

/-- The report about a space that can be mended, and what its fix does. -/
theorem exists_checkPair_of_gap (h : Closed a d)
    (hgap : (a ++ ofText blanks ++ d).gap? left right =
      some ⟨a.size, a.size + Text.byteLength blanks⟩)
    (hblank : (a ++ ofText blanks ++ d).blankLinesBetween left right = Text.breaks blanks - 1)
    (hwrong : Misspaced g g' (Text.breaks blanks - 1)) :
    ∃ r fix new, checkPair (a ++ ofText blanks ++ d) ⟨g, left⟩ ⟨g', right⟩ = .ok [r] ∧
      r.fix = some fix ∧ Refills fix (a ++ ofText blanks ++ d) a blanks new ∧
      (Misspaced g g' (Text.breaks new - 1) ↔
        fix.joinsBreak (a ++ ofText blanks ++ d).text = true) := by
  cases g with
  | none => exact hwrong.elim
  | some g =>
    cases g' with
    | none => exact hwrong.elim
    | some g' =>
      rw [← hblank] at hwrong
      cases hwrong with
      | inl hsame =>
        obtain ⟨fix, new, hfix, hrefills, hone, hjoins⟩ := exists_removal h (by omega) hgap
        obtain ⟨r, hcheck, hr⟩ : ∃ r, checkPair (a ++ ofText blanks ++ d) ⟨some g, left⟩
            ⟨some g', right⟩ = .ok [r] ∧ r.fix = some fix := by
          simp only [checkPair, if_pos hsame, hfix, Checked.ok_bind]
          exact ⟨_, rfl, rfl⟩
        refine ⟨r, fix, new, hcheck, hr, hrefills, ?_⟩
        rw [hone, hjoins]
        simp [Misspaced, hsame.1]
      | inr hother =>
        obtain ⟨fix, new, hfix, hrefills, hjoins⟩ := exists_insertion h (by omega) hgap
        have hpos := hrefills.breaks_pos
        obtain ⟨r, hcheck, hr⟩ : ∃ r, checkPair (a ++ ofText blanks ++ d) ⟨some g, left⟩
            ⟨some g', right⟩ = .ok [r] ∧ r.fix = some fix := by
          simp only [checkPair, if_neg (not_and_of_not_left _ hother.1), if_pos hother, hfix,
            Checked.ok_bind]
          exact ⟨_, rfl, rfl⟩
        refine ⟨r, fix, new, hcheck, hr, hrefills, ?_⟩
        rw [← hjoins]
        simp only [Misspaced, hother.1, false_and, ne_eq, not_false_eq_true, true_and, false_or]
        omega

end Reports

/-! ## One space -/

/-- A piece without statements. -/
structure IsSpace (space : Source) : Prop where
  wellFormed : space.WellFormed
  unbroken : space.ItemsUnbroken
  empty : space.statements = []

/-- What the rule reports about the statements on either side of a space, and what becomes of the
space when the fix is made. -/
inductive Mending (source : Source) (g g' : Option Group) (front space : Source) :
    List Diagnostic → Source → Prop where
  /-- There is no fix. -/
  | keep {reports : List Diagnostic} (hreports : ∀ r ∈ reports, r.fix = none)
      (hspace : ¬ Fixable g g' space) : Mending source g g' front space reports space
  /-- There is a fix, which settles the space unless it joins two line terminators. -/
  | mend {r : Diagnostic} {fix : Fix} {space' : Source} (hr : r.fix = some fix)
      (hreplaces : Replaces fix source front space space')
      (hjoins : Fixable g g' space' ↔ fix.joinsBreak source.text = true)
      (hreturn : fix.joinsBreak source.text = true → ¬ source.text.PairsReturns)
      (hspace : Fixable g g' space) : Mending source g g' front space [r] space'

section Space

variable {source a m d p q : Source} {s t : Statement} {fix : Fix} {blanks new : Text}

/-- The exchange of the blanks in a space is an exchange of the space. -/
theorem Replaces.widen (h : Replaces fix source (a ++ p) (ofText blanks) (ofText new))
    (hq : q.WellFormed) :
    Replaces fix source a (p ++ ofText blanks ++ q) (p ++ ofText new ++ q) where
  merged := by
    obtain ⟨edit, hmerged, hstart, hle, hstop⟩ := h.merged
    refine ⟨edit, hmerged, ?_, hle, ?_⟩
    · rw [Source.size_append] at hstart
      omega
    · rw [Source.size_append] at hstop
      rw [Source.size_append, Source.size_append]
      omega
  amended back hback := by
    have hamended := h.amended (q ++ back) (hq.append hback)
    simp only [Source.append_assoc] at hamended ⊢
    exact hamended

theorem closed_of_flanks (h : a.Joint (p ++ ofText blanks ++ q) d s t)
    (hflanks : Source.Flanks p q) : Closed (a ++ p) (q ++ d) where
  left_wellFormed := h.left_wellFormed.append hflanks.left_wellFormed
  right_wellFormed := hflanks.right_wellFormed.append h.right_wellFormed
  left_closed := by
    rw [Source.text_append]
    by_cases hnil : p.text = []
    · rw [hnil, List.append_nil]
      exact h.left_closed
    · rw [Text.endsWithBreak_append_of_ne_nil _ hnil]
      exact hflanks.left_closed
  right_closed := by
    rw [Source.text_append]
    by_cases hnil : q.text = []
    · rw [hnil, List.nil_append]
      exact h.right_closed
    · rw [List.head?_append_of_ne_nil _ hnil]
      exact hflanks.right_closed

theorem IsSpace.exchange (h : IsSpace (p ++ ofText blanks ++ q)) (hp : p.WellFormed)
    (hq : q.WellFormed) (new : Text) : IsSpace (p ++ ofText new ++ q) where
  wellFormed := (hp.append (Source.wellFormed_ofText new)).append hq
  unbroken := by
    have hunbroken := h.unbroken
    rw [Source.itemsUnbroken_append (hp.append (Source.wellFormed_ofText blanks)),
      Source.itemsUnbroken_append hp] at hunbroken
    rw [Source.itemsUnbroken_append (hp.append (Source.wellFormed_ofText new)),
      Source.itemsUnbroken_append hp]
    exact ⟨⟨hunbroken.1.1, Source.itemsUnbroken_ofText new⟩, hunbroken.2⟩
  empty := by
    have hempty := h.empty
    simp only [Source.statements_append, List.append_eq_nil_iff, List.map_eq_nil_iff] at hempty ⊢
    exact ⟨⟨hempty.1.1, rfl⟩, hempty.2⟩

/-- A space is mended or left alone. -/
theorem exists_mending (h : a.Joint m d s t) (hm : IsSpace m) (htidy : (a ++ m ++ d).Tidy)
    (packages : Packages) :
    ∃ reports m',
      checkPair (a ++ m ++ d) (itemOf (a ++ m ++ d) packages s)
        (itemOf (a ++ m ++ d) packages (t.shift (a.size + m.size))) = .ok reports ∧
      Mending (a ++ m ++ d) (itemOf (a ++ m ++ d) packages s).group
        (itemOf (a ++ m ++ d) packages (t.shift (a.size + m.size))).group a m reports m' ∧
      IsSpace m' := by
  have hgap_eq := h.gap?_eq
  have hblank_eq := h.blankLinesBetween_eq
  rw [itemOf, itemOf, Statement.shift_span]
  generalize Group.of? packages ((a ++ m ++ d).passage s).category s.path? = g
  generalize Group.of? packages ((a ++ m ++ d).passage (t.shift (a.size + m.size))).category
    (t.shift (a.size + m.size)).path? = g'
  generalize ((a ++ m ++ d).rangeOf s.span).bare = left at *
  generalize ((a ++ m ++ d).rangeOf (t.span.shift (a.size + m.size))).bare = right at *
  by_cases hgap : m.innerGap? = none
  · rw [hgap, Option.map_none] at hgap_eq
    obtain ⟨reports, hcheck, hreports⟩ := exists_checkPair_of_crowded hgap_eq
    exact ⟨reports, m, hcheck, .keep hreports fun h => h.1 hgap, hm⟩
  · by_cases hwrong : Misspaced g g' m.innerBlankLines
    · have hfixable : Fixable g g' m := ⟨hgap, hwrong⟩
      obtain ⟨p, q, blanks, rfl, hflanks, -, htrail, hlead⟩ := h.exists_flanks htidy hgap
      have hpieces : a ++ (p ++ ofText blanks ++ q) ++ d = a ++ p ++ ofText blanks ++ (q ++ d) := by
        simp only [Source.append_assoc]
      have hp := hflanks.left_wellFormed
      have hq := hflanks.right_wellFormed
      rw [Source.innerBlankLines_parts hp hq hflanks.left_closed hflanks.right_closed htrail hlead]
        at hwrong hblank_eq
      rw [Source.innerGap?_parts hp hq htrail hlead] at hgap_eq
      rw [hpieces] at hgap_eq hblank_eq ⊢
      have hplace : (some (⟨p.size, p.size + Text.byteLength blanks⟩ : Span)).map (·.shift a.size) =
          some ⟨(a ++ p).size, (a ++ p).size + Text.byteLength blanks⟩ := by
        rw [Option.map_some, Span.shift, Source.size_append, Nat.add_assoc]
      obtain ⟨r, fix, new, hcheck, hr, hrefills, hjoins⟩ := exists_checkPair_of_gap
        (closed_of_flanks h hflanks) (hgap_eq.trans hplace) hblank_eq hwrong
      obtain ⟨hinner, hlines⟩ := hflanks.inner_eq hrefills.breaks_pos
      refine ⟨[r], p ++ ofText new ++ q, hcheck, .mend hr (hrefills.toReplaces.widen hq) ?_
        hrefills.joins_return hfixable, hm.exchange hp hq new⟩
      rw [Fixable, hinner, hlines, ← hjoins]
      simp
    · refine ⟨[], m, checkPair_of_spaced ?_, .keep (by simp) fun h => hwrong h.2, hm⟩
      rw [hblank_eq]
      exact hwrong

end Space

end ImportNewlines

end ImportOrder
