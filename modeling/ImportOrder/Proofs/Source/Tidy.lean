import ImportOrder.Proofs.Pass
import ImportOrder.Proofs.Source.Passage

/-!
# Sources that hold nothing but statements, comments and blanks

Every character of a tidy source belongs to a statement or to a comment or is a blank. This is again
a property of the pieces of a source, and it survives the two things that fixes do: they exchange
neighbouring pieces, and they replace blanks by blanks. Neither loses or adds a statement, a comment
or a character that is not a blank.

## Main definitions

- `Source.BlankOutside`, `Source.Tidy`
- `Source.Swaps`, `Source.Respaces`: what fixes do to a piece
- `Text.visible`: the characters of a text that are not blanks

## Main statements

- `Source.blankOutside_append`: a source is tidy if its pieces are
- `Source.Preserves.of_steps`: fixes keep statements, comments and visible characters
-/

namespace ImportOrder

/-- The characters of a text that are not blanks. -/
def Text.visible (text : Text) : Text := text.filter fun c => !Character.isBlank c

@[simp]
theorem Text.visible_append (a b : Text) : visible (a ++ b) = visible a ++ visible b :=
  List.filter_append a b

theorem Text.visible_of_blank {text : Text} (h : ∀ c ∈ text, Character.isBlank c = true) :
    visible text = [] :=
  List.filter_eq_nil_iff.2 fun c hc => by simp [h c hc]

/-- Is every character of a text that starts at an offset a blank or covered by one of the spans? -/
def Text.blankOutside (items : List Span) : (offset : Nat) → Text → Bool
  | _, [] => true
  | offset, c :: text =>
    (Character.isBlank c || items.any fun x => x.start ≤ offset && offset < x.stop) &&
      blankOutside items (offset + c.utf8Size) text

theorem Text.blankOutside_iff {items : List Span} {offset : Nat} {text : Text} :
    text.blankOutside items offset ↔ ∀ front c rest, text = front ++ c :: rest →
      Character.isBlank c = true ∨
        ∃ x ∈ items, x.start ≤ offset + byteLength front ∧ offset + byteLength front < x.stop := by
  induction text generalizing offset with
  | nil => simp [blankOutside]
  | cons d text ih =>
    simp only [blankOutside, Bool.and_eq_true, Bool.or_eq_true, List.any_eq_true,
      decide_eq_true_eq, ih]
    constructor
    · rintro ⟨hd, htext⟩ front c rest heq
      cases front with
      | nil =>
        obtain ⟨rfl, -⟩ := List.cons.inj heq
        exact hd
      | cons e front =>
        obtain ⟨rfl, htail⟩ := List.cons.inj heq
        simpa [Nat.add_assoc] using htext front c rest htail
    · intro h
      refine ⟨h [] d text rfl, fun front c rest heq => ?_⟩
      simpa [Nat.add_assoc] using h (d :: front) c rest (by rw [heq]; rfl)

namespace Source

/-- Everything in the text but the statements and the comments is blank. -/
def BlankOutside (source : Source) : Prop := source.text.blankOutside source.items 0

instance (source : Source) : Decidable source.BlankOutside :=
  inferInstanceAs (Decidable (source.text.blankOutside source.items 0 = true))

theorem blankOutside_iff {source : Source} :
    source.BlankOutside ↔ ∀ front c rest, source.text = front ++ c :: rest →
      Character.isBlank c = true ∨ ∃ x ∈ source.items,
        x.start ≤ Text.byteLength front ∧ Text.byteLength front < x.stop := by
  rw [BlankOutside, Text.blankOutside_iff]
  simp only [Nat.zero_add]

/-- The shape of a parsed file that holds nothing but statements, comments and blanks. -/
structure Tidy (source : Source) : Prop extends source.WellFormed where
  /-- Everything else is blank. -/
  blank_outside : source.BlankOutside

instance (source : Source) : Decidable source.Tidy :=
  decidable_of_iff (source.WellFormed ∧ source.BlankOutside)
    ⟨fun ⟨h, h'⟩ => ⟨h, h'⟩, fun h => ⟨h.toWellFormed, h.blank_outside⟩⟩

/-- Whether everything else is blank shows in the pieces. -/
theorem blankOutside_append {a b : Source} (ha : a.WellFormed) :
    (a ++ b).BlankOutside ↔ a.BlankOutside ∧ b.BlankOutside := by
  simp only [blankOutside_iff, text_append]
  constructor
  · intro h
    refine ⟨fun front c rest heq => ?_, fun front c rest heq => ?_⟩
    · have hlt : Text.byteLength front < a.size := by
        rw [size, heq, Text.byteLength_append, Text.byteLength_cons]
        have := c.utf8Size_pos
        omega
      refine (h front c (rest ++ b.text) (by simp [heq])).imp_right ?_
      rintro ⟨x, hx, hstart, hstop⟩
      rcases mem_items_append.1 hx with hx | ⟨y, -, rfl⟩
      · exact ⟨x, hx, hstart, hstop⟩
      · simp only [Span.shift_start] at hstart
        omega
    · refine (h (a.text ++ front) c rest (by simp [heq])).imp_right ?_
      rintro ⟨x, hx, hstart, hstop⟩
      rw [Text.byteLength_append] at hstart hstop
      rcases mem_items_append.1 hx with hx | ⟨y, hy, rfl⟩
      · have := (ha.bounds hx).2
        rw [size] at this
        omega
      · simp only [Span.shift_start, Span.shift_stop, size] at hstart hstop
        exact ⟨y, hy, by omega, by omega⟩
  · rintro ⟨h, h'⟩ front c rest heq
    by_cases hle : a.size ≤ Text.byteLength front
    · obtain ⟨k, rfl, hb⟩ := Text.append_split heq hle
      refine (h' k c rest hb).imp_right ?_
      rintro ⟨x, hx, hstart, hstop⟩
      refine ⟨_, mem_items_append.2 (.inr ⟨x, hx, rfl⟩), ?_, ?_⟩ <;>
        simp only [Text.byteLength_append, Span.shift_start, Span.shift_stop, size] <;> omega
    · obtain ⟨k, hk, hrest⟩ := Text.append_split heq.symm (Nat.le_of_not_le hle)
      cases k with
      | nil =>
        rw [size, hk, List.append_nil] at hle
        exact absurd (Nat.le_refl _) hle
      | cons d k =>
        obtain ⟨rfl, -⟩ := List.cons.inj hrest
        refine (h front c k hk).imp_right ?_
        rintro ⟨x, hx, hbounds⟩
        exact ⟨x, mem_items_append.2 (.inl hx), hbounds⟩

theorem blankOutside_ofText {text : Text} :
    (ofText text).BlankOutside ↔ ∀ c ∈ text, Character.isBlank c = true := by
  rw [blankOutside_iff]
  constructor
  · intro h c hc
    obtain ⟨front, rest, heq⟩ := List.append_of_mem hc
    simpa [items, spans, ofText] using h front c rest heq
  · intro h front c rest heq
    exact .inl (h c (by rw [text_ofText] at heq; simp [heq]))

/-! ## What fixes do -/

/-- The exchange of two neighbouring pieces. -/
inductive Swaps : Source → Source → Prop where
  /-- The pieces `b` and `c` change places. -/
  | swap {b c : Source} (hb : b.WellFormed) (hc : c.WellFormed) : Swaps (b ++ c) (c ++ b)

/-- The replacement of blanks by blanks. -/
inductive Respaces : Source → Source → Prop where
  /-- The blanks `old` are replaced by `new`. -/
  | respace {old new : Text} (hold : ∀ c ∈ old, Character.isBlank c = true)
      (hnew : ∀ c ∈ new, Character.isBlank c = true) : Respaces (ofText old) (ofText new)

/-- One of the two things that fixes do. -/
def Rewrites (old new : Source) : Prop := Swaps old new ∨ Respaces old new

/-- What one source has in common with another. -/
structure Preserves (s t : Source) : Prop where
  /-- The same statements, as often. -/
  passages_perm : t.passages.Perm s.passages
  /-- The same comments outside of the statements, as often. -/
  remarks_perm : t.remarks.Perm s.remarks
  /-- The same characters that are not blanks, as often. -/
  visible_perm : t.text.visible.Perm s.text.visible
  /-- Everything else is blank, if it was. -/
  blank_outside : s.BlankOutside → t.BlankOutside

namespace Preserves

variable {a b c d s t : Source}

theorem refl (s : Source) : s.Preserves s := ⟨.refl _, .refl _, .refl _, id⟩

theorem trans (h : s.Preserves t) (h' : t.Preserves d) : s.Preserves d :=
  ⟨h'.passages_perm.trans h.passages_perm, h'.remarks_perm.trans h.remarks_perm,
    h'.visible_perm.trans h.visible_perm, h'.blank_outside ∘ h.blank_outside⟩

theorem of_swaps (h : Swaps s t) : s.Preserves t := by
  obtain ⟨hb, hc⟩ := h
  refine ⟨?_, ?_, ?_, ?_⟩
  · rw [passages_append hb, passages_append hc]
    exact List.perm_append_comm
  · rw [remarks_append hb, remarks_append hc]
    exact List.perm_append_comm
  · rw [text_append, text_append, Text.visible_append, Text.visible_append]
    exact List.perm_append_comm
  · rw [blankOutside_append hb, blankOutside_append hc]
    exact And.symm

theorem of_respaces (h : Respaces s t) : s.Preserves t := by
  obtain ⟨hold, hnew⟩ := h
  refine ⟨.refl _, .refl _, ?_, fun _ => blankOutside_ofText.2 hnew⟩
  rw [text_ofText, text_ofText, Text.visible_of_blank hold, Text.visible_of_blank hnew]

/-- What is preserved in one piece is preserved in the whole. -/
theorem exchange (ha : a.WellFormed) (hb : b.WellFormed) (hc : c.WellFormed) (h : b.Preserves c) :
    (a ++ b ++ d).Preserves (a ++ c ++ d) := by
  refine ⟨?_, ?_, ?_, ?_⟩
  · rw [passages_append (ha.append hb), passages_append ha, passages_append (ha.append hc),
      passages_append ha]
    exact (h.passages_perm.append_left _).append_right _
  · rw [remarks_append (ha.append hb), remarks_append ha, remarks_append (ha.append hc),
      remarks_append ha]
    exact (h.remarks_perm.append_left _).append_right _
  · simp only [text_append, Text.visible_append]
    exact (h.visible_perm.append_left _).append_right _
  · rw [blankOutside_append (ha.append hb), blankOutside_append ha,
      blankOutside_append (ha.append hc), blankOutside_append ha]
    exact And.imp_left (And.imp_right h.blank_outside)

/-- Fixes keep statements, comments and visible characters. -/
theorem of_steps (h : Relation.ReflTransGen (Step Rewrites) s t) : s.Preserves t := by
  induction h with
  | refl => exact .refl s
  | tail _ hstep ih =>
    obtain ⟨hfront, hold, hnew, -, hswaps | hrespaces⟩ := hstep
    · exact ih.trans (.exchange hfront hold hnew (.of_swaps hswaps))
    · exact ih.trans (.exchange hfront hold hnew (.of_respaces hrespaces))

end Preserves

/-- Fixes that exchange pieces only keep all characters. -/
theorem text_perm_of_steps {s t : Source} (h : Relation.ReflTransGen (Step Swaps) s t) :
    t.text.Perm s.text := by
  induction h with
  | refl => exact .refl _
  | tail _ hstep ih =>
    refine List.Perm.trans ?_ ih
    obtain ⟨-, -, -, -, hb, hc⟩ := hstep
    simp only [text_append]
    exact (List.perm_append_comm.append_left _).append_right _

end Source

end ImportOrder
