import ImportOrder.Edit
import ImportOrder.Proofs.Source.WellFormed

/-!
# Sources under edits

What becomes of a source when a fix is made: its statements and comments go along with their texts.
A source is cut into parts, which a relocation puts together in another order and a replacement puts
together with a new text in place of one of them. On a source that is given by its pieces the parts
are those pieces.

## Main definitions

- `Source.part`: what a span cuts out
- `Source.ofText`: a text without statements and comments
- `Source.relocated`, `Source.replaced`, `Source.amended`: the source under a fix

## Main statements

- `Source.part_append`: the part between two pieces is the piece between them
- `Source.relocated_append`: a relocation exchanges two neighbouring pieces
- `Source.replaced_append`: a replacement exchanges one piece for a text
-/

namespace ImportOrder

/-- The span further to the front of a text by a number of bytes. -/
def Span.unshift (n : Nat) (span : Span) : Span := ⟨span.start - n, span.stop - n⟩

/-- The statement further to the front of a text by a number of bytes. -/
def Statement.unshift (n : Nat) (statement : Statement) : Statement :=
  { statement with span := statement.span.unshift n }

@[simp]
theorem Span.unshift_shift (n : Nat) (span : Span) : (span.shift n).unshift n = span := by
  simp [unshift]

@[simp]
theorem Span.shift_zero (span : Span) : span.shift 0 = span := by
  simp [shift]

@[simp]
theorem Statement.unshift_shift (n : Nat) (statement : Statement) :
    (statement.shift n).unshift n = statement := by
  simp [unshift, shift]

@[simp]
theorem Statement.shift_zero (statement : Statement) : statement.shift 0 = statement := by
  simp [shift]

namespace Source

/-- The text of a span with the statements and comments that lie in it. -/
def part (source : Source) (span : Span) : Source where
  text := (source.text.slice? span).getD []
  statements := (source.statements.filter (·.span.Inside span)).map (·.unshift span.start)
  comments := (source.comments.filter (·.Inside span)).map (·.unshift span.start)

/-- A text without statements and comments. -/
def ofText (text : Text) : Source := ⟨text, [], []⟩

/-- The source after the part in `range` has been moved to the front up to an offset. -/
def relocated (source : Source) (range : Span) (offset : Nat) : Source :=
  source.part ⟨0, offset⟩ ++ source.part range ++ source.part ⟨offset, range.start⟩ ++
    source.part ⟨range.stop, source.size⟩

/-- The source after an edit in a place without statements and comments. -/
def replaced (source : Source) (edit : Edit) : Source :=
  source.part ⟨0, edit.span.start⟩ ++ ofText edit.text ++ source.part ⟨edit.span.stop, source.size⟩

/-- The source after a fix, which relocates a part or makes a single edit. -/
def amended (source : Source) (fix : Fix) : Source :=
  match fix.edits with
  | [edit] => source.replaced edit
  | [cut, paste] => source.relocated cut.span paste.span.start
  | _ => source

@[simp]
theorem text_ofText (text : Text) : (ofText text).text = text := rfl

theorem ofText_append (a b : Text) : ofText (a ++ b) = ofText a ++ ofText b := rfl

theorem wellFormed_ofText (text : Text) : (ofText text).WellFormed :=
  ⟨.nil, .nil, by simp [items, spans, ofText], by simp [ofText]⟩

@[simp]
theorem ofText_nil_append (source : Source) : ofText [] ++ source = source := by
  obtain ⟨text, statements, comments⟩ := source
  change Source.mk (_ ++ _) (_ ++ _) (_ ++ _) = _
  simp [ofText, size]

@[simp]
theorem append_ofText_nil (source : Source) : source ++ ofText [] = source := by
  obtain ⟨text, statements, comments⟩ := source
  change Source.mk (_ ++ _) (_ ++ _) (_ ++ _) = _
  simp [ofText]

section Part

variable {a b c d : Source}

/-- The items of three pieces that lie between the first and the last are those of the second. -/
theorem filter_inside {α : Type} (span : α → Span) {A B C : List α} {m n : Nat}
    (room : ∀ x ∈ A ++ B ++ C, (span x).start < (span x).stop) (hA : ∀ x ∈ A, (span x).stop ≤ m)
    (hB : ∀ x ∈ B, m ≤ (span x).start ∧ (span x).stop ≤ n) (hC : ∀ x ∈ C, n ≤ (span x).start) :
    (A ++ B ++ C).filter (fun x => (span x).Inside ⟨m, n⟩) = B := by
  have hA' : A.filter (fun x => (span x).Inside ⟨m, n⟩) = [] := by
    apply List.filter_eq_nil_iff.2
    intro x hx
    have := hA x hx
    have := room x (by simp [hx])
    rw [decide_eq_true_eq]
    simp only [Span.Inside]
    omega
  have hB' : B.filter (fun x => (span x).Inside ⟨m, n⟩) = B :=
    List.filter_eq_self.2 fun x hx => decide_eq_true (hB x hx)
  have hC' : C.filter (fun x => (span x).Inside ⟨m, n⟩) = [] := by
    apply List.filter_eq_nil_iff.2
    intro x hx
    have := hC x hx
    have := room x (by simp [hx])
    rw [decide_eq_true_eq]
    simp only [Span.Inside]
    omega
  rw [List.filter_append, List.filter_append, hA', hB', hC', List.nil_append, List.append_nil]

/-- The comments between two pieces are those of the piece between them. -/
theorem comments_inside (ha : a.WellFormed) (hb : b.WellFormed) (hc : c.WellFormed) :
    (a ++ b ++ c).comments.filter (·.Inside ⟨a.size, a.size + b.size⟩) =
      b.comments.map (·.shift a.size) := by
  refine filter_inside id (fun s hs => ?_) (fun s hs => ?_) (fun s hs => ?_) fun s hs => ?_
  · exact (((ha.append hb).append hc).bounds_comment hs).1
  · exact (ha.bounds_comment hs).2
  · obtain ⟨t, ht, rfl⟩ := List.mem_map.1 hs
    have := (hb.bounds_comment ht).2
    simpa using this
  · obtain ⟨t, -, rfl⟩ := List.mem_map.1 hs
    simp

/-- The part between two pieces is the piece between them. -/
theorem part_append (ha : a.WellFormed) (hb : b.WellFormed) (hc : c.WellFormed) :
    (a ++ b ++ c).part ⟨a.size, a.size + b.size⟩ = b := by
  have habc := (ha.append hb).append hc
  have hspans : (a ++ b ++ c).statements.filter (·.span.Inside ⟨a.size, a.size + b.size⟩) =
      b.statements.map (·.shift a.size) := by
    refine filter_inside Statement.span (fun s hs => ?_) (fun s hs => ?_) (fun s hs => ?_)
      fun s hs => ?_
    · exact (habc.bounds_span (List.mem_map_of_mem hs)).1
    · exact (ha.bounds_span (List.mem_map_of_mem hs)).2
    · obtain ⟨t, ht, rfl⟩ := List.mem_map.1 hs
      have := (hb.bounds_span (List.mem_map_of_mem ht)).2
      simpa using this
    · obtain ⟨t, -, rfl⟩ := List.mem_map.1 hs
      simp
  have htext : (a ++ b ++ c).text.slice? ⟨a.size, a.size + b.size⟩ = some b.text :=
    Text.slice?_append a.text b.text c.text
  rw [part, hspans, comments_inside ha hb hc, htext]
  simp [Function.comp_def]

theorem part_append_left (ha : a.WellFormed) (hb : b.WellFormed) :
    (a ++ b).part ⟨0, a.size⟩ = a := by
  have h := part_append (wellFormed_ofText []) ha hb
  rw [ofText_nil_append] at h
  simpa [size, ofText] using h

theorem part_append_right (ha : a.WellFormed) (hb : b.WellFormed) :
    (a ++ b).part ⟨a.size, (a ++ b).size⟩ = b := by
  have h := part_append ha hb (wellFormed_ofText [])
  rw [append_ofText_nil] at h
  rw [size_append]
  exact h

/-- A relocation exchanges two neighbouring pieces. -/
theorem relocated_append (ha : a.WellFormed) (hb : b.WellFormed) (hc : c.WellFormed)
    (hd : d.WellFormed) :
    (a ++ (b ++ c) ++ d).relocated ⟨a.size + b.size, a.size + b.size + c.size⟩ a.size =
      a ++ (c ++ b) ++ d := by
  have hfront : (a ++ (b ++ c) ++ d).part ⟨0, a.size⟩ = a := by
    rw [append_assoc]
    exact part_append_left ha ((hb.append hc).append hd)
  have hmoved : (a ++ (b ++ c) ++ d).part ⟨a.size + b.size, a.size + b.size + c.size⟩ = c := by
    rw [← append_assoc a, ← size_append]
    exact part_append (ha.append hb) hc hd
  have hpassed : (a ++ (b ++ c) ++ d).part ⟨a.size, a.size + b.size⟩ = b := by
    rw [← append_assoc a, append_assoc (a ++ b)]
    exact part_append ha hb (hc.append hd)
  have hrest : (a ++ (b ++ c) ++ d).part
      ⟨a.size + b.size + c.size, (a ++ (b ++ c) ++ d).size⟩ = d := by
    rw [← append_assoc a, ← size_append, ← size_append]
    exact part_append_right ((ha.append hb).append hc) hd
  rw [relocated, hfront, hmoved, hpassed, hrest, append_assoc a]

theorem replaced_append (ha : a.WellFormed) (hb : b.WellFormed) (hc : c.WellFormed) (text : Text) :
    (a ++ b ++ c).replaced ⟨⟨a.size, a.size + b.size⟩, text⟩ = a ++ ofText text ++ c := by
  have hfront : (a ++ b ++ c).part ⟨0, a.size⟩ = a := by
    rw [append_assoc]
    exact part_append_left ha (hb.append hc)
  have hrest : (a ++ b ++ c).part ⟨a.size + b.size, (a ++ b ++ c).size⟩ = c := by
    rw [← size_append]
    exact part_append_right (ha.append hb) hc
  rw [replaced, hfront, hrest]

end Part

end Source

end ImportOrder
