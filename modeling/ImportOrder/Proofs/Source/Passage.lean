import ImportOrder.Category
import ImportOrder.Proofs.Source.WellFormed

/-!
# Statements without their places

A passage is what is left of a statement when its place is forgotten: the statement at the start of
its own text. Whatever moves a statement to another place of a text leaves its passage as it is, and
the category of a statement is a property of its passage.

## Main definitions

- `Passage`, `Passage.category`, `Passage.path?`
- `Source.passages`: the passages of a source in order
- `Source.remarks`: the texts of the comments outside of the statements

## Main statements

- `Source.passages_append`, `Source.remarks_append`: pieces have their own passages and remarks
- `Source.WellFormed.classify_eq`: a statement has the category of its passage
-/

namespace ImportOrder

/-- A statement at the start of its own text. -/
structure Passage where
  /-- The statement, which starts at offset zero. -/
  statement : Statement
  /-- The text of the statement. -/
  text : Text
deriving DecidableEq, Repr, Inhabited

namespace Passage

/-- The source that holds the passage and nothing else. -/
def toSource (passage : Passage) : Source := ⟨passage.text, [passage.statement], []⟩

/-- The category of the statement. -/
def category (passage : Passage) : Category :=
  match passage.toSource.classify passage.statement with
  | .ok category => category
  | .error _ => .plain

/-- The module path that the statement refers to. -/
def path? (passage : Passage) : Option String := passage.statement.path?

end Passage

/-- The statement moved to the start of a text. -/
def Statement.atStart (statement : Statement) : Statement :=
  { statement with span := ⟨0, statement.span.stop - statement.span.start⟩ }

@[simp]
theorem Statement.atStart_shift (n : Nat) (statement : Statement) :
    (statement.shift n).atStart = statement.atStart := by
  simp [atStart, shift, Nat.add_sub_add_left]

namespace Source

/-- The passage of a statement. -/
def passage (source : Source) (statement : Statement) : Passage :=
  ⟨statement.atStart, (source.text.slice? statement.span).getD []⟩

/-- The passages of the statements, in order. -/
def passages (source : Source) : List Passage :=
  source.statements.map source.passage

/-- The texts of the comments that lie outside of the statements, in order. -/
def remarks (source : Source) : List Text :=
  (source.comments.filter fun c => ∀ s ∈ source.spans, c.Apart s).map fun c =>
    (source.text.slice? c).getD []

/-- A statement of the second piece has the passage that it has there. -/
@[simp]
theorem passage_append_shift (a b : Source) (statement : Statement) :
    (a ++ b).passage (statement.shift a.size) = b.passage statement := by
  simp only [passage, Statement.atStart_shift, text_append, Statement.shift_span, Span.shift, size,
    Text.slice?_append_shift]

/-- A source whose text does not hold the text of a passage has not the same passages. -/
theorem not_perm_passages {source next : Source} {passage : Passage}
    (hmem : passage ∈ source.passages) (habsent : ¬ passage.text <:+: next.text) :
    ¬ next.passages.Perm source.passages := by
  intro hperm
  obtain ⟨s, -, hs⟩ := List.mem_map.1 (hperm.mem_iff.2 hmem)
  have hpart : (next.text.slice? s.span).getD [] = passage.text := congrArg Passage.text hs
  rw [← hpart] at habsent
  exact habsent (Text.getD_slice?_isInfix next.text s.span)

namespace WellFormed

variable {source a b : Source}

theorem exists_slice? (h : source.WellFormed) {x : Span} (hx : x ∈ source.items) :
    ∃ c part, source.text.slice? x = some (c :: part) ∧ Character.isBlank c = false :=
  Text.holdsItem_iff.1 (h.holds_item x hx)

theorem slice?_append (ha : a.WellFormed) {x : Span} (hx : x ∈ a.items) (b : Source) :
    (a ++ b).text.slice? x = a.text.slice? x := by
  obtain ⟨c, part, hs, -⟩ := ha.exists_slice? hx
  rw [hs]
  exact Text.slice?_append_left hs b.text

theorem passage_append (ha : a.WellFormed) {s : Statement} (hs : s ∈ a.statements) (b : Source) :
    (a ++ b).passage s = a.passage s := by
  have hx : s.span ∈ a.items := List.mem_append_left _ (List.mem_map_of_mem hs)
  simp only [passage, ha.slice?_append hx b]

end WellFormed

theorem passages_append {a : Source} (ha : a.WellFormed) (b : Source) :
    (a ++ b).passages = a.passages ++ b.passages := by
  simp only [passages, statements_append, List.map_append, List.map_map, Function.comp_def,
    passage_append_shift]
  congr 1
  exact List.map_congr_left fun s hs => ha.passage_append hs b

theorem remarks_append {a : Source} (ha : a.WellFormed) (b : Source) :
    (a ++ b).remarks = a.remarks ++ b.remarks := by
  simp only [remarks, comments_append, List.filter_append, List.map_append, List.filter_map,
    List.map_map]
  -- a comment of one piece lies apart from every statement of the other
  have hleft : (a.comments.filter fun c => ∀ s ∈ (a ++ b).spans, c.Apart s) =
      a.comments.filter fun c => ∀ s ∈ a.spans, c.Apart s := by
    apply List.filter_congr
    intro c hc
    have hbound := (ha.bounds_comment hc).2
    simp only [spans_append, List.mem_append, List.mem_map, decide_eq_decide]
    refine ⟨fun h s hs => h s (.inl hs), fun h s hs => ?_⟩
    rcases hs with hs | ⟨s, -, rfl⟩
    · exact h s hs
    · exact .inl (by simp only [Span.shift_start]; omega)
  have hright : (b.comments.filter
        ((fun c => decide (∀ s ∈ (a ++ b).spans, c.Apart s)) ∘ fun c => c.shift a.size)) =
      b.comments.filter fun c => ∀ s ∈ b.spans, c.Apart s := by
    apply List.filter_congr
    intro c _
    simp only [Function.comp_apply, spans_append, List.mem_append, List.mem_map,
      decide_eq_decide]
    refine ⟨fun h s hs => Span.apart_shift.1 (h _ (.inr ⟨s, hs, rfl⟩)), fun h s hs => ?_⟩
    rcases hs with hs | ⟨s, hs, rfl⟩
    · have := (ha.bounds_span hs).2
      exact .inr (by simp only [Span.shift_start]; omega)
    · exact Span.apart_shift.2 (h s hs)
  rw [hleft, hright]
  congr 1
  · apply List.map_congr_left
    intro c hc
    rw [ha.slice?_append (List.mem_append_right _ (List.mem_of_mem_filter hc)) b]
  · apply List.map_congr_left
    intro c _
    simp only [Function.comp_apply, text_append, Span.shift, size, Text.slice?_append_shift]

/-! ## Categories -/

/-- The probe looks at the text of the statement only. -/
theorem tokenKind_of_slice? {text part : Text} {span : Span} (h : text.slice? span = some part)
    (index : Nat) : text.tokenKind span index = .ok (Token.kindAt index part) := by
  have hbounds := Text.bounds_of_slice? h
  have hmin : min span.stop text.byteLength = span.stop := by omega
  rw [Text.tokenKind, hmin]
  by_cases hroom : span.start < span.stop
  · rw [if_pos hroom, Text.slice_eq_ok_iff_slice?.2 h]
    rfl
  · obtain rfl : part = [] := (Text.byteLength_eq_zero_iff part).1 (by omega)
    rw [if_neg hroom]
    cases index <;> rfl

/-- Whether an import is made for side effects only shows in its text. -/
theorem isModuleImport_of_slice? {source : Source} {s : Statement} {part : Text}
    (h : source.text.slice? s.span = some part) :
    source.isModuleImport s = .ok (s.specifiers == 0 &&
      Token.kindAt (if s.typeOnly then 2 else 1) part != some .punctuator) := by
  unfold isModuleImport
  split
  · next hpos => rw [beq_false_of_ne (by omega : s.specifiers ≠ 0), Bool.false_and]
  · next hzero =>
    rw [tokenKind_of_slice? h, show s.specifiers = 0 by omega]
    rfl

/-- A statement that can be cut out of the text has the category of its passage. -/
theorem classify_of_slice? {source : Source} {s : Statement} {part : Text}
    (h : source.text.slice? s.span = some part) :
    source.classify s = .ok (source.passage s).category := by
  have hbounds := Text.bounds_of_slice? h
  have hpassage : source.passage s = ⟨s.atStart, part⟩ := by simp [passage, h]
  have hown : Text.slice? part s.atStart.span = some part := by
    refine Text.slice?_eq_some_iff.2 ⟨[], [], by simp, rfl, ?_⟩
    simp only [Statement.atStart, Text.byteLength_nil]
    omega
  have hprobe := isModuleImport_of_slice? h
  have hsame : source.classify s =
      (source.passage s).toSource.classify (source.passage s).statement := by
    rw [hpassage, Passage.toSource, classify, classify, hprobe, isModuleImport_of_slice? hown]
    rfl
  have hok : ∃ category, source.classify s = .ok category := by
    obtain ⟨effects, heffects⟩ : ∃ b, source.isModuleImport s = .ok b := ⟨_, hprobe⟩
    rw [classify, heffects]
    split
    · cases effects <;> exact ⟨_, rfl⟩
    · exact ⟨_, rfl⟩
    · exact ⟨_, rfl⟩
    · exact ⟨_, rfl⟩
    · exact ⟨_, rfl⟩
  obtain ⟨category, hok⟩ := hok
  rw [Passage.category, ← hsame, hok]

/-- A statement has the category of its passage. -/
theorem WellFormed.classify_eq {source : Source} (h : source.WellFormed) {s : Statement}
    (hs : s ∈ source.statements) : source.classify s = .ok (source.passage s).category := by
  obtain ⟨c, part, hslice, -⟩ :=
    h.exists_slice? (List.mem_append_left _ (List.mem_map_of_mem (f := Statement.span) hs))
  exact classify_of_slice? hslice

end Source

end ImportOrder
