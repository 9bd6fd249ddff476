import ImportOrder.Proofs.LineEnds
import ImportOrder.Proofs.Rule.ImportNewlines

/-!
# The space between two statements

What the rule on blank lines sees of two neighbouring statements shows in the space between them:
how far the comments attached to either reach into it, whether another comment is left between
those, and how many blank lines there are. Neither the text in front nor the text behind has a part
in it, as no statement ends with a line break and none starts with one.

A space in which no comment is left falls into three parts, and the blanks in the middle can be
exchanged: as long as there is a line terminator among them, the comments stay attached as they are,
and the blank lines are counted by the terminators.

## Main definitions

- `Source.trail`, `Source.lead`: how far the attached comments reach into a space
- `Source.Joint`: two neighbouring statements and the space between them
- `Source.Flanks`: the two outer parts of a space

## Main statements

- `Source.Joint.stop_eq`, `Source.Joint.start_eq`: the ranges of two neighbours
- `Source.Joint.gap?_eq`, `Source.Joint.blankLinesBetween_eq`: what the rule sees of two neighbours
- `Source.Joint.exists_flanks`: a space in which no comment is left falls into three parts
- `Source.Flanks.inner_eq`: exchanged blanks
-/

namespace ImportOrder

namespace Source

variable {source a b m : Source}

/-! ## Unbroken pieces -/

theorem itemsUnbroken_append (ha : a.WellFormed) :
    (a ++ b).ItemsUnbroken ↔ a.ItemsUnbroken ∧ b.ItemsUnbroken := by
  have hright : ∀ x : Span, (a ++ b).text.slice? (x.shift a.size) = b.text.slice? x := fun x =>
    Text.slice?_append_shift a.text b.text x.start x.stop
  constructor
  · intro h
    constructor
    · intro x hx
      rw [← ha.slice?_append hx b]
      exact h x (mem_items_append.2 (.inl hx))
    · intro x hx
      rw [← hright x]
      exact h _ (mem_items_append.2 (.inr ⟨x, hx, rfl⟩))
  · intro h x hx
    cases mem_items_append.1 hx with
    | inl hx =>
      rw [ha.slice?_append hx b]
      exact h.1 x hx
    | inr hx =>
      obtain ⟨y, hy, rfl⟩ := hx
      rw [hright y]
      exact h.2 y hy

theorem itemsUnbroken_ofText (text : Text) : (ofText text).ItemsUnbroken := by
  intro x hx
  simp [items, spans, ofText] at hx

/-- A piece that ends with an item does not end with a line break. -/
theorem WellFormed.endsWithBreak_eq_false (h : a.WellFormed) (hitems : a.ItemsUnbroken) {x : Span}
    (hx : x ∈ a.items) (hstop : x.stop = a.size) : a.text.endsWithBreak = false := by
  obtain ⟨c, part, hslice, -⟩ := h.exists_slice? hx
  obtain ⟨front, rest, htext, hfront, hpart⟩ := Text.slice?_eq_some_iff.1 hslice
  have hnil : rest = [] := by
    apply (Text.byteLength_eq_zero_iff rest).1
    have hlength := congrArg Text.byteLength htext
    rw [size] at hstop
    rw [Text.byteLength_append, Text.byteLength_append] at hlength
    omega
  rw [htext, hnil, List.append_nil, Text.endsWithBreak_append_of_ne_nil front (by simp)]
  simpa [hslice] using hitems x hx

/-- A piece that starts with an item does not start with a line break. -/
theorem WellFormed.head?_any_eq_false (h : a.WellFormed) {x : Span} (hx : x ∈ a.items)
    (hstart : x.start = 0) : a.text.head?.any Character.isLineBreak = false := by
  obtain ⟨c, part, hslice, hc⟩ := h.exists_slice? hx
  obtain ⟨front, rest, htext, hfront, -⟩ := Text.slice?_eq_some_iff.1 hslice
  obtain rfl : front = [] := (Text.byteLength_eq_zero_iff front).1 (hfront.trans hstart)
  rw [htext]
  apply Bool.eq_false_iff.2
  intro hbreak
  rw [Character.isBlank_of_isLineBreak hbreak] at hc
  exact absurd hc nofun

/-! ## Attached comments of a piece -/

section Attached

variable {n k limit limit' line : Nat} {last last' : Option Nat} {hashbang : Option Span}
  {comments : List Span}

theorem attachedStop_shift
    (hstart : ∀ c ∈ comments, source.lineOf (n + c.start) = k + m.lineOf c.start)
    (hlast : ∀ c ∈ comments, last.any (· ≤ source.lineOf (n + c.stop)) =
      last'.any (· ≤ m.lineOf c.stop)) (stop : Nat) :
    source.attachedStop last (k + line) (n + stop) (comments.map (·.shift n)) =
      n + m.attachedStop last' line stop comments := by
  induction comments generalizing stop with
  | nil => rfl
  | cons c comments ih =>
    have hc := hstart c List.mem_cons_self
    have hc' := hlast c List.mem_cons_self
    rw [List.map_cons, attachedStop, attachedStop, Span.shift_start, Span.shift_stop, hc, hc']
    by_cases hstay : last'.any (· ≤ m.lineOf c.stop) = true ∨ m.lineOf c.start ≠ line
    · rw [if_pos hstay, if_pos (hstay.imp_right fun h h' => h (Nat.add_left_cancel h'))]
    · rw [if_neg hstay, if_neg fun h => hstay (h.imp_right fun h h' => h (by rw [h']))]
      exact ih (fun d hd => hstart d (List.mem_cons_of_mem c hd))
        (fun d hd => hlast d (List.mem_cons_of_mem c hd)) c.stop

/-- Comments that start on another line are not attached behind. -/
theorem attachedStop_append {later : List Span} (h : ∀ c ∈ later, source.lineOf c.start ≠ line)
    (stop : Nat) : source.attachedStop last line stop (comments ++ later) =
      source.attachedStop last line stop comments := by
  induction comments generalizing stop with
  | nil =>
    cases later with
    | nil => rfl
    | cons c later =>
      rw [List.nil_append, attachedStop, attachedStop, if_pos (.inr (h c List.mem_cons_self))]
  | cons c comments ih =>
    rw [List.cons_append, attachedStop, attachedStop, ih]

/-- What a range ends behind is attached. -/
theorem of_stop_le_attachedStop (hordered : comments.Pairwise (·.stop ≤ ·.start))
    (hroom : ∀ c ∈ comments, c.start < c.stop) {stop : Nat}
    (hbehind : ∀ c ∈ comments, stop ≤ c.start) {c : Span} (hc : c ∈ comments)
    (hle : c.stop ≤ source.attachedStop last line stop comments) :
    source.lineOf c.start = line ∧ last.any (· ≤ source.lineOf c.stop) = false := by
  induction comments generalizing stop with
  | nil => exact absurd hc List.not_mem_nil
  | cons d comments ih =>
    rw [List.pairwise_cons] at hordered
    rw [attachedStop] at hle
    by_cases hstay : last.any (· ≤ source.lineOf d.stop) = true ∨ source.lineOf d.start ≠ line
    · rw [if_pos hstay] at hle
      have hstart := hbehind c hc
      have := hroom c hc
      omega
    · rw [if_neg hstay] at hle
      cases List.mem_cons.1 hc with
      | inl heq =>
        rw [not_or, not_not, Bool.not_eq_true] at hstay
        exact heq ▸ hstay.symm
      | inr hc =>
        exact ih hordered.2 (fun e he => hroom e (List.mem_cons_of_mem d he)) hordered.1 hc hle

theorem attachedStart_shift (hhash : ∀ c ∈ comments, some (c.shift n) ≠ hashbang)
    (hstart : ∀ c ∈ comments, source.lineOf (n + c.start) = k + m.lineOf c.start)
    (hstop : ∀ c ∈ comments, source.lineOf (n + c.stop) = k + m.lineOf c.stop)
    (hlimit : ∀ c ∈ comments, source.lineOf (n + c.start) ≤ limit ↔ m.lineOf c.start ≤ limit')
    (hline : 1 ≤ line) (start : Nat) :
    source.attachedStart hashbang limit (k + line) (n + start) (comments.map (·.shift n)) =
      n + m.attachedStart none limit' line start comments := by
  induction comments generalizing line start with
  | nil => rfl
  | cons c comments ih =>
    have hc := hhash c List.mem_cons_self
    have hstays : some (c.shift n) = hashbang ∨ source.lineOf (n + c.start) ≤ limit ∨
        source.lineOf (n + c.stop) < k + line - 1 ↔
        some c = none ∨ m.lineOf c.start ≤ limit' ∨ m.lineOf c.stop < line - 1 := by
      rw [hlimit c List.mem_cons_self, hstop c List.mem_cons_self]
      simp only [hc, reduceCtorEq, false_or]
      omega
    rw [List.map_cons, attachedStart, attachedStart, Span.shift_start, Span.shift_stop]
    by_cases hstay : some c = none ∨ m.lineOf c.start ≤ limit' ∨ m.lineOf c.stop < line - 1
    · rw [if_pos hstay, if_pos (hstays.2 hstay)]
    · rw [if_neg hstay, if_neg (mt hstays.1 hstay), hstart c List.mem_cons_self]
      exact ih (fun d hd => hhash d (List.mem_cons_of_mem c hd))
        (fun d hd => hstart d (List.mem_cons_of_mem c hd))
        (fun d hd => hstop d (List.mem_cons_of_mem c hd))
        (fun d hd => hlimit d (List.mem_cons_of_mem c hd)) (Text.one_le_lineOf _ _) c.start

/-- Comments on the line of the statement in front are not attached above. -/
theorem attachedStart_append {later : List Span} (h : ∀ c ∈ later, source.lineOf c.start ≤ limit)
    (start : Nat) : source.attachedStart hashbang limit line start (comments ++ later) =
      source.attachedStart hashbang limit line start comments := by
  induction comments generalizing line start with
  | nil =>
    cases later with
    | nil => rfl
    | cons c later =>
      rw [List.nil_append, attachedStart, attachedStart,
        if_pos (.inr (.inl (h c List.mem_cons_self)))]
  | cons c comments ih =>
    rw [List.cons_append, attachedStart, attachedStart, ih]

theorem of_attachedStart_le (hordered : comments.Pairwise fun c d => d.stop ≤ c.start)
    (hroom : ∀ c ∈ comments, c.start < c.stop) {start : Nat}
    (hfront : ∀ c ∈ comments, c.stop ≤ start) {c : Span} (hc : c ∈ comments)
    (hle : source.attachedStart hashbang limit line start comments ≤ c.start) :
    limit < source.lineOf c.start := by
  induction comments generalizing line start with
  | nil => exact absurd hc List.not_mem_nil
  | cons d comments ih =>
    rw [List.pairwise_cons] at hordered
    rw [attachedStart] at hle
    by_cases hstay : some d = hashbang ∨ source.lineOf d.start ≤ limit ∨
        source.lineOf d.stop < line - 1
    · rw [if_pos hstay] at hle
      have hstop := hfront c hc
      have := hroom c hc
      omega
    · rw [if_neg hstay] at hle
      cases List.mem_cons.1 hc with
      | inl heq =>
        rw [not_or, not_or, Nat.not_le] at hstay
        exact heq ▸ hstay.2.1
      | inr hc =>
        exact ih hordered.2 (fun e he => hroom e (List.mem_cons_of_mem d he)) hordered.1 hc hle

theorem blankLinesFrom_shift
    (hstart : ∀ c ∈ comments, source.lineOf (n + c.start) = k + m.lineOf c.start)
    (hstop : ∀ c ∈ comments, source.lineOf (n + c.stop) = k + m.lineOf c.stop) (below : Nat) :
    source.blankLinesFrom (k + below) (k + line) (comments.map (·.shift n)) =
      m.blankLinesFrom below line comments := by
  induction comments generalizing line with
  | nil =>
    rw [List.map_nil, blankLinesFrom, blankLinesFrom]
    omega
  | cons c comments ih =>
    rw [List.map_cons, blankLinesFrom, blankLinesFrom, Span.shift_start, Span.shift_stop,
      hstart c List.mem_cons_self, hstop c List.mem_cons_self,
      ih (fun d hd => hstart d (List.mem_cons_of_mem c hd))
        fun d hd => hstop d (List.mem_cons_of_mem c hd)]
    omega

end Attached

/-! ## Neighbours -/

/-- The end of the comments in a space that are attached to the statement in front. -/
def trail (space : Source) : Nat :=
  space.attachedStop (some (space.lineOf space.size)) 1 0 space.comments

/-- The start of the comments in a space that are attached to the statement behind. -/
def lead (space : Source) : Nat :=
  space.attachedStart none 1 (space.lineOf space.size) space.size space.comments.reverse

/-- What lies between the attached comments of a space, if no comment is left there. -/
def innerGap? (space : Source) : Option Span :=
  space.gap? ⟨0, space.trail⟩ ⟨space.lead, space.size⟩

/-- The number of blank lines between the attached comments of a space. -/
def innerBlankLines (space : Source) : Nat :=
  space.blankLinesBetween ⟨0, space.trail⟩ ⟨space.lead, space.size⟩

theorem WellFormed.trail_le (h : m.WellFormed) : m.trail ≤ m.size := by
  cases attachedStop_cases m (some (m.lineOf m.size)) 1 0 m.comments with
  | inl heq =>
    rw [trail, heq]
    exact Nat.zero_le _
  | inr hcomment =>
    obtain ⟨c, hc, heq, -⟩ := hcomment
    rw [trail, heq]
    exact (h.bounds_comment hc).2

theorem WellFormed.lead_le (h : m.WellFormed) : m.lead ≤ m.size := by
  cases attachedStart_cases m none 1 (m.lineOf m.size) m.size m.comments.reverse with
  | inl heq => rw [lead, heq]
  | inr hcomment =>
    obtain ⟨c, hc, heq, -⟩ := hcomment
    have := h.bounds_comment (List.mem_reverse.1 hc)
    rw [lead, heq]
    omega

/-- The range of a statement, without the end of its line. -/
theorem WellFormed.exists_bare (h : source.WellFormed) {x : Span} (hx : x ∈ source.spans) :
    ∃ hashbang, source.hashbang? = .ok hashbang ∧ (source.rangeOf x).bare =
      ⟨source.attachedStart hashbang
          ((source.statementBefore? x).elim 0 (source.lineOf ·.stop)) (source.lineOf x.start)
          x.start (source.commentsBefore x),
        source.attachedStop ((source.statementAfter? x).map (source.lineOf ·.start))
          (source.lineOf x.stop) x.stop (source.commentsAfter x)⟩ := by
  obtain ⟨hashbang, hhash, hrange⟩ := Checked.bind_eq_ok.1 (h.attachedRange_eq hx)
  obtain ⟨rest, -, hrange⟩ := Checked.bind_eq_ok.1 hrange
  refine ⟨hashbang, hhash, ?_⟩
  rw [← Except.ok.inj hrange]

/-- Two neighbouring statements: `s`, with which the piece `a` ends, and `t`, with which the piece
`d` starts. The space `m` between them holds no statement. -/
structure Joint (a m d : Source) (s t : Statement) : Prop where
  left_wellFormed : a.WellFormed
  space_wellFormed : m.WellFormed
  right_wellFormed : d.WellFormed
  unbroken : (a ++ m ++ d).ItemsUnbroken
  /-- The first statement is the last one of the first piece. -/
  left_last : ∃ before, a.statements = before ++ [s]
  /-- The first piece ends with it. -/
  left_stop : s.span.stop = a.size
  space_empty : m.statements = []
  /-- The second statement is the first one of the last piece. -/
  right_first : ∃ behind, d.statements = t :: behind
  /-- The last piece starts with it. -/
  right_start : t.span.start = 0

namespace Joint

variable {d : Source} {s t : Statement}

theorem wellFormed (h : Joint a m d s t) : (a ++ m ++ d).WellFormed :=
  (h.left_wellFormed.append h.space_wellFormed).append h.right_wellFormed

theorem exists_statements (h : Joint a m d s t) :
    ∃ before behind,
      (a ++ m ++ d).statements = before ++ s :: t.shift (a.size + m.size) :: behind := by
  obtain ⟨before, hbefore⟩ := h.left_last
  obtain ⟨behind, hbehind⟩ := h.right_first
  refine ⟨before, behind.map (·.shift (a.size + m.size)), ?_⟩
  rw [statements_append, statements_append, hbefore, hbehind, h.space_empty, size_append]
  simp

theorem exists_spans (h : Joint a m d s t) :
    ∃ before behind, (a ++ m ++ d).spans =
      before ++ s.span :: t.span.shift (a.size + m.size) :: behind := by
  obtain ⟨before, behind, heq⟩ := h.exists_statements
  refine ⟨before.map (·.span), behind.map (·.span), ?_⟩
  rw [spans, heq]
  simp

theorem pieces_unbroken (h : Joint a m d s t) : a.ItemsUnbroken ∧ m.ItemsUnbroken := by
  have hunbroken := h.unbroken
  rw [itemsUnbroken_append (h.left_wellFormed.append h.space_wellFormed),
    itemsUnbroken_append h.left_wellFormed] at hunbroken
  exact hunbroken.1

theorem left_closed (h : Joint a m d s t) : a.text.endsWithBreak = false := by
  obtain ⟨before, hbefore⟩ := h.left_last
  have hspan : s.span ∈ a.spans := List.mem_map_of_mem (by simp [hbefore])
  exact h.left_wellFormed.endsWithBreak_eq_false h.pieces_unbroken.1 (List.mem_append_left _ hspan)
    h.left_stop

theorem right_closed (h : Joint a m d s t) : d.text.head?.any Character.isLineBreak = false := by
  obtain ⟨behind, hbehind⟩ := h.right_first
  have hspan : t.span ∈ d.spans := List.mem_map_of_mem (by simp [hbehind])
  exact h.right_wellFormed.head?_any_eq_false (List.mem_append_left _ hspan) h.right_start

/-- The lines of a space are counted on from the first statement. -/
theorem lineOf_add (h : Joint a m d s t) {k : Nat} (hk : k ≤ m.size) :
    (a ++ m ++ d).lineOf (a.size + k) = Text.breaks a.text + m.lineOf k := by
  rw [lineOf, text_append, text_append, List.append_assoc, size,
    Text.lineOf_append_right (Text.seam_of_getLast? h.left_closed _),
    Text.lineOf_append_left (Text.seam_of_head? _ h.right_closed) hk]
  rfl

theorem lineOf_comment (h : Joint a m d s t) {c : Span} (hc : c ∈ m.comments) :
    (a ++ m ++ d).lineOf (a.size + c.start) = Text.breaks a.text + m.lineOf c.start ∧
      (a ++ m ++ d).lineOf (a.size + c.stop) = Text.breaks a.text + m.lineOf c.stop := by
  have := h.space_wellFormed.bounds_comment hc
  exact ⟨h.lineOf_add (by omega), h.lineOf_add (by omega)⟩

theorem lineOf_left (h : Joint a m d s t) :
    (a ++ m ++ d).lineOf s.span.stop = Text.breaks a.text + 1 := by
  rw [h.left_stop, ← Text.lineOf_zero m.text]
  exact h.lineOf_add (Nat.zero_le _)

theorem commentsAfter_eq (h : Joint a m d s t) :
    (a ++ m ++ d).commentsAfter s.span = m.comments.map (·.shift a.size) := by
  obtain ⟨before, behind, hspans⟩ := h.exists_spans
  rw [← comments_inside h.left_wellFormed h.space_wellFormed h.right_wellFormed, commentsAfter,
    statementAfter?_eq h.wellFormed hspans]
  apply List.filter_congr
  intro c _
  rw [Bool.eq_iff_iff, decide_eq_true_eq]
  simp [Span.Inside, h.left_stop, h.right_start]

theorem commentsBefore_eq (h : Joint a m d s t) :
    (a ++ m ++ d).commentsBefore (t.span.shift (a.size + m.size)) =
      m.comments.reverse.map (·.shift a.size) := by
  obtain ⟨before, behind, hspans⟩ := h.exists_spans
  rw [List.map_reverse, ← comments_inside h.left_wellFormed h.space_wellFormed h.right_wellFormed,
    commentsBefore, List.filter_reverse,
    @statementBefore?_eq _ (before ++ [s.span]) behind _ h.wellFormed (by simpa using hspans)]
  apply congrArg List.reverse
  apply List.filter_congr
  intro c _
  rw [Bool.eq_iff_iff, decide_eq_true_eq]
  simp [Span.Inside, h.left_stop, h.right_start, and_comm]

/-- The range of the first statement ends in the space. -/
theorem stop_eq (h : Joint a m d s t) :
    ((a ++ m ++ d).rangeOf s.span).bare.stop = a.size + m.trail := by
  obtain ⟨before, behind, hspans⟩ := h.exists_spans
  obtain ⟨_, -, hbare⟩ := h.wellFormed.exists_bare (x := s.span) (by simp [hspans])
  have hbelow : ((a ++ m ++ d).statementAfter? s.span).map ((a ++ m ++ d).lineOf ·.start) =
      some (Text.breaks a.text + m.lineOf m.size) := by
    rw [statementAfter?_eq h.wellFormed hspans, List.head?_cons, Option.map_some, Span.shift_start,
      h.right_start, Nat.add_zero, h.lineOf_add (Nat.le_refl _)]
  rw [hbare, hbelow, h.lineOf_left, h.left_stop, h.commentsAfter_eq]
  refine attachedStop_shift (fun c hc => (h.lineOf_comment hc).1) (fun c hc => ?_) 0
  simp only [(h.lineOf_comment hc).2, Option.any_some, Nat.add_le_add_iff_left]

/-- The range of the second statement starts in the space. -/
theorem start_eq (h : Joint a m d s t) :
    ((a ++ m ++ d).rangeOf (t.span.shift (a.size + m.size))).bare.start = a.size + m.lead := by
  obtain ⟨before, behind, hspans⟩ := h.exists_spans
  obtain ⟨hashbang, hhash, hbare⟩ := h.wellFormed.exists_bare
    (x := t.span.shift (a.size + m.size)) (by simp [hspans])
  have habove : ((a ++ m ++ d).statementBefore? (t.span.shift (a.size + m.size))).elim 0
      ((a ++ m ++ d).lineOf ·.stop) = Text.breaks a.text + 1 := by
    rw [@statementBefore?_eq _ (before ++ [s.span]) behind _ h.wellFormed (by simpa using hspans),
      List.getLast?_concat, Option.elim_some, h.lineOf_left]
  have hstart : (t.span.shift (a.size + m.size)).start = a.size + m.size := by
    rw [Span.shift_start, h.right_start, Nat.add_zero]
  -- the `#!` line is in front of the first statement or a part of it
  have hfirst : ∀ c ∈ m.comments.reverse, some (c.shift a.size) ≠ hashbang := by
    intro c _ heq
    obtain ⟨hashbang', hhash', hcomment⟩ := h.wellFormed.exists_hashbang?
    obtain rfl : hashbang' = hashbang := Except.ok.inj (hhash'.symm.trans hhash)
    have hzero := (hcomment _ heq.symm).2.1
    have hroom := h.wellFormed.bounds_span (x := s.span) (by simp [hspans])
    rw [Span.shift_start] at hzero
    rw [h.left_stop] at hroom
    omega
  rw [hbare, habove, hstart, h.lineOf_add (Nat.le_refl _), h.commentsBefore_eq]
  refine attachedStart_shift hfirst (fun c hc => ?_) (fun c hc => ?_) (fun c hc => ?_)
    (Text.one_le_lineOf _ _) m.size
  · exact (h.lineOf_comment (List.mem_reverse.1 hc)).1
  · exact (h.lineOf_comment (List.mem_reverse.1 hc)).2
  · rw [(h.lineOf_comment (List.mem_reverse.1 hc)).1, Nat.add_le_add_iff_left]

theorem commentsBetween_eq (h : Joint a m d s t) {left right : Span}
    (hleft : left.stop = a.size + m.trail) (hright : right.start = a.size + m.lead) :
    (a ++ m ++ d).commentsBetween left right =
      (m.commentsBetween ⟨0, m.trail⟩ ⟨m.lead, m.size⟩).map (·.shift a.size) := by
  have hle := h.space_wellFormed.lead_le
  have hinside : (a ++ m ++ d).commentsBetween left right =
      ((a ++ m ++ d).comments.filter (·.Inside ⟨a.size, a.size + m.size⟩)).filter
        fun c => left.stop ≤ c.start && c.stop ≤ right.start := by
    rw [List.filter_filter, commentsBetween]
    apply List.filter_congr
    intro c _
    rw [Bool.eq_iff_iff]
    simp only [Bool.and_eq_true, decide_eq_true_eq]
    simp only [Span.Inside]
    omega
  rw [hinside, comments_inside h.left_wellFormed h.space_wellFormed h.right_wellFormed,
    List.filter_map]
  apply congrArg
  apply List.filter_congr
  intro c _
  rw [Bool.eq_iff_iff]
  simp [hleft, hright]

theorem gap?_eq (h : Joint a m d s t) :
    (a ++ m ++ d).gap? ((a ++ m ++ d).rangeOf s.span).bare
        ((a ++ m ++ d).rangeOf (t.span.shift (a.size + m.size))).bare =
      m.innerGap?.map (·.shift a.size) := by
  rw [innerGap?, gap?, gap?, h.commentsBetween_eq h.stop_eq h.start_eq, h.stop_eq, h.start_eq]
  simp only [Nat.add_le_add_iff_left, List.map_eq_nil_iff]
  split <;> rfl

theorem blankLinesBetween_eq (h : Joint a m d s t) :
    (a ++ m ++ d).blankLinesBetween ((a ++ m ++ d).rangeOf s.span).bare
        ((a ++ m ++ d).rangeOf (t.span.shift (a.size + m.size))).bare =
      m.innerBlankLines := by
  have hcomments : ∀ c ∈ m.commentsBetween ⟨0, m.trail⟩ ⟨m.lead, m.size⟩, c ∈ m.comments :=
    fun c hc => List.mem_of_mem_filter hc
  rw [innerBlankLines, blankLinesBetween, blankLinesBetween,
    h.commentsBetween_eq h.stop_eq h.start_eq, h.stop_eq, h.start_eq,
    h.lineOf_add h.space_wellFormed.trail_le, h.lineOf_add h.space_wellFormed.lead_le,
    blankLinesFrom_shift (fun c hc => (h.lineOf_comment (hcomments c hc)).1)
      fun c hc => (h.lineOf_comment (hcomments c hc)).2]
  simp only [Nat.add_assoc, Nat.add_le_add_iff_left]

end Joint

/-! ## The parts of a space -/

section Parts

variable {p q : Source} {blanks : Text}

theorem size_ofText (text : Text) : (ofText text).size = Text.byteLength text := rfl

theorem comments_parts (p q : Source) (blanks : Text) :
    (p ++ ofText blanks ++ q).comments =
      p.comments ++ q.comments.map (·.shift (p.size + Text.byteLength blanks)) := by
  rw [comments_append, comments_append, size_append, size_ofText]
  simp [ofText]

theorem size_parts (p q : Source) (blanks : Text) :
    (p ++ ofText blanks ++ q).size = p.size + Text.byteLength blanks + q.size := by
  rw [size_append, size_append, size_ofText]

theorem lineOf_parts_left (hp : p.text.endsWithBreak = false) {k : Nat} (hk : k ≤ p.size) :
    (p ++ ofText blanks ++ q).lineOf k = p.lineOf k := by
  rw [lineOf, append_assoc, text_append]
  exact Text.lineOf_append_left (Text.seam_of_getLast? hp _) hk

theorem lineOf_parts_right (hp : p.text.endsWithBreak = false)
    (hq : q.text.head?.any Character.isLineBreak = false) (k : Nat) :
    (p ++ ofText blanks ++ q).lineOf (p.size + Text.byteLength blanks + k) =
      Text.breaks p.text + Text.breaks blanks + q.lineOf k := by
  rw [lineOf, text_append, text_append, text_ofText, size, ← Text.byteLength_append,
    Text.lineOf_append_right (Text.seam_of_head? _ hq),
    Text.breaks_append (Text.seam_of_getLast? hp _)]
  rfl

theorem trail_parts (hp : p.WellFormed) (hp_closed : p.text.endsWithBreak = false)
    (hleft : ∀ c ∈ p.comments, p.lineOf c.stop <
      (p ++ ofText blanks ++ q).lineOf (p ++ ofText blanks ++ q).size)
    (hright : ∀ c ∈ q.comments,
      1 < (p ++ ofText blanks ++ q).lineOf (p.size + Text.byteLength blanks + c.start)) :
    (p ++ ofText blanks ++ q).trail = p.attachedStop none 1 0 p.comments := by
  have hlater : ∀ c ∈ q.comments.map (·.shift (p.size + Text.byteLength blanks)),
      (p ++ ofText blanks ++ q).lineOf c.start ≠ 1 := by
    intro c hc
    obtain ⟨e, he, rfl⟩ := List.mem_map.1 hc
    exact Nat.ne_of_gt (hright e he)
  have hlines : ∀ c ∈ p.comments,
      (p ++ ofText blanks ++ q).lineOf c.start = p.lineOf c.start ∧
      (p ++ ofText blanks ++ q).lineOf c.stop = p.lineOf c.stop := by
    intro c hc
    have := hp.bounds_comment hc
    exact ⟨lineOf_parts_left hp_closed (by omega), lineOf_parts_left hp_closed (by omega)⟩
  rw [trail, comments_parts, attachedStop_append hlater]
  have hshift := @attachedStop_shift (p ++ ofText blanks ++ q) p 0 0 1
    (some ((p ++ ofText blanks ++ q).lineOf (p ++ ofText blanks ++ q).size)) none p.comments
    (fun c hc => by simpa using (hlines c hc).1)
    (fun c hc => by simpa [(hlines c hc).2] using hleft c hc) 0
  simpa using hshift

theorem lead_parts (hp : p.WellFormed) (hp_closed : p.text.endsWithBreak = false)
    (hq_closed : q.text.head?.any Character.isLineBreak = false)
    (hleft : ∀ c ∈ p.comments, p.lineOf c.start = 1)
    (hright : ∀ c ∈ q.comments,
      1 < (p ++ ofText blanks ++ q).lineOf (p.size + Text.byteLength blanks + c.start)) :
    (p ++ ofText blanks ++ q).lead = p.size + Text.byteLength blanks +
      q.attachedStart none 0 (q.lineOf q.size) q.size q.comments.reverse := by
  have hearlier : ∀ c ∈ p.comments.reverse, (p ++ ofText blanks ++ q).lineOf c.start ≤ 1 := by
    intro c hc
    have hc := List.mem_reverse.1 hc
    have := hp.bounds_comment hc
    rw [lineOf_parts_left hp_closed (by omega), hleft c hc]
  rw [lead, comments_parts, List.reverse_append, attachedStart_append hearlier, ← List.map_reverse,
    size_parts, lineOf_parts_right hp_closed hq_closed]
  refine attachedStart_shift (fun c _ => by simp)
    (fun c _ => lineOf_parts_right hp_closed hq_closed c.start)
    (fun c _ => lineOf_parts_right hp_closed hq_closed c.stop) (fun c hc => ?_)
    (Text.one_le_lineOf _ _) q.size
  have := hright c (List.mem_reverse.1 hc)
  have : 1 ≤ q.lineOf c.start := Text.one_le_lineOf _ _
  omega

theorem commentsBetween_parts (hp : p.WellFormed) (hq : q.WellFormed) {left right : Span}
    (hleft : left.stop = p.size) (hright : right.start = p.size + Text.byteLength blanks) :
    (p ++ ofText blanks ++ q).commentsBetween left right = [] := by
  apply List.filter_eq_nil_iff.2
  intro c hc
  rw [comments_parts] at hc
  simp only [Bool.and_eq_true, decide_eq_true_eq]
  cases List.mem_append.1 hc with
  | inl hc =>
    have := hp.bounds_comment hc
    omega
  | inr hc =>
    obtain ⟨e, he, rfl⟩ := List.mem_map.1 hc
    have := hq.bounds_comment he
    simp only [Span.shift_start, Span.shift_stop]
    omega

/-- Where no comment is left, the blank lines are counted by the terminators. -/
theorem innerBlankLines_parts (hp : p.WellFormed) (hq : q.WellFormed)
    (hp_closed : p.text.endsWithBreak = false)
    (hq_closed : q.text.head?.any Character.isLineBreak = false)
    (htrail : (p ++ ofText blanks ++ q).trail = p.size)
    (hlead : (p ++ ofText blanks ++ q).lead = p.size + Text.byteLength blanks) :
    (p ++ ofText blanks ++ q).innerBlankLines = Text.breaks blanks - 1 := by
  have hfirst : (p ++ ofText blanks ++ q).lineOf p.size = Text.breaks p.text + 1 := by
    rw [lineOf_parts_left hp_closed (Nat.le_refl _)]
    exact Text.lineOf_byteLength p.text
  have hlast : (p ++ ofText blanks ++ q).lineOf (p.size + Text.byteLength blanks) =
      Text.breaks p.text + Text.breaks blanks + 1 := by
    have := @lineOf_parts_right p q blanks hp_closed hq_closed 0
    rwa [Nat.add_zero, show q.lineOf 0 = 1 from Text.lineOf_zero q.text] at this
  rw [innerBlankLines, blankLinesBetween, commentsBetween_parts hp hq htrail hlead, htrail, hlead,
    hfirst, hlast, blankLinesFrom]
  split <;> omega

theorem innerGap?_parts (hp : p.WellFormed) (hq : q.WellFormed)
    (htrail : (p ++ ofText blanks ++ q).trail = p.size)
    (hlead : (p ++ ofText blanks ++ q).lead = p.size + Text.byteLength blanks) :
    (p ++ ofText blanks ++ q).innerGap? = some ⟨p.size, p.size + Text.byteLength blanks⟩ := by
  rw [innerGap?, gap?, commentsBetween_parts hp hq htrail hlead, htrail, hlead]
  exact if_pos ⟨Nat.le_add_right _ _, rfl⟩

/-- What is attached to the statement in front ends with a comment, if it is not empty. -/
theorem endsWithBreak_of_trail (hp : p.WellFormed) (hq : q.WellFormed)
    (hp_unbroken : p.ItemsUnbroken) (htrail : (p ++ ofText blanks ++ q).trail = p.size) :
    p.text.endsWithBreak = false := by
  cases attachedStop_cases (p ++ ofText blanks ++ q)
      (some ((p ++ ofText blanks ++ q).lineOf (p ++ ofText blanks ++ q).size)) 1 0
      (p ++ ofText blanks ++ q).comments with
  | inl heq =>
    have hnil : p.text = [] := (Text.byteLength_eq_zero_iff _).1 (htrail.symm.trans heq)
    rw [hnil]
    rfl
  | inr hcomment =>
    obtain ⟨c, hc, heq, -⟩ := hcomment
    have hstop : c.stop = p.size := heq.symm.trans htrail
    rw [comments_parts] at hc
    cases List.mem_append.1 hc with
    | inl hc => exact hp.endsWithBreak_eq_false hp_unbroken (List.mem_append_right _ hc) hstop
    | inr hc =>
      obtain ⟨e, he, rfl⟩ := List.mem_map.1 hc
      have := hq.bounds_comment he
      rw [Span.shift_stop] at hstop
      omega

/-- What is attached to the statement behind starts with a comment, if it is not empty. -/
theorem head?_any_of_lead (hp : p.WellFormed) (hq : q.WellFormed)
    (hlead : (p ++ ofText blanks ++ q).lead = p.size + Text.byteLength blanks) :
    q.text.head?.any Character.isLineBreak = false := by
  cases attachedStart_cases (p ++ ofText blanks ++ q) none 1
      ((p ++ ofText blanks ++ q).lineOf (p ++ ofText blanks ++ q).size)
      (p ++ ofText blanks ++ q).size (p ++ ofText blanks ++ q).comments.reverse with
  | inl heq =>
    have hsize : q.size = 0 := by
      have hsame := hlead.symm.trans heq
      rw [size_parts] at hsame
      omega
    have hnil : q.text = [] := (Text.byteLength_eq_zero_iff _).1 hsize
    rw [hnil]
    rfl
  | inr hcomment =>
    obtain ⟨c, hc, heq, -⟩ := hcomment
    have hstart : c.start = p.size + Text.byteLength blanks := heq.symm.trans hlead
    have hc := List.mem_reverse.1 hc
    rw [comments_parts] at hc
    cases List.mem_append.1 hc with
    | inl hc =>
      have := hp.bounds_comment hc
      omega
    | inr hc =>
      obtain ⟨e, he, rfl⟩ := List.mem_map.1 hc
      rw [Span.shift_start] at hstart
      exact hq.head?_any_eq_false (List.mem_append_right _ he) (by omega)

end Parts

/-- The outer parts of a space in which no comment is left: all of the first part is attached to the
statement in front, and all of the second part to the statement behind. -/
structure Flanks (p q : Source) : Prop where
  left_wellFormed : p.WellFormed
  right_wellFormed : q.WellFormed
  left_closed : p.text.endsWithBreak = false
  right_closed : q.text.head?.any Character.isLineBreak = false
  /-- The comments of the first part start on the line of the statement in front. -/
  left_line : ∀ c ∈ p.comments, p.lineOf c.start = 1
  /-- They reach to the end of the part. -/
  left_stop : p.attachedStop none 1 0 p.comments = p.size
  /-- The comments of the second part reach to its start. -/
  right_start : q.attachedStart none 0 (q.lineOf q.size) q.size q.comments.reverse = 0

namespace Flanks

variable {p q : Source} {blanks : Text}

/-- Comments stay attached as long as a line terminator stands between them. -/
theorem trail_lead_eq (h : Flanks p q) (hbreak : 1 ≤ Text.breaks blanks) :
    (p ++ ofText blanks ++ q).trail = p.size ∧
      (p ++ ofText blanks ++ q).lead = p.size + Text.byteLength blanks := by
  have hright : ∀ c ∈ q.comments,
      1 < (p ++ ofText blanks ++ q).lineOf (p.size + Text.byteLength blanks + c.start) := by
    intro c _
    rw [lineOf_parts_right h.left_closed h.right_closed]
    have : 1 ≤ q.lineOf c.start := Text.one_le_lineOf _ _
    omega
  have hleft : ∀ c ∈ p.comments, p.lineOf c.stop <
      (p ++ ofText blanks ++ q).lineOf (p ++ ofText blanks ++ q).size := by
    intro c hc
    have hle : p.lineOf c.stop ≤ Text.breaks p.text + 1 := by
      rw [← Text.lineOf_byteLength]
      exact p.text.lineOf_mono (h.left_wellFormed.bounds_comment hc).2
    rw [size_parts, lineOf_parts_right h.left_closed h.right_closed]
    have : 1 ≤ q.lineOf q.size := Text.one_le_lineOf _ _
    omega
  constructor
  · rw [trail_parts h.left_wellFormed h.left_closed hleft hright, h.left_stop]
  · rw [lead_parts h.left_wellFormed h.left_closed h.right_closed h.left_line hright, h.right_start,
      Nat.add_zero]

/-- Exchanged blanks leave a gap, and the blank lines are counted by their terminators. -/
theorem inner_eq (h : Flanks p q) (hbreak : 1 ≤ Text.breaks blanks) :
    (p ++ ofText blanks ++ q).innerGap? = some ⟨p.size, p.size + Text.byteLength blanks⟩ ∧
      (p ++ ofText blanks ++ q).innerBlankLines = Text.breaks blanks - 1 := by
  obtain ⟨htrail, hlead⟩ := h.trail_lead_eq hbreak
  exact ⟨innerGap?_parts h.left_wellFormed h.right_wellFormed htrail hlead,
    innerBlankLines_parts h.left_wellFormed h.right_wellFormed h.left_closed h.right_closed htrail
      hlead⟩

/-- The outer parts of a space are what its attached comments reach over. -/
theorem of_parts (hp : p.WellFormed) (hq : q.WellFormed) (hp_unbroken : p.ItemsUnbroken)
    (htrail : (p ++ ofText blanks ++ q).trail = p.size)
    (hlead : (p ++ ofText blanks ++ q).lead = p.size + Text.byteLength blanks) : Flanks p q := by
  have hm : (p ++ ofText blanks ++ q).WellFormed := (hp.append (wellFormed_ofText blanks)).append hq
  have hp_closed := endsWithBreak_of_trail hp hq hp_unbroken htrail
  have hq_closed := head?_any_of_lead hp hq hlead
  -- the comments of the first part are attached behind
  have hleft : ∀ c ∈ p.comments, p.lineOf c.start = 1 ∧ p.lineOf c.stop <
      (p ++ ofText blanks ++ q).lineOf (p ++ ofText blanks ++ q).size := by
    intro c hc
    have hmem : c ∈ (p ++ ofText blanks ++ q).comments := by
      rw [comments_parts]
      exact List.mem_append_left _ hc
    have hbounds := hp.bounds_comment hc
    obtain ⟨hline, hlast⟩ := of_stop_le_attachedStop hm.comments_ordered
      (fun e he => (hm.bounds_comment he).1) (fun e _ => Nat.zero_le _) hmem
      (htrail ▸ hbounds.2 : c.stop ≤ (p ++ ofText blanks ++ q).trail)
    rw [lineOf_parts_left hp_closed (by omega)] at hline
    rw [lineOf_parts_left hp_closed (by omega)] at hlast
    refine ⟨hline, ?_⟩
    simpa using hlast
  -- and those of the second part are attached above
  have hright : ∀ c ∈ q.comments,
      1 < (p ++ ofText blanks ++ q).lineOf (p.size + Text.byteLength blanks + c.start) := by
    intro c hc
    have hmem : c.shift (p.size + Text.byteLength blanks) ∈
        (p ++ ofText blanks ++ q).comments := by
      rw [comments_parts]
      exact List.mem_append_right _ (List.mem_map_of_mem hc)
    exact of_attachedStart_le (List.pairwise_reverse.2 hm.comments_ordered)
      (fun e he => (hm.bounds_comment (List.mem_reverse.1 he)).1)
      (fun e he => (hm.bounds_comment (List.mem_reverse.1 he)).2) (List.mem_reverse.2 hmem)
      (hlead ▸ Nat.le_add_right _ _ : (p ++ ofText blanks ++ q).lead ≤
        p.size + Text.byteLength blanks + c.start)
  refine ⟨hp, hq, hp_closed, hq_closed, fun c hc => (hleft c hc).1, ?_, ?_⟩
  · rw [← trail_parts hp hp_closed (fun c hc => (hleft c hc).2) hright, htrail]
  · have := lead_parts hp hp_closed hq_closed (fun c hc => (hleft c hc).1) hright
    omega

end Flanks

/-- A space in which no comment is left falls into three parts. -/
theorem Joint.exists_flanks {d : Source} {s t : Statement} (h : Joint a m d s t)
    (htidy : (a ++ m ++ d).Tidy) (hgap : m.innerGap? ≠ none) :
    ∃ (p q : Source) (blanks : Text), m = p ++ ofText blanks ++ q ∧ Flanks p q ∧
      (∀ c ∈ blanks, Character.isBlank c = true) ∧ m.trail = p.size ∧
      m.lead = p.size + Text.byteLength blanks := by
  obtain ⟨gap, hgap⟩ := Option.ne_none_iff_exists'.1 hgap
  obtain ⟨before, behind, hst⟩ := h.exists_statements
  obtain ⟨x, y, blanks, hx, hy, hpieces, hplace, -, hblank⟩ :=
    htidy.exists_gap hst (h.gap?_eq.trans (by rw [hgap]; rfl))
  rw [(gap?_eq_some hgap).2] at hplace
  have htrail : a.size + m.trail = x.size := congrArg Span.start hplace
  have hlead : a.size + m.lead = x.size + Text.byteLength blanks := congrArg Span.stop hplace
  -- the space is cut where the blanks start and where they end
  rw [append_assoc, append_assoc] at hpieces
  obtain ⟨p, hp, rfl, hrest⟩ := append_split h.left_wellFormed
    (h.space_wellFormed.append h.right_wellFormed) hx hpieces (by omega)
  rw [size_append] at htrail hlead
  have hle := h.space_wellFormed.lead_le
  have hp_blanks := hp.append (wellFormed_ofText blanks)
  rw [← append_assoc] at hrest
  obtain ⟨q, hq, rfl, -⟩ := append_split hp_blanks hy h.space_wellFormed hrest.symm (by
    rw [size_append]
    change p.size + Text.byteLength blanks ≤ m.size
    omega)
  have hunbroken := h.pieces_unbroken.2
  rw [itemsUnbroken_append hp_blanks, itemsUnbroken_append hp] at hunbroken
  have htrail' : (p ++ ofText blanks ++ q).trail = p.size := by omega
  have hlead' : (p ++ ofText blanks ++ q).lead = p.size + Text.byteLength blanks := by omega
  exact ⟨p, q, blanks, rfl, .of_parts hp hq hunbroken.1.1 htrail' hlead', hblank, htrail', hlead'⟩

end Source

end ImportOrder
