import ImportOrder.Proofs.Rule.Safety

/-!
# What belongs to a statement

The range of a statement is found by two searches that stop at the first comment that is not
attached, and the search above keeps track of the line on which the last comment taken starts. Here
it is told without searches: a comment belongs to the range if it and all comments between it and
the statement meet a condition each on its own, and of the blanks behind the last of them the rest
of the line belongs to the full range. The ranges of a well-formed source contain their statements
and do not overlap, so that no comment belongs to two statements.

## Main definitions

- `Source.Arranged`: statements and comments that take up room, each in order
- `Source.itemAfter`: what follows a comment above a statement
- `Source.Leads`, `Source.Trails`: the conditions on comments above and behind a statement
- `Source.Owns`: what belongs to the range of a statement
- `Source.Encloses`: a range around a statement

## Main statements

- `Source.attachedStart_le_iff`, `Source.le_attachedStop_iff`: the two searches
- `Source.range_owns_attached_comments`
- `Source.ranges_enclose_and_stay_apart`
-/

namespace ImportOrder

namespace Source

variable {source : Source}

/-- Statements and comments are parts of the text that take up room, each in order and without
overlaps. -/
structure Arranged (source : Source) : Prop extends source.Sliceable where
  spans_ordered : source.spans.Pairwise (·.stop ≤ ·.start)
  comments_ordered : source.comments.Pairwise (·.stop ≤ ·.start)
  room : ∀ x ∈ source.items, x.start < x.stop

theorem Legible.arranged (h : source.Legible) : source.Arranged := by
  have hspan : ∀ x ∈ source.items, source.text.HasSpan x := by
    intro x hx
    obtain ⟨c, part, hslice, -⟩ := h.visible x hx
    exact Text.hasSpan_iff.2 (by rw [hslice]; rfl)
  refine ⟨⟨fun s hs => ?_, fun c hc => ?_⟩, h.spans_ordered, h.comments_ordered, fun x hx => ?_⟩
  · exact hspan s.span (List.mem_append_left _ (List.mem_map_of_mem hs))
  · exact hspan c (List.mem_append_right _ hc)
  · obtain ⟨c, part, hslice, -⟩ := h.visible x hx
    have := Text.bounds_of_slice? hslice
    have := c.utf8Size_pos
    rw [Text.byteLength_cons] at *
    omega

theorem WellFormed.arranged (h : source.WellFormed) : source.Arranged :=
  h.legible.arranged

theorem Arranged.room_span (h : source.Arranged) {x : Span} (hx : x ∈ source.spans) :
    x.start < x.stop :=
  h.room x (List.mem_append_left _ hx)

theorem Arranged.room_comment (h : source.Arranged) {x : Span} (hx : x ∈ source.comments) :
    x.start < x.stop :=
  h.room x (List.mem_append_right _ hx)

/-- What follows a comment above a span: the next comment above the span, or the span itself. -/
def itemAfter (source : Source) (span c : Span) : Span :=
  (source.comments.find? fun d => c.stop ≤ d.start && d.stop ≤ span.start).getD span

/-- The condition on a comment above a span: it is not the `#!` line, it starts below the last line
of the statement before, and it ends on the line of what follows it or on the line above. -/
structure Leads (source : Source) (previous : Option Span) (span c : Span) : Prop where
  not_hashbang : source.hashbang? ≠ .ok (some c)
  below : ∀ p ∈ previous, source.lineOf p.stop < source.lineOf c.start
  near : source.lineOf c.stop = source.lineOf (source.itemAfter span c).start ∨
    source.lineOf c.stop + 1 = source.lineOf (source.itemAfter span c).start

/-- The condition on a comment behind a span: it starts on the line where the span ends, and it ends
above the first line of the statement after. -/
structure Trails (source : Source) (next : Option Span) (span c : Span) : Prop where
  same_line : source.lineOf c.start = source.lineOf span.stop
  above : ∀ n ∈ next, source.lineOf c.stop < source.lineOf n.start

/-- What belongs to the range of a statement, given the statements before and after. -/
structure Owns (source : Source) (previous next : Option Span) (span : Span)
    (range : AttachedRange) : Prop where
  /-- Both ranges start at one offset. -/
  start_eq : range.full.start = range.bare.start
  /-- A comment above belongs to the range if it and all comments below it are attached. -/
  above_iff : ∀ c ∈ source.comments, (∀ p ∈ previous, p.stop ≤ c.start) → c.stop ≤ span.start →
    (c.Inside range.bare ↔ ∀ d ∈ source.comments, c.start ≤ d.start → d.stop ≤ span.start →
      source.Leads previous span d)
  /-- A comment behind belongs to the range if it and all comments in front of it are attached. -/
  behind_iff : ∀ c ∈ source.comments, span.stop ≤ c.start → (∀ n ∈ next, c.stop ≤ n.start) →
    (c.Inside range.bare ↔ ∀ d ∈ source.comments, span.stop ≤ d.start → d.stop ≤ c.stop →
      source.Trails next span d)
  /-- A comment on either side that does not start with a blank belongs to both ranges or to
  neither. -/
  full_iff : ∀ c ∈ source.comments, source.text.holdsItem c →
    ((∀ p ∈ previous, p.stop ≤ c.start) ∧ c.stop ≤ span.start ∨
      span.stop ≤ c.start ∧ ∀ n ∈ next, c.stop ≤ n.start) →
    (c.Inside range.full ↔ c.Inside range.bare)
  /-- The full range has all blanks that follow on the line and one line terminator at most. -/
  tail : ∃ front blanks terminator rest,
    source.text = front ++ (blanks ++ (terminator ++ rest)) ∧
    Text.byteLength front = range.bare.stop ∧
    Text.byteLength (front ++ blanks ++ terminator) = range.full.stop ∧
    (∀ c ∈ blanks, Character.isInlineBlank c = true) ∧
    (∀ c ∈ (terminator ++ rest).head?, Character.isInlineBlank c = false) ∧
    Text.BreaksBefore terminator rest

/-! ## The searches -/

theorem attachedStart_le {hashbang : Option Span} {limit line start : Nat} {comments : List Span}
    (h : ∀ c ∈ comments, c.start ≤ start) :
    source.attachedStart hashbang limit line start comments ≤ start := by
  rcases source.attachedStart_cases hashbang limit line start comments with heq | ⟨c, hc, heq, -⟩
  · exact Nat.le_of_eq heq
  · exact heq ▸ h c hc

/-- The search above, with the comments `above` left, closest first, and those in `passed` taken: it
gets as far as a comment if every comment on the way meets the condition. -/
theorem attachedStart_le_iff {gap above passed : List Span} {span : Span} {hashbang : Option Span}
    {limit : Nat} (hgap : gap = above.reverse ++ passed)
    (hordered : gap.Pairwise (·.stop ≤ ·.start)) (hroom : ∀ c ∈ gap, c.start < c.stop)
    (hstop : ∀ c ∈ gap, c.stop ≤ span.start)
    (hnext : ∀ front c behind, gap = front ++ c :: behind →
      source.itemAfter span c = behind.head?.getD span) {c : Span} (hc : c ∈ above) :
    source.attachedStart hashbang limit (source.lineOf (passed.head?.getD span).start)
        (passed.head?.getD span).start above ≤ c.start ↔
      ∀ d ∈ above, c.start ≤ d.start → some d ≠ hashbang ∧ limit < source.lineOf d.start ∧
        source.lineOf (source.itemAfter span d).start ≤ source.lineOf d.stop + 1 := by
  induction above generalizing passed with
  | nil => exact absurd hc List.not_mem_nil
  | cons d above ih =>
    have hcut : gap = above.reverse ++ d :: passed := by simp [hgap]
    rw [← hnext _ d passed hcut]
    have hd : d.start < d.stop := hroom d (by simp [hcut])
    have hbefore : ∀ e ∈ above, e.start < d.start := by
      intro e he
      have hlt := hroom e (by simp [hcut, he])
      rw [hcut, List.pairwise_append] at hordered
      have hle := hordered.2.2 e (List.mem_reverse.2 he) d List.mem_cons_self
      omega
    have hbehind : d.stop ≤ (source.itemAfter span d).start := by
      rw [hnext _ d passed hcut]
      cases passed with
      | nil => exact hstop d (by simp [hcut])
      | cons e passed =>
        rw [hcut, List.pairwise_append, List.pairwise_cons] at hordered
        exact hordered.2.1.1 e List.mem_cons_self
    have hcd : c.start ≤ d.start := by
      rcases List.mem_cons.1 hc with rfl | hc
      · exact Nat.le_refl _
      · exact Nat.le_of_lt (hbefore c hc)
    rw [attachedStart]
    by_cases hleave : some d = hashbang ∨ source.lineOf d.start ≤ limit ∨
        source.lineOf d.stop < source.lineOf (source.itemAfter span d).start - 1
    · rw [if_pos hleave]
      constructor
      · intro hle
        omega
      · intro hall
        obtain ⟨hhash, hlimit, hnear⟩ := hall d List.mem_cons_self hcd
        rcases hleave with hleave | hleave | hleave
        · exact absurd hleave hhash
        · omega
        · omega
    · rw [if_neg hleave]
      simp only [not_or, Nat.not_le, Nat.not_lt] at hleave
      have hmeets : some d ≠ hashbang ∧ limit < source.lineOf d.start ∧
          source.lineOf (source.itemAfter span d).start ≤ source.lineOf d.stop + 1 :=
        ⟨hleave.1, hleave.2.1, by omega⟩
      rcases List.mem_cons.1 hc with rfl | hc
      · refine iff_of_true (attachedStart_le fun e he => Nat.le_of_lt (hbefore e he)) ?_
        intro e he hle
        rcases List.mem_cons.1 he with rfl | he
        · exact hmeets
        · have := hbefore e he
          omega
      · have ih := @ih (d :: passed) hcut hc
        rw [List.head?_cons, Option.getD_some] at ih
        rw [ih, List.forall_mem_cons]
        exact (and_iff_right fun _ => hmeets).symm

theorem le_attachedStop {limit : Option Nat} {line stop : Nat} {comments : List Span}
    (h : ∀ c ∈ comments, stop ≤ c.stop) :
    stop ≤ source.attachedStop limit line stop comments := by
  rcases source.attachedStop_cases limit line stop comments with heq | ⟨c, hc, heq, -⟩
  · exact Nat.le_of_eq heq.symm
  · exact heq ▸ h c hc

/-- The search behind gets as far as a comment if every comment on the way meets the condition. -/
theorem le_attachedStop_iff {gap : List Span} {limit : Option Nat} {line stop : Nat}
    (hordered : gap.Pairwise (·.stop ≤ ·.start)) (hroom : ∀ c ∈ gap, c.start < c.stop)
    (hstart : ∀ c ∈ gap, stop ≤ c.start) {c : Span} (hc : c ∈ gap) :
    c.stop ≤ source.attachedStop limit line stop gap ↔
      ∀ d ∈ gap, d.stop ≤ c.stop → source.lineOf d.start = line ∧
        ∀ n ∈ limit, source.lineOf d.stop < n := by
  induction gap generalizing stop with
  | nil => exact absurd hc List.not_mem_nil
  | cons d gap ih =>
    obtain ⟨hbehind, hordered⟩ := List.pairwise_cons.1 hordered
    obtain ⟨hd, hrooms⟩ := List.forall_mem_cons.1 hroom
    have hstop : stop ≤ d.start := hstart d List.mem_cons_self
    have hdc : d.stop ≤ c.stop := by
      rcases List.mem_cons.1 hc with rfl | hc
      · exact Nat.le_refl _
      · have := hbehind c hc
        have := hrooms c hc
        omega
    have hlimit : limit.any (· ≤ source.lineOf d.stop) = true ↔
        ¬ ∀ n ∈ limit, source.lineOf d.stop < n := by
      cases limit <;> simp
    rw [attachedStop]
    by_cases hleave : limit.any (· ≤ source.lineOf d.stop) = true ∨ source.lineOf d.start ≠ line
    · rw [if_pos hleave]
      constructor
      · intro hle
        omega
      · intro hall
        obtain ⟨hline, habove⟩ := hall d List.mem_cons_self hdc
        rcases hleave with hleave | hleave
        · exact absurd habove (hlimit.1 hleave)
        · exact absurd hline hleave
    · rw [if_neg hleave]
      simp only [not_or, not_not, hlimit] at hleave
      rcases List.mem_cons.1 hc with rfl | hc
      · refine iff_of_true (le_attachedStop fun e he => ?_) ?_
        · have := hbehind e he
          have := hrooms e he
          omega
        · intro e he hle
          rcases List.mem_cons.1 he with rfl | he
          · exact ⟨hleave.2, hleave.1⟩
          · have := hbehind e he
            have := hrooms e he
            omega
      · rw [ih hordered hrooms hbehind hc, List.forall_mem_cons]
        exact (and_iff_right fun _ => ⟨hleave.2, hleave.1⟩).symm

/-! ## Comments between neighbouring statements -/

section Gaps

variable {before behind : List Span} {span c : Span}

theorem Arranged.statementBefore?_eq (h : source.Arranged)
    (hs : source.spans = before ++ span :: behind) :
    source.statementBefore? span = before.getLast? :=
  statementBefore?_of_ordered h.spans_ordered (fun _ hx => h.room_span hx) hs

theorem Arranged.statementAfter?_eq (h : source.Arranged)
    (hs : source.spans = before ++ span :: behind) :
    source.statementAfter? span = behind.head? :=
  statementAfter?_of_ordered h.spans_ordered (fun _ hx => h.room_span hx) hs

theorem mem_commentsBefore_iff (h : source.Arranged)
    (hs : source.spans = before ++ span :: behind) :
    c ∈ source.commentsBefore span ↔
      c ∈ source.comments ∧ c.stop ≤ span.start ∧ ∀ p ∈ before.getLast?, p.stop ≤ c.start := by
  rw [commentsBefore, h.statementBefore?_eq hs]
  simp only [List.mem_filter, List.mem_reverse, Bool.and_eq_true, decide_eq_true_eq]
  cases before.getLast? with
  | none => simp
  | some p => simp

theorem mem_commentsAfter_iff (h : source.Arranged)
    (hs : source.spans = before ++ span :: behind) :
    c ∈ source.commentsAfter span ↔
      c ∈ source.comments ∧ span.stop ≤ c.start ∧ ∀ n ∈ behind.head?, c.stop ≤ n.start := by
  rw [commentsAfter, h.statementAfter?_eq hs]
  cases behind.head? with
  | none => simp
  | some n => simp

/-- What follows a comment above a statement stands next to it among the comments there. -/
theorem itemAfter_eq (h : source.Arranged) {front later : List Span}
    (hgap : (source.commentsBefore span).reverse = front ++ c :: later) :
    source.itemAfter span c = later.head?.getD span := by
  have hfilter : (source.commentsBefore span).reverse = source.comments.filter fun d =>
      d.stop ≤ span.start && (source.statementBefore? span).elim 0 (·.stop) ≤ d.start := by
    rw [commentsBefore, ← List.filter_reverse, List.reverse_reverse]
  rw [hfilter] at hgap
  have hmem : ∀ d ∈ front ++ c :: later, d ∈ source.comments ∧ d.stop ≤ span.start ∧
      (source.statementBefore? span).elim 0 (·.stop) ≤ d.start := by
    intro d hd
    rw [← hgap] at hd
    simpa [and_assoc] using hd
  have hc := hmem c (by simp)
  have hroom := h.room_comment hc.1
  have hordered := h.comments_ordered.filter fun d =>
    d.stop ≤ span.start && (source.statementBefore? span).elim 0 (·.stop) ≤ d.start
  rw [hgap, List.pairwise_append, List.pairwise_cons] at hordered
  -- comments behind `c` are behind the statement before as well
  have hfind : source.comments.find? (fun d => c.stop ≤ d.start && d.stop ≤ span.start) =
      (front ++ c :: later).find? fun d => c.stop ≤ d.start && d.stop ≤ span.start := by
    rw [← hgap, List.find?_filter]
    congr 1
    funext d
    rw [Bool.eq_iff_iff]
    simp only [Bool.and_eq_true, decide_eq_true_eq]
    omega
  have hnone : (front ++ [c]).find? (fun d => c.stop ≤ d.start && d.stop ≤ span.start) = none := by
    apply List.find?_eq_none.2
    intro d hd
    simp only [Bool.and_eq_true, decide_eq_true_eq, not_and]
    intro hle
    rcases List.mem_append.1 hd with hd | hd
    · have := hordered.2.2 d hd c List.mem_cons_self
      have := h.room_comment (hmem d (List.mem_append_left _ hd)).1
      omega
    · obtain rfl := List.mem_singleton.1 hd
      omega
  rw [itemAfter, hfind, show front ++ c :: later = (front ++ [c]) ++ later by simp,
    List.find?_append, hnone, Option.none_or]
  cases later with
  | nil => rfl
  | cons d later =>
    have hd := hmem d (by simp)
    have hcd := hordered.2.1.1 d List.mem_cons_self
    rw [List.find?_cons_of_pos (by simpa using ⟨hcd, hd.2.1⟩), List.head?_cons]

theorem stop_le_itemAfter (hle : c.stop ≤ span.start) :
    c.stop ≤ (source.itemAfter span c).start := by
  rw [itemAfter]
  cases hfind : source.comments.find? fun d => c.stop ≤ d.start && d.stop ≤ span.start with
  | none => exact hle
  | some d =>
    have hd := List.find?_some hfind
    simp only [Bool.and_eq_true, decide_eq_true_eq] at hd
    exact hd.1

theorem leads_iff {hashbang : Option Span} (hhash : source.hashbang? = .ok hashbang)
    (hle : c.stop ≤ span.start) (previous : Option Span) :
    source.Leads previous span c ↔
      some c ≠ hashbang ∧ previous.elim 0 (source.lineOf ·.stop) < source.lineOf c.start ∧
        source.lineOf (source.itemAfter span c).start ≤ source.lineOf c.stop + 1 := by
  have hmono : source.lineOf c.stop ≤ source.lineOf (source.itemAfter span c).start :=
    source.text.lineOf_mono (stop_le_itemAfter hle)
  have hpos : 1 ≤ source.lineOf c.start := source.text.one_le_lineOf c.start
  have hbelow : (∀ p ∈ previous, source.lineOf p.stop < source.lineOf c.start) ↔
      previous.elim 0 (source.lineOf ·.stop) < source.lineOf c.start := by
    cases previous with
    | none => simp; omega
    | some p => simp
  constructor
  · intro h
    refine ⟨?_, hbelow.1 h.below, ?_⟩
    · intro heq
      exact h.not_hashbang (heq ▸ hhash)
    · rcases h.near with hnear | hnear <;> omega
  · rintro ⟨hne, hlimit, hnear⟩
    refine ⟨?_, hbelow.2 hlimit, ?_⟩
    · intro heq
      exact hne (Except.ok.inj (hhash.symm.trans heq)).symm
    · omega

/-- The range of a statement gets as far as a comment above it if all comments on the way lead. -/
theorem attachedStart_commentsBefore_le_iff (h : source.Arranged)
    (hs : source.spans = before ++ span :: behind) {hashbang : Option Span}
    (hhash : source.hashbang? = .ok hashbang) (hc : c ∈ source.commentsBefore span) :
    source.attachedStart hashbang
        ((source.statementBefore? span).elim 0 (source.lineOf ·.stop)) (source.lineOf span.start)
        span.start (source.commentsBefore span) ≤ c.start ↔
      ∀ d ∈ source.comments, c.start ≤ d.start → d.stop ≤ span.start →
        source.Leads before.getLast? span d := by
  have hprevious := h.statementBefore?_eq hs
  have hgap : ∀ d ∈ (source.commentsBefore span).reverse,
      d ∈ source.comments ∧ d.stop ≤ span.start ∧ ∀ p ∈ before.getLast?, p.stop ≤ d.start :=
    fun d hd => (mem_commentsBefore_iff h hs).1 (List.mem_reverse.1 hd)
  have hordered : (source.commentsBefore span).reverse.Pairwise (·.stop ≤ ·.start) := by
    rw [commentsBefore, ← List.filter_reverse, List.reverse_reverse]
    exact h.comments_ordered.filter _
  have hsearch := @attachedStart_le_iff source _ (source.commentsBefore span) [] span hashbang
    ((source.statementBefore? span).elim 0 (source.lineOf ·.stop)) (List.append_nil _).symm hordered
    (fun d hd => h.room_comment (hgap d hd).1) (fun d hd => (hgap d hd).2.1)
    (fun front d later heq => itemAfter_eq h heq) c hc
  refine hsearch.trans ⟨fun hall d hd hle hstop => ?_, fun hall d hd hle => ?_⟩
  · -- a comment below one that is behind the statement before is behind it too
    have hbehind : ∀ p ∈ before.getLast?, p.stop ≤ d.start := by
      intro p hp
      have := (hgap c (List.mem_reverse.2 hc)).2.2 p hp
      omega
    rw [leads_iff hhash hstop, ← hprevious]
    exact hall d ((mem_commentsBefore_iff h hs).2 ⟨hd, hstop, hbehind⟩) hle
  · obtain ⟨hd, hstop, -⟩ := hgap d (List.mem_reverse.2 hd)
    rw [hprevious, ← leads_iff hhash hstop]
    exact hall d hd hle hstop

/-- The range of a statement gets as far as a comment behind it if all comments on the way trail. -/
theorem le_attachedStop_commentsAfter_iff (h : source.Arranged)
    (hs : source.spans = before ++ span :: behind) (hc : c ∈ source.commentsAfter span) :
    c.stop ≤ source.attachedStop ((source.statementAfter? span).map (source.lineOf ·.start))
        (source.lineOf span.stop) span.stop (source.commentsAfter span) ↔
      ∀ d ∈ source.comments, span.stop ≤ d.start → d.stop ≤ c.stop →
        source.Trails behind.head? span d := by
  have hnext := h.statementAfter?_eq hs
  have hgap : ∀ d ∈ source.commentsAfter span,
      d ∈ source.comments ∧ span.stop ≤ d.start ∧ ∀ n ∈ behind.head?, d.stop ≤ n.start :=
    fun d hd => (mem_commentsAfter_iff h hs).1 hd
  have hordered : (source.commentsAfter span).Pairwise (·.stop ≤ ·.start) :=
    h.comments_ordered.filter _
  have htrails : ∀ d, source.Trails behind.head? span d ↔
      source.lineOf d.start = source.lineOf span.stop ∧
        ∀ line ∈ (source.statementAfter? span).map (source.lineOf ·.start),
          source.lineOf d.stop < line := by
    intro d
    rw [hnext]
    constructor
    · intro htrails
      refine ⟨htrails.same_line, fun line hline => ?_⟩
      obtain ⟨n, hn, rfl⟩ := Option.map_eq_some_iff.1 hline
      exact htrails.above n hn
    · rintro ⟨hline, habove⟩
      exact ⟨hline, fun n hn => habove _ (Option.map_eq_some_iff.2 ⟨n, hn, rfl⟩)⟩
  rw [le_attachedStop_iff hordered (fun d hd => h.room_comment (hgap d hd).1)
    (fun d hd => (hgap d hd).2.1) hc]
  refine ⟨fun hall d hd hstart hle => ?_, fun hall d hd hle => ?_⟩
  · have habove : ∀ n ∈ behind.head?, d.stop ≤ n.start := by
      intro n hn
      have := (hgap c hc).2.2 n hn
      omega
    exact (htrails d).2 (hall d ((mem_commentsAfter_iff h hs).2 ⟨hd, hstart, habove⟩) hle)
  · obtain ⟨hd, hstart, -⟩ := hgap d hd
    exact (htrails d).1 (hall d hd hstart hle)

/-- No comment behind a statement crosses the end of the range, and none lies in the blanks that
follow. -/
theorem stop_le_attachedStop_of_holdsItem (h : source.Arranged)
    (hc : c ∈ source.comments) (hitem : source.text.holdsItem c) (hstart : span.stop ≤ c.start)
    (limit : Option Nat) (line : Nat) {front blanks rest : Text}
    (htext : source.text = front ++ blanks ++ rest)
    (hfront : Text.byteLength front =
      source.attachedStop limit line span.stop (source.commentsAfter span))
    (hblank : ∀ c ∈ blanks, Character.isBlank c = true)
    (hstop : c.stop ≤ Text.byteLength front + Text.byteLength blanks) :
    c.stop ≤ Text.byteLength front := by
  have hroom := h.room_comment hc
  apply Nat.le_of_not_lt
  intro hlt
  have hle : Text.byteLength front ≤ c.start := by
    rw [hfront] at hlt ⊢
    rcases source.attachedStop_cases limit line span.stop (source.commentsAfter span) with
      heq | ⟨d, hd, heq, -⟩
    · rw [heq]
      exact hstart
    · rw [heq] at hlt ⊢
      have hd : d ∈ source.comments := List.mem_of_mem_filter hd
      have hapart : source.comments.Pairwise Span.Apart := h.comments_ordered.imp Or.inl
      rcases hapart.forall hc hd (fun hcd => by rw [hcd] at hlt; omega) with hcd | hcd
      · have := h.room_comment hd
        omega
      · exact hcd
  have := Text.add_le_start_of_holdsItem htext hblank hitem hle
  omega

end Gaps

/-! ## Ranges -/

/-- The range of a statement has exactly the comments that are attached to it.

A comment above belongs to it if neither this comment nor one between it and the statement is the
`#!` line, starts at or above the last line of the statement before, or ends further up than on the
line above what follows it. A comment behind belongs to it if this comment and those between the
statement and it all start on the last line of the statement and end above the first line of the
statement after. The full range also has all blanks that follow on the line and one line terminator,
if there is one. -/
theorem range_owns_attached_comments {before behind : List Span} {span : Span}
    (h : source.Arranged) (hs : source.spans = before ++ span :: behind) :
    ∃ range, source.attachedRange span = .ok range ∧
      source.Owns before.getLast? behind.head? span range := by
  have hspan : source.text.HasSpan span := by
    obtain ⟨s, hmem, heq⟩ := List.mem_map.1 (show span ∈ source.spans by simp [hs])
    exact heq ▸ h.statements s hmem
  have hroom := h.room_span (x := span) (by simp [hs])
  obtain ⟨hashbang, hhash, -⟩ := h.exists_hashbang?
  obtain ⟨hstart_le, -⟩ := h.attachedStart_boundary hspan hashbang
    ((source.statementBefore? span).elim 0 (source.lineOf ·.stop)) (source.lineOf span.start)
  obtain ⟨hle_stop, hboundary⟩ := h.attachedStop_boundary hspan
    ((source.statementAfter? span).map (source.lineOf ·.start)) (source.lineOf span.stop)
  obtain ⟨front, rest, htext, hfront⟩ := hboundary
  obtain ⟨terminator, tail, hafter, hbreaks, hlength⟩ :=
    Text.exists_breaksBefore (rest.dropWhile Character.isInlineBlank)
  have hslice := Text.sliceFrom_eq_ok_iff.2 ⟨front, htext, hfront⟩
  -- the rest of the text is made of the blanks on the line, the terminator and what is left
  have hwhole : source.text =
      front ++ (rest.takeWhile Character.isInlineBlank ++ terminator) ++ tail := by
    rw [htext, List.append_assoc, List.append_assoc, ← hafter, List.takeWhile_append_dropWhile]
  have hinline : ∀ c ∈ rest.takeWhile Character.isInlineBlank, Character.isInlineBlank c = true :=
    List.all_eq_true.1 List.all_takeWhile
  have hblank : ∀ c ∈ rest.takeWhile Character.isInlineBlank ++ terminator,
      Character.isBlank c = true := by
    intro c hc
    rcases List.mem_append.1 hc with hc | hc
    · exact Character.isBlank_of_isInlineBlank (hinline c hc)
    · exact Character.isBlank_of_isLineBreak (hbreaks.isLineBreak c hc)
  refine ⟨_, by simp only [attachedRange, hhash, Checked.ok_bind, hslice]; rfl, rfl, ?_, ?_, ?_, ?_⟩
  · intro c hc hprevious hstop
    rw [← attachedStart_commentsBefore_le_iff h hs hhash
      ((mem_commentsBefore_iff h hs).2 ⟨hc, hstop, hprevious⟩)]
    exact and_iff_left (by simp only; omega)
  · intro c hc hstart hnext
    rw [← le_attachedStop_commentsAfter_iff h hs
      ((mem_commentsAfter_iff h hs).2 ⟨hc, hstart, hnext⟩)]
    exact and_iff_right (by simp only; omega)
  · rintro c hc hitem (⟨-, hstop⟩ | ⟨hstart, -⟩)
    · simp only [Span.Inside]
      omega
    · refine and_congr_right fun _ => ⟨fun hstop => ?_, fun hstop => ?_⟩
      · rw [← hfront]
        refine stop_le_attachedStop_of_holdsItem h hc hitem hstart _ _ hwhole hfront hblank ?_
        rwa [Text.byteLength_append, hlength, hfront, ← Nat.add_assoc]
      · simp only at hstop ⊢
        omega
  · refine ⟨front, rest.takeWhile Character.isInlineBlank, terminator, tail, ?_, hfront, ?_,
      hinline, ?_, hbreaks⟩
    · rw [hwhole, List.append_assoc, List.append_assoc]
    · rw [Text.byteLength_append, Text.byteLength_append, hlength, hfront]
    · intro c hc
      rw [← hafter] at hc
      have hhead := List.head?_dropWhile_not Character.isInlineBlank rest
      rwa [hc] at hhead

/-- A file with comments of all sorts: a `#!` line, one behind code, one above a blank line, one
that ends on the line of a statement, and two behind that statement. -/
def annotated : Source where
  text := "#!x\n1; // a\n\n// b\n\n/* c\r\n*/ 2; /* d */ // e\r\n3;\n".toList
  statements := [.plain ⟨4, 6⟩, .plain ⟨28, 30⟩, .plain ⟨45, 47⟩]
  comments := [⟨0, 3⟩, ⟨7, 11⟩, ⟨13, 17⟩, ⟨19, 27⟩, ⟨31, 38⟩, ⟨39, 43⟩]

/-- Of the comments above the statement in the middle the last one belongs to it, and both behind it
do. -/
theorem annotated_owns_attached_comments : annotated.Arranged ∧
    annotated.attachedRange ⟨28, 30⟩ = .ok ⟨⟨19, 45⟩, ⟨19, 43⟩⟩ ∧
    annotated.Leads (some ⟨4, 6⟩) ⟨28, 30⟩ ⟨19, 27⟩ ∧
    ¬ annotated.Leads (some ⟨4, 6⟩) ⟨28, 30⟩ ⟨13, 17⟩ ∧
    annotated.Trails (some ⟨45, 47⟩) ⟨28, 30⟩ ⟨31, 38⟩ ∧
    annotated.Trails (some ⟨45, 47⟩) ⟨28, 30⟩ ⟨39, 43⟩ := by
  have h : annotated.Arranged := WellFormed.arranged (by decide)
  have hrange : annotated.attachedRange ⟨28, 30⟩ = .ok ⟨⟨19, 45⟩, ⟨19, 43⟩⟩ := by decide
  obtain ⟨range, heq, howns⟩ := @range_owns_attached_comments annotated [⟨4, 6⟩] [⟨45, 47⟩] ⟨28, 30⟩
    h rfl
  obtain rfl := Except.ok.inj (heq.symm.trans hrange)
  have hleads := (howns.above_iff ⟨19, 27⟩ (by decide) (by decide) (by decide)).1 (by decide)
    ⟨19, 27⟩ (by decide) (by decide) (by decide)
  have htrails := (howns.behind_iff ⟨39, 43⟩ (by decide) (by decide) (by decide)).1 (by decide)
  refine ⟨h, hrange, hleads, ?_, htrails ⟨31, 38⟩ (by decide) (by decide) (by decide),
    htrails ⟨39, 43⟩ (by decide) (by decide) (by decide)⟩
  intro hfar
  -- all comments from there on would lead, but the range starts below
  refine absurd ((howns.above_iff ⟨13, 17⟩ (by decide) (by decide) (by decide)).2 ?_) (by decide)
  intro d hd hle hstop
  have hd : d = ⟨13, 17⟩ ∨ d = ⟨19, 27⟩ := by
    revert d
    decide
  rcases hd with rfl | rfl
  · exact hfar
  · exact hleads

/-! ## Ranges side by side -/

/-- A range around a statement: both its parts can be cut out of the text, and the full one adds
something behind only. -/
structure Encloses (source : Source) (span : Span) (range : AttachedRange) : Prop where
  start_eq : range.full.start = range.bare.start
  start_le : range.bare.start ≤ span.start
  le_bare_stop : span.stop ≤ range.bare.stop
  bare_stop_le : range.bare.stop ≤ range.full.stop
  full_stop_le : range.full.stop ≤ source.text.byteLength
  hasSpan_bare : source.text.HasSpan range.bare
  hasSpan_full : source.text.HasSpan range.full

theorem WellFormed.encloses (h : source.WellFormed) {span : Span} (hspan : span ∈ source.spans) :
    source.Encloses span (source.rangeOf span) := by
  have ha := h.attached hspan
  have hroom := h.bounds_span hspan
  have hstart := ha.start_le
  have hstop := ha.le_stop
  have hbare := ha.bare_stop_le
  have hfull : source.text.Boundary (source.rangeOf span).full.stop :=
    (ha.clear_full_stop h).boundary
  refine ⟨ha.start_eq.symm, ha.start_eq ▸ hstart, hstop, hbare, hfull.le_byteLength, ?_, ?_⟩
  · refine ⟨?_, ?_, ha.clear_stop.boundary⟩
    · rw [ha.start_eq]
      omega
    · rw [ha.start_eq]
      exact ha.clear_start.boundary
  · exact ⟨by omega, ha.clear_start.boundary, hfull⟩

/-- An item that reaches over no border of a span lies inside it or apart from it. -/
theorem Clear.inside_or_apart {span x : Span} (hstart : source.Clear span.start)
    (hstop : source.Clear span.stop) (hx : x ∈ source.items) : x.Inside span ∨ x.Apart span := by
  rcases hstart.outside x hx with hx' | hx'
  · exact .inr (.inl hx')
  · rcases hstop.outside x hx with hx'' | hx''
    · exact .inl ⟨hx', hx''⟩
    · exact .inr (.inr hx'')

theorem countP_inside_le_one {ranges : List AttachedRange}
    (h : ranges.Pairwise (·.full.stop ≤ ·.full.start)) {c : Span} (hroom : c.start < c.stop) :
    ranges.countP (fun range => c.Inside range.full) ≤ 1 := by
  induction ranges with
  | nil => exact Nat.zero_le 1
  | cons range ranges ih =>
    obtain ⟨hbehind, h⟩ := List.pairwise_cons.1 h
    by_cases hc : c.Inside range.full
    · -- the other ranges start behind the comment
      have hnone : ranges.countP (fun range => c.Inside range.full) = 0 := by
        apply List.countP_eq_zero.2
        intro other hother
        have hle := hbehind other hother
        rw [decide_eq_true_eq]
        intro hc'
        have := hc.2
        have := hc'.1
        omega
      rw [List.countP_cons_of_pos (by simpa using hc), hnone]
    · rw [List.countP_cons_of_neg (by simpa using hc)]
      exact ih h

/-- The ranges of the statements contain their statements and do not overlap, and a comment lies in
one range at most and is never cut. -/
theorem ranges_enclose_and_stay_apart (h : source.WellFormed) :
    ∃ ranges, source.spans.mapM source.attachedRange = .ok ranges ∧
      List.Forall₂ source.Encloses source.spans ranges ∧
      ranges.Pairwise (·.full.stop ≤ ·.full.start) ∧
      ∀ c ∈ source.comments,
        ranges.countP (fun range => c.Inside range.full) ≤ 1 ∧
        ∀ range ∈ ranges, (c.Inside range.full ∨ c.Apart range.full) ∧
          (c.Inside range.bare ∨ c.Apart range.bare) := by
  have hpairwise : (source.spans.map source.rangeOf).Pairwise (·.full.stop ≤ ·.full.start) := by
    rw [List.pairwise_map]
    refine h.spans_ordered.imp_of_mem ?_
    intro s t hs ht hle
    exact (h.attached hs).full_stop_le_full_start h hs ht (h.attached ht) hle
  refine ⟨source.spans.map source.rangeOf, Checked.mapM_eq_ok fun s hs => h.attachedRange_eq hs,
    ?_, hpairwise, fun c hc => ⟨?_, ?_⟩⟩
  · rw [List.forall₂_map_right_iff, List.forall₂_same]
    intro s hs
    exact h.encloses hs
  · exact countP_inside_le_one hpairwise (h.bounds_comment hc).1
  · intro range hrange
    obtain ⟨s, hs, rfl⟩ := List.mem_map.1 hrange
    have ha := h.attached hs
    have hc : c ∈ source.items := List.mem_append_right _ hc
    refine ⟨Clear.inside_or_apart ha.clear_start (ha.clear_full_stop h) hc,
      Clear.inside_or_apart ?_ ha.clear_stop hc⟩
    rw [ha.start_eq]
    exact ha.clear_start

theorem annotated_ranges_stay_apart : annotated.WellFormed ∧
    ∃ ranges, annotated.spans.mapM annotated.attachedRange = .ok ranges ∧
      ranges = [⟨⟨4, 12⟩, ⟨4, 11⟩⟩, ⟨⟨19, 45⟩, ⟨19, 43⟩⟩, ⟨⟨45, 48⟩, ⟨45, 47⟩⟩] ∧
      List.Forall₂ annotated.Encloses annotated.spans ranges ∧
      ranges.Pairwise (·.full.stop ≤ ·.full.start) := by
  have h : annotated.WellFormed := by decide
  obtain ⟨ranges, hranges, hencloses, hapart, -⟩ := ranges_enclose_and_stay_apart h
  exact ⟨h, ranges, hranges, Except.ok.inj (hranges.symm.trans (by decide)), hencloses, hapart⟩

/-- A file in which the second statement is said to start with a byte order mark. -/
def marked : Source where
  text := "1;\uFEFF2;".toList
  statements := [.plain ⟨0, 2⟩, .plain ⟨2, 7⟩]
  comments := []

/-- A byte order mark has not the property `White_Space`, but it is a blank, and the range in front
takes it away from the statement that starts with it. -/
theorem marked_ranges_overlap : marked.Arranged ∧ marked.comments = [] ∧
    (∀ x ∈ marked.items, ∃ c part, marked.text.slice? x = some (c :: part) ∧
      Character.isWhiteSpace c = false) ∧
    ∃ ranges, marked.spans.mapM marked.attachedRange = .ok ranges ∧
      ¬ ranges.Pairwise (·.full.stop ≤ ·.full.start) := by
  refine ⟨⟨⟨by decide, by decide⟩, by decide, by decide, by decide⟩, rfl, ?_,
    [⟨⟨0, 5⟩, ⟨0, 2⟩⟩, ⟨⟨2, 7⟩, ⟨2, 7⟩⟩], by decide, by decide⟩
  intro x hx
  have hx : x = ⟨0, 2⟩ ∨ x = ⟨2, 7⟩ := by simpa [items, spans, marked, Statement.plain] using hx
  rcases hx with rfl | rfl
  · exact ⟨'1', [';'], by decide, by decide⟩
  · exact ⟨'\uFEFF', ['2', ';'], by decide, by decide⟩

end Source

end ImportOrder
