import ImportOrder.Proofs.Attachment
import Mathlib.Order.Interval.Finset.Nat

/-!
# Which lines are blank

The rule on blank lines adds up the lines between one comment and the next. The sum is the number of
the lines between two spans that no comment touches, however the comments share lines with each
other and with the spans. What the rule reports about two neighbouring statements can therefore be
told by the set of these lines.

## Main definitions

- `Source.untouchedLines`: the lines between two spans that no comment touches
- `ImportNewlines.TellsLines`, `ImportNewlines.Tells`: what the report about two statements says

## Main statements

- `Source.blankLinesFrom_eq_card`: the sum over the comments
- `Source.Arranged.bare_stop_le_bare_start`: the ranges of neighbouring statements do not overlap
- `ImportNewlines.reports_tell_untouched_lines`
-/

namespace ImportOrder

namespace Source

variable {source : Source}

/-- A comment touches the lines from that of its start to that of its end. -/
def Touches (source : Source) (c : Span) (line : Nat) : Prop :=
  source.lineOf c.start ≤ line ∧ line ≤ source.lineOf c.stop

instance (source : Source) (c : Span) (line : Nat) : Decidable (source.Touches c line) :=
  inferInstanceAs (Decidable (_ ∧ _))

/-- The lines strictly between the end of one span and the start of another that none of the
comments between the two touches. -/
def untouchedLines (source : Source) (left right : Span) : Finset Nat :=
  (Finset.Ioo (source.lineOf left.stop) (source.lineOf right.start)).filter fun line =>
    ∀ c ∈ source.commentsBetween left right, ¬ source.Touches c line

/-- The first comment parts the lines that no comment touches into those above it, which are all the
lines there, and those below it. -/
theorem filter_untouched_cons {line last : Nat} {c : Span} {comments : List Span}
    (hline : line ≤ source.lineOf c.start) (hc : source.lineOf c.start ≤ source.lineOf c.stop)
    (hlast : source.lineOf c.stop ≤ last)
    (hbelow : ∀ d ∈ comments, source.lineOf c.stop ≤ source.lineOf d.start) :
    ((Finset.Ioo line last).filter fun n => ∀ d ∈ c :: comments, ¬ source.Touches d n) =
      Finset.Ioo line (source.lineOf c.start) ∪
        (Finset.Ioo (source.lineOf c.stop) last).filter fun n =>
          ∀ d ∈ comments, ¬ source.Touches d n := by
  ext n
  simp only [Finset.mem_filter, Finset.mem_union, Finset.mem_Ioo, List.forall_mem_cons]
  constructor
  · rintro ⟨⟨hn, hn'⟩, hnot, hall⟩
    by_cases habove : n < source.lineOf c.start
    · exact .inl ⟨hn, habove⟩
    · refine .inr ⟨⟨?_, hn'⟩, hall⟩
      apply Nat.lt_of_not_le
      intro hle
      exact hnot ⟨Nat.le_of_not_lt habove, hle⟩
  · rintro (⟨hn, habove⟩ | ⟨⟨hn, hn'⟩, hall⟩)
    · refine ⟨⟨hn, by omega⟩, fun htouches => ?_, fun d hd htouches => ?_⟩
      · exact absurd habove (Nat.not_lt.2 htouches.1)
      · have := hbelow d hd
        have := htouches.1
        omega
    · refine ⟨⟨by omega, hn'⟩, fun htouches => ?_, hall⟩
      exact absurd hn (Nat.not_lt.2 htouches.2)

/-- The sum over the comments that are left is the number of lines that none of them touches. -/
theorem blankLinesFrom_eq_card {line last : Nat} {comments : List Span}
    (hordered : comments.Pairwise (·.stop ≤ ·.start)) (hspans : ∀ c ∈ comments, c.start ≤ c.stop)
    (hline : ∀ c ∈ comments, line ≤ source.lineOf c.start)
    (hlast : ∀ c ∈ comments, source.lineOf c.stop ≤ last) :
    source.blankLinesFrom last line comments =
      ((Finset.Ioo line last).filter fun n => ∀ c ∈ comments, ¬ source.Touches c n).card := by
  induction comments generalizing line with
  | nil =>
    rw [blankLinesFrom, Finset.filter_true_of_mem fun n _ => nofun, Nat.card_Ioo, Nat.sub_add_eq]
  | cons c comments ih =>
    obtain ⟨hbehind, hordered⟩ := List.pairwise_cons.1 hordered
    obtain ⟨hspan, hspans⟩ := List.forall_mem_cons.1 hspans
    obtain ⟨hclast, hlast⟩ := List.forall_mem_cons.1 hlast
    have hc : source.lineOf c.start ≤ source.lineOf c.stop := source.text.lineOf_mono hspan
    have hbelow : ∀ d ∈ comments, source.lineOf c.stop ≤ source.lineOf d.start := fun d hd =>
      source.text.lineOf_mono (hbehind d hd)
    have hdisjoint : Disjoint (Finset.Ioo line (source.lineOf c.start))
        ((Finset.Ioo (source.lineOf c.stop) last).filter fun n =>
          ∀ d ∈ comments, ¬ source.Touches d n) := by
      rw [Finset.disjoint_left]
      intro n hn hn'
      have habove := (Finset.mem_Ioo.1 hn).2
      have hunder := (Finset.mem_Ioo.1 (Finset.mem_filter.1 hn').1).1
      omega
    rw [blankLinesFrom, ih hordered hspans hbelow hlast,
      filter_untouched_cons (hline c List.mem_cons_self) hc hclast hbelow,
      Finset.card_union_of_disjoint hdisjoint, Nat.card_Ioo, Nat.sub_add_eq]

theorem blankLinesBetween_eq_card (hordered : source.comments.Pairwise (·.stop ≤ ·.start))
    (hspans : ∀ c ∈ source.comments, c.start ≤ c.stop) (left right : Span) :
    source.blankLinesBetween left right = (source.untouchedLines left right).card := by
  have hmem : ∀ c ∈ source.commentsBetween left right,
      c ∈ source.comments ∧ left.stop ≤ c.start ∧ c.stop ≤ right.start := fun c hc => by
    simpa [commentsBetween, and_assoc] using hc
  rw [blankLinesBetween, untouchedLines]
  by_cases hnext : source.lineOf right.start ≤ source.lineOf left.stop + 1
  · -- there is no line strictly between
    have hempty : Finset.Ioo (source.lineOf left.stop) (source.lineOf right.start) = ∅ := by
      rw [← Finset.card_eq_zero, Nat.card_Ioo]
      omega
    rw [if_pos hnext, hempty, Finset.filter_empty, Finset.card_empty]
  · rw [if_neg hnext]
    exact blankLinesFrom_eq_card (hordered.filter _) (fun c hc => hspans c (hmem c hc).1)
      (fun c hc => source.text.lineOf_mono (hmem c hc).2.1)
      fun c hc => source.text.lineOf_mono (hmem c hc).2.2

/-! ## Ranges of neighbouring statements -/

theorem bare_of_attachedRange {span : Span} {range : AttachedRange}
    (h : source.attachedRange span = .ok range) : ∃ hashbang,
    range.bare.start = source.attachedStart hashbang
      ((source.statementBefore? span).elim 0 (source.lineOf ·.stop)) (source.lineOf span.start)
      span.start (source.commentsBefore span) ∧
    range.bare.stop = source.attachedStop
      ((source.statementAfter? span).map (source.lineOf ·.start)) (source.lineOf span.stop)
      span.stop (source.commentsAfter span) := by
  rw [attachedRange_eq_lineTailFrom] at h
  obtain ⟨hashbang, -, h⟩ := Checked.bind_eq_ok.1 h
  obtain ⟨full, -, h⟩ := Checked.bind_eq_ok.1 h
  obtain rfl := Except.ok.inj h
  exact ⟨hashbang, rfl, rfl⟩

/-- A comment behind a statement starts on the last line of the statement, and a comment above the
next one starts below that line. -/
theorem Arranged.bare_stop_le_bare_start (h : source.Arranged) {before behind : List Span}
    {s t : Span} (hs : source.spans = before ++ s :: t :: behind) {left right : AttachedRange}
    (hleft : source.attachedRange s = .ok left) (hright : source.attachedRange t = .ok right) :
    left.bare.stop ≤ right.bare.start := by
  have ht : source.spans = (before ++ [s]) ++ t :: behind := by simp [hs]
  have hst : s.stop ≤ t.start := by
    have hordered := h.spans_ordered
    rw [hs, List.pairwise_append, List.pairwise_cons] at hordered
    exact hordered.2.1.1 t List.mem_cons_self
  obtain ⟨-, -, hstop⟩ := bare_of_attachedRange hleft
  obtain ⟨hashbang, hstart, -⟩ := bare_of_attachedRange hright
  rw [h.statementBefore?_eq ht, List.getLast?_concat, Option.elim_some] at hstart
  rw [hstop, hstart]
  obtain heq | ⟨c, hc, heq, hline⟩ := source.attachedStop_cases
    ((source.statementAfter? s).map (source.lineOf ·.start)) (source.lineOf s.stop) s.stop
    (source.commentsAfter s)
  · obtain heq' | ⟨d, hd, heq', -⟩ := source.attachedStart_cases hashbang (source.lineOf s.stop)
      (source.lineOf t.start) t.start (source.commentsBefore t)
    · rw [heq, heq']
      exact hst
    · rw [heq, heq']
      exact ((mem_commentsBefore_iff h ht).1 hd).2.2 s List.getLast?_concat
  · obtain ⟨hcmem, -, hct⟩ := (mem_commentsAfter_iff h hs).1 hc
    obtain heq' | ⟨d, hd, heq', -, hline'⟩ := source.attachedStart_cases hashbang
      (source.lineOf s.stop) (source.lineOf t.start) t.start (source.commentsBefore t)
    · rw [heq, heq']
      exact hct t rfl
    · rw [heq, heq']
      have hdmem := ((mem_commentsBefore_iff h ht).1 hd).1
      have hstart : c.start < d.start := by
        apply Nat.lt_of_not_le
        intro hdc
        have := source.text.lineOf_mono hdc
        rw [← hline] at hline'
        exact absurd hline' (Nat.not_lt.2 this)
      have hroom := h.room_comment hdmem
      have hapart : source.comments.Pairwise Span.Apart := h.comments_ordered.imp Or.inl
      cases hapart.forall hcmem hdmem fun heq => by rw [heq] at hstart; omega with
      | inl hle => exact hle
      | inr hle => omega

end Source

namespace ImportNewlines

variable {source : Source} {left right : Span} {g h : Option Group}

/-- Both statements belong to one group. -/
def OneGroup (g h : Option Group) : Prop := ∃ group, g = some group ∧ h = some group

/-- The statements belong to different groups. -/
def TwoGroups (g h : Option Group) : Prop :=
  ∃ group group', g = some group ∧ h = some group' ∧ group ≠ group'

theorem oneGroup_some {a b : Group} : OneGroup (some a) (some b) ↔ a = b := by
  simp [OneGroup, eq_comm]

theorem twoGroups_some {a b : Group} : TwoGroups (some a) (some b) ↔ a ≠ b := by
  simp [TwoGroups]

/-- What the rule says about two ranges: a line is to be removed if they are of one group and there
is an untouched line between them, and inserted if they are of two groups and there is none. -/
structure TellsLines (source : Source) (g h : Option Group) (left right : Span)
    (report? : Option Diagnostic) : Prop where
  id_eq : ∀ d ∈ report?, d.id = "removeNewline" ∨ d.id = "insertNewline"
  removes_iff : (∃ d ∈ report?, d.id = "removeNewline") ↔
    OneGroup g h ∧ (source.untouchedLines left right).Nonempty
  inserts_iff : (∃ d ∈ report?, d.id = "insertNewline") ↔
    TwoGroups g h ∧ source.untouchedLines left right = ∅
  /-- The report is about the start of the second range. -/
  about : ∀ d ∈ report?, d.rule = name ∧ d.span = Span.at right.start
  fix_iff : ∀ d ∈ report?, (d.fix.isSome = true ↔ source.commentsBetween left right = [])

/-- The report about a statement `t` right behind `s`. -/
def Tells (source : Source) (packages : Packages) (s t : Statement) (report? : Option Diagnostic) :
    Prop :=
  ∃ g h left right, source.group? packages s = .ok g ∧ source.group? packages t = .ok h ∧
    source.attachedRange s.span = .ok left ∧ source.attachedRange t.span = .ok right ∧
    TellsLines source g h left.bare right.bare report?

theorem gap?_isSome_iff (hle : left.stop ≤ right.start) :
    (source.gap? left right).isSome = true ↔ source.commentsBetween left right = [] := by
  rw [Source.gap?]
  by_cases hnil : source.commentsBetween left right = []
  · rw [if_pos ⟨hle, hnil⟩]
    exact iff_of_true rfl hnil
  · rw [if_neg fun hfree => hnil hfree.2]
    exact iff_of_false Bool.false_ne_true hnil

theorem isSome_of_removalFix {fix? : Option Fix} (hfix : removalFix source left right = .ok fix?) :
    fix?.isSome = (source.gap? left right).isSome := by
  rw [removalFix] at hfix
  cases hgap : source.gap? left right with
  | none =>
    rw [hgap] at hfix
    exact Except.ok.inj hfix ▸ rfl
  | some gap =>
    rw [hgap] at hfix
    obtain ⟨indentation, -, hfix⟩ := Checked.bind_eq_ok.1 hfix
    obtain ⟨terminator, -, hfix⟩ := Checked.bind_eq_ok.1 hfix
    exact Except.ok.inj hfix ▸ rfl

theorem isSome_of_insertionFix {fix? : Option Fix}
    (hfix : insertionFix source left right = .ok fix?) :
    fix?.isSome = (source.gap? left right).isSome := by
  rw [insertionFix] at hfix
  cases hgap : source.gap? left right with
  | none =>
    rw [hgap] at hfix
    exact Except.ok.inj hfix ▸ rfl
  | some gap =>
    rw [hgap] at hfix
    obtain ⟨terminator, -, hfix⟩ := Checked.bind_eq_ok.1 hfix
    exact Except.ok.inj hfix ▸ rfl

theorem tellsLines_none (hremoves : ¬ (OneGroup g h ∧ (source.untouchedLines left right).Nonempty))
    (hinserts : ¬ (TwoGroups g h ∧ source.untouchedLines left right = ∅)) :
    TellsLines source g h left right none :=
  ⟨nofun, iff_of_false nofun hremoves, iff_of_false nofun hinserts, nofun, nofun⟩

theorem tellsLines_some {id message : String} {fix? : Option Fix}
    (hid : id = "removeNewline" ∨ id = "insertNewline")
    (hremoves : id = "removeNewline" ↔
      OneGroup g h ∧ (source.untouchedLines left right).Nonempty)
    (hinserts : id = "insertNewline" ↔ TwoGroups g h ∧ source.untouchedLines left right = ∅)
    (hfix : fix?.isSome = true ↔ source.commentsBetween left right = []) :
    TellsLines source g h left right (some (report source id message right fix?)) := by
  constructor <;> simp only [Option.mem_some_iff, forall_eq', exists_eq_left']
  · exact hid
  · exact hremoves
  · exact hinserts
  · exact ⟨rfl, rfl⟩
  · exact hfix

/-- The report about two ranges of which the second stands behind the first. -/
theorem exists_tellsLines (hcomments : source.comments.Pairwise (·.stop ≤ ·.start))
    (hspans : ∀ c ∈ source.comments, c.start ≤ c.stop) (hleft : source.text.HasSpan left)
    (hright : source.text.HasSpan right) (hle : left.stop ≤ right.start) (g h : Option Group) :
    ∃ report? : Option Diagnostic, checkPair source ⟨g, left⟩ ⟨h, right⟩ = .ok report?.toList ∧
      TellsLines source g h left right report? := by
  have hcount := Source.blankLinesBetween_eq_card hcomments hspans left right
  have hsome : 1 ≤ source.blankLinesBetween left right ↔
      (source.untouchedLines left right).Nonempty := by
    rw [hcount]
    exact Finset.card_pos
  have hnone : source.blankLinesBetween left right = 0 ↔
      source.untouchedLines left right = ∅ := by
    rw [hcount, Finset.card_eq_zero]
  obtain ⟨removal, hremoval, -⟩ :=
    exists_removalFix_fits hleft.stop_boundary hright.start_boundary
  obtain ⟨insertion, hinsertion, -⟩ :=
    exists_insertionFix_fits hleft.stop_boundary hright.start_boundary
  rw [checkPair]
  cases g with
  | none => exact ⟨none, rfl, tellsLines_none (by simp [OneGroup]) (by simp [TwoGroups])⟩
  | some group =>
    cases h with
    | none => exact ⟨none, rfl, tellsLines_none (by simp [OneGroup]) (by simp [TwoGroups])⟩
    | some group' =>
      simp only [hsome, hnone, hremoval, hinsertion, Checked.ok_bind]
      by_cases hsame : group = group'
      · have hone : OneGroup (some group) (some group') := oneGroup_some.2 hsame
        by_cases hlines : (source.untouchedLines left right).Nonempty
        · rw [if_pos ⟨hsame, hlines⟩]
          refine ⟨some _, rfl, tellsLines_some (.inl rfl) (iff_of_true rfl ⟨hone, hlines⟩)
            (iff_of_false (by decide) fun hboth => hlines.ne_empty hboth.2) ?_⟩
          rw [isSome_of_removalFix hremoval, gap?_isSome_iff hle]
        · rw [if_neg fun hboth => hlines hboth.2, if_neg fun hboth => hboth.1 hsame]
          exact ⟨none, rfl, tellsLines_none (fun hboth => hlines hboth.2)
            fun hboth => twoGroups_some.1 hboth.1 hsame⟩
      · have htwo : TwoGroups (some group) (some group') := twoGroups_some.2 hsame
        rw [if_neg fun hboth => hsame hboth.1]
        by_cases hlines : source.untouchedLines left right = ∅
        · rw [if_pos ⟨hsame, hlines⟩]
          refine ⟨some _, rfl, tellsLines_some (.inr rfl)
            (iff_of_false (by decide) fun hboth => hboth.2.ne_empty hlines)
            (iff_of_true rfl ⟨htwo, hlines⟩) ?_⟩
          rw [isSome_of_insertionFix hinsertion, gap?_isSome_iff hle]
        · rw [if_neg fun hboth => hlines hboth.2]
          exact ⟨none, rfl, tellsLines_none (fun hboth => hsame (oneGroup_some.1 hboth.1))
            fun hboth => hlines hboth.2⟩

theorem item_eq_of_sliceable (h : source.Sliceable) (packages : Packages) {s : Statement}
    (hs : s ∈ source.statements) : item source packages s = .ok (itemOf source packages s) := by
  obtain ⟨range, hrange, -⟩ := h.exists_attachedRange (h.statements s hs)
  simp only [item, itemOf, Source.group?, Source.rangeOf, h.classify_eq hs, hrange, bind,
    Except.bind]
  rfl

/-- Two imports of one group with a comment and two blank lines between them. -/
def parted : Source where
  text := "import {a} from 'a';\n\n/* x\n*/\n\nimport {b} from 'b';\n".toList
  statements := [⟨.importDecl, 1, false, some "a", ⟨0, 20⟩⟩,
    ⟨.importDecl, 1, false, some "b", ⟨31, 51⟩⟩]
  comments := [⟨22, 29⟩]

end ImportNewlines

end ImportOrder
