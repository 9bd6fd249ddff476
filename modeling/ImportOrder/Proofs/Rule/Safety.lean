import ImportOrder.Proofs.Fixing
import ImportOrder.Proofs.Rule.Reports
import ImportOrder.Proofs.Source.Offsets

/-!
# Checks never cut a text badly

A source need not be what a parser makes of its text: its statements may overlap, be empty or say
what the text does not, and its comments may nest or lie across statements. All that is asked for
here is that the spans can be cut out of the text. Then the three rules cut the text at places where
it can be cut, whatever they make of the statements, and so does a pass that applies their fixes. An
offset that lies in front of all ranges and not behind the top lies in front of all their edits.

## Main definitions

- `Text.HasSpan`: a span that can be cut out of a text
- `Source.Sliceable`: a source whose spans can be cut out of its text
- `Source.Floor`: an offset in front of everything that the rules move
- `Source.Readable`: what can be read at a span by offsets

## Main statements

- `Source.Sliceable.exists_attachedRange`: the ranges of statements can be cut out
- `StatementOrder.exists_check_fits`, `ImportSort.exists_check_fits`,
  `ImportNewlines.exists_check_fits`: the rules succeed, and their fixes can be applied
- `Fixing.exists_check_fits`, `Fixing.exists_checkAll_fits`: so do all three
- `Fixing.check_never_cuts_badly`
-/

namespace ImportOrder

/-- A span that can be cut out of a text. -/
structure Text.HasSpan (text : Text) (span : Span) : Prop where
  start_le_stop : span.start ≤ span.stop
  start_boundary : text.Boundary span.start
  stop_boundary : text.Boundary span.stop

namespace Text

variable {text : Text} {span : Span}

theorem Boundary.le_byteLength {n : Nat} (h : text.Boundary n) : n ≤ text.byteLength := by
  obtain ⟨front, rest, rfl, rfl⟩ := h
  simp

theorem hasSpan_at {n : Nat} (h : text.Boundary n) : text.HasSpan (Span.at n) :=
  ⟨Nat.le_refl n, h, h⟩

theorem HasSpan.exists_slice (h : text.HasSpan span) : ∃ part, text.slice span = .ok part :=
  Text.exists_slice h.start_boundary h.stop_boundary h.start_le_stop

theorem HasSpan.fits {edit : Edit} (h : text.HasSpan edit.span) : edit.Fits text :=
  ⟨h.start_le_stop, h.start_boundary, h.stop_boundary⟩

theorem hasSpan_iff : text.HasSpan span ↔ (text.slice? span).isSome = true := by
  constructor
  · intro h
    obtain ⟨part, hpart⟩ := h.exists_slice
    rw [slice_eq_ok_iff_slice?.1 hpart]
    rfl
  · intro h
    obtain ⟨part, hpart⟩ := Option.isSome_iff_exists.1 h
    obtain ⟨front, rest, rfl, hstart, hstop⟩ := slice?_eq_some_iff.1 hpart
    exact ⟨by omega, ⟨front, part ++ rest, by simp, hstart⟩,
      ⟨front ++ part, rest, rfl, by simpa using hstop⟩⟩

instance (text : Text) (span : Span) : Decidable (text.HasSpan span) :=
  decidable_of_iff _ hasSpan_iff.symm

theorem HasSpan.exists_tokenKind (h : text.HasSpan span) (index : Nat) :
    ∃ kind, text.tokenKind span index = .ok kind := by
  obtain ⟨part, hpart⟩ := h.exists_slice
  rw [tokenKind, Nat.min_eq_left h.stop_boundary.le_byteLength]
  split
  · exact ⟨Token.kindAt index part, by rw [hpart]; rfl⟩
  · exact ⟨none, rfl⟩

end Text

/-- The report and its edits are about spans of the text. -/
structure Diagnostic.Fits (d : Diagnostic) (text : Text) : Prop where
  span : text.HasSpan d.span
  edits : ∀ fix ∈ d.fix, ∀ edit ∈ fix.edits, text.HasSpan edit.span

/-- The report is about a span of the text, and so are its edits, which start at or behind an
offset. -/
structure Diagnostic.FitsFrom (d : Diagnostic) (text : Text) (n : Nat) : Prop where
  span : text.HasSpan d.span
  fix_fits : ∀ fix ∈ d.fix, fix.FitsFrom text n

theorem Diagnostic.FitsFrom.fits {d : Diagnostic} {text : Text} {n : Nat} (h : d.FitsFrom text n) :
    d.Fits text :=
  ⟨h.span, fun fix hfix edit hedit =>
    have hedit := (h.fix_fits fix hfix edit hedit).1
    ⟨hedit.start_le_stop, hedit.start_boundary, hedit.stop_boundary⟩⟩

namespace Source

variable {source : Source} {span : Span}

/-- No range of a statement starts in front of the offset, and neither does what is moved to the
top. -/
structure Floor (source : Source) (n : Nat) : Prop where
  le_range : ∀ span ∈ source.spans, ∀ range, source.attachedRange span = .ok range →
    n ≤ range.full.start ∧ n ≤ range.bare.start
  le_top : ∀ top, source.top = .ok top → n ≤ top

theorem floor_zero (source : Source) : source.Floor 0 :=
  ⟨fun _ _ _ _ => ⟨Nat.zero_le _, Nat.zero_le _⟩, fun _ _ => Nat.zero_le _⟩

/-- The spans of statements and comments can be cut out of the text. -/
structure Sliceable (source : Source) : Prop where
  statements : ∀ s ∈ source.statements, source.text.HasSpan s.span
  comments : ∀ c ∈ source.comments, source.text.HasSpan c

theorem sliceable_ofParts {text : Text} {statements : List Statement} {comments : List Span}
    (hstatements : ∀ s ∈ statements, text.HasSpan s.span)
    (hcomments : ∀ c ∈ comments, text.HasSpan c) :
    (ofParts text statements comments).Sliceable :=
  ⟨hstatements, fun c hc => hcomments c (List.mem_mergeSort.1 hc)⟩

namespace Sliceable

theorem hasSpan (h : source.Sliceable) (hspan : span ∈ source.spans) :
    source.text.HasSpan span := by
  obtain ⟨s, hs, rfl⟩ := List.mem_map.1 hspan
  exact h.statements s hs

theorem exists_hashbang? (h : source.Sliceable) :
    ∃ hashbang, source.hashbang? = .ok hashbang ∧ ∀ c ∈ hashbang, c ∈ source.comments := by
  unfold Source.hashbang?
  cases hcomments : source.comments with
  | nil => exact ⟨none, rfl, by simp⟩
  | cons comment comments =>
    obtain ⟨part, hpart⟩ := (h.comments comment (by simp [hcomments])).exists_slice
    simp only [Source.slice, hpart, Checked.ok_bind]
    split
    · split
      · exact ⟨some comment, rfl, by simp⟩
      · exact ⟨none, rfl, by simp⟩
    · exact ⟨none, rfl, by simp⟩

theorem exists_afterLineBreak {n : Nat} (hn : source.text.Boundary n) :
    ∃ stop, source.afterLineBreak n = .ok stop ∧ source.text.Boundary stop := by
  obtain ⟨front, rest, htext, rfl⟩ := hn
  obtain ⟨terminator, tail, rfl, hlength, -⟩ := Text.exists_lineBreak rest
  refine ⟨Text.byteLength front + Text.lineBreakLength (terminator ++ tail), ?_, ?_⟩
  · rw [afterLineBreak, htext, Text.sliceFrom_append]
    rfl
  · exact ⟨front ++ terminator, tail, by simp [htext], by simp [hlength]⟩

theorem exists_lineTailFrom {n : Nat} (hn : source.text.Boundary n) :
    ∃ stop, source.lineTailFrom n = .ok stop ∧ n ≤ stop ∧ source.text.Boundary stop := by
  obtain ⟨front, rest, htext, rfl⟩ := hn
  obtain ⟨terminator, tail, hrest, hlength, -⟩ := exists_blanks rest
  refine ⟨Text.byteLength (front ++ rest.takeWhile Character.isInlineBlank ++ terminator), ?_, ?_,
    front ++ rest.takeWhile Character.isInlineBlank ++ terminator, tail, ?_, rfl⟩
  · rw [lineTailFrom_eq, htext, Text.sliceFrom_append, Text.byteLength_append,
      Text.byteLength_append, hlength]
    rfl
  · simp only [Text.byteLength_append]
    omega
  · rw [htext, List.append_assoc, List.append_assoc, ← List.append_assoc _ terminator, ← hrest]

theorem classify_eq (h : source.Sliceable) {s : Statement} (hs : s ∈ source.statements) :
    source.classify s = .ok (source.passage s).category := by
  obtain ⟨part, hpart⟩ := Option.isSome_iff_exists.1 (Text.hasSpan_iff.1 (h.statements s hs))
  exact classify_of_slice? hpart

theorem exists_classify (h : source.Sliceable) {s : Statement} (hs : s ∈ source.statements) :
    ∃ category, source.classify s = .ok category :=
  ⟨_, h.classify_eq hs⟩

/-- A range starts with its span or with a comment in front of it. -/
theorem attachedStart_boundary (h : source.Sliceable) (hspan : source.text.HasSpan span)
    (hashbang : Option Span) (limit line : Nat) :
    source.attachedStart hashbang limit line span.start (source.commentsBefore span) ≤ span.start ∧
      source.text.Boundary
        (source.attachedStart hashbang limit line span.start (source.commentsBefore span)) := by
  rcases source.attachedStart_cases hashbang limit line span.start
    (source.commentsBefore span) with heq | ⟨c, hc, heq, -⟩
  · rw [heq]
    exact ⟨Nat.le_refl _, hspan.start_boundary⟩
  · simp only [commentsBefore, List.mem_filter, List.mem_reverse, Bool.and_eq_true,
      decide_eq_true_eq] at hc
    have hcomment := h.comments c hc.1
    rw [heq]
    exact ⟨hcomment.start_le_stop.trans hc.2.1, hcomment.start_boundary⟩

/-- A range without the end of its line ends with its span or with a comment behind it. -/
theorem attachedStop_boundary (h : source.Sliceable) (hspan : source.text.HasSpan span)
    (limit : Option Nat) (line : Nat) :
    span.stop ≤ source.attachedStop limit line span.stop (source.commentsAfter span) ∧
      source.text.Boundary
        (source.attachedStop limit line span.stop (source.commentsAfter span)) := by
  rcases source.attachedStop_cases limit line span.stop (source.commentsAfter span) with
    heq | ⟨c, hc, heq, -⟩
  · rw [heq]
    exact ⟨Nat.le_refl _, hspan.stop_boundary⟩
  · simp only [commentsAfter, List.mem_filter, Bool.and_eq_true, decide_eq_true_eq] at hc
    have hcomment := h.comments c hc.1
    rw [heq]
    exact ⟨hc.2.1.trans hcomment.start_le_stop, hcomment.stop_boundary⟩

/-- The ranges around a span are not reversed, and they begin and end where the text can be cut. -/
theorem exists_attachedRange (h : source.Sliceable) (hspan : source.text.HasSpan span) :
    ∃ range, source.attachedRange span = .ok range ∧ source.text.HasSpan range.full ∧
      source.text.HasSpan range.bare ∧
      source.lineTailFrom range.bare.stop = .ok range.full.stop := by
  obtain ⟨hashbang, hhash, -⟩ := h.exists_hashbang?
  simp only [attachedRange_eq_lineTailFrom, hhash, Checked.ok_bind]
  obtain ⟨hstart_le, hstart⟩ := h.attachedStart_boundary hspan hashbang
    ((source.statementBefore? span).elim 0 (source.lineOf ·.stop)) (source.lineOf span.start)
  obtain ⟨hle_stop, hstop⟩ := h.attachedStop_boundary hspan
    ((source.statementAfter? span).map (source.lineOf ·.start)) (source.lineOf span.stop)
  obtain ⟨full, hfull, hle_full, hfull_boundary⟩ := exists_lineTailFrom hstop
  have hle := hstart_le.trans (hspan.start_le_stop.trans hle_stop)
  exact ⟨_, by rw [hfull]; rfl, ⟨hle.trans hle_full, hstart, hfull_boundary⟩,
    ⟨hle, hstart, hstop⟩, hfull⟩

theorem exists_relocate {range : Span} {m n : Nat} (hrange : source.text.HasSpan range)
    (hn : source.text.Boundary n) (hmr : m ≤ range.start) (hmn : m ≤ n) :
    ∃ fix, Fix.relocate source.text range n = .ok fix ∧ fix.FitsFrom source.text m := by
  obtain ⟨moved, hmoved⟩ := hrange.exists_slice
  refine ⟨_, by rw [Fix.relocate, hmoved]; rfl, fun edit hedit => ?_⟩
  simp only [List.mem_cons, List.not_mem_nil, or_false] at hedit
  rcases hedit with rfl | rfl
  · exact ⟨hrange.fits, hmr⟩
  · exact ⟨(Text.hasSpan_at hn).fits, hmn⟩

end Sliceable

end Source

/-! ## The rules -/

namespace StatementOrder

variable {source : Source} {seen : List (Category × Span)} {span : Span} {m : Nat}

theorem exists_insertionPoint_boundary (h : source.Sliceable) (hfloor : source.Floor m)
    (hseen : ∀ x ∈ seen, x.2 ∈ source.spans) (category : Category) :
    ∃ n, insertionPoint source seen category = .ok n ∧ source.text.Boundary n ∧ m ≤ n := by
  unfold insertionPoint
  cases hfind : seen.find? (·.1.rank ≤ category.rank) with
  | some found =>
    have hfound := hseen found (List.mem_of_find?_eq_some hfind)
    obtain ⟨range, hrange, hfull, -⟩ := h.exists_attachedRange (h.hasSpan hfound)
    have hle := (hfloor.le_range found.2 hfound range hrange).1
    simp only [hrange]
    exact ⟨range.full.stop, rfl, hfull.stop_boundary, hle.trans hfull.start_le_stop⟩
  | none =>
    have htop : ∃ n, source.top = .ok n ∧ source.text.Boundary n := by
      obtain ⟨hashbang, hhash, hcomment⟩ := h.exists_hashbang?
      simp only [Source.top, hhash, Checked.ok_bind]
      cases hashbang with
      | none => exact ⟨0, rfl, Text.boundary_zero source.text⟩
      | some c =>
        exact Source.Sliceable.exists_afterLineBreak (h.comments c (hcomment c rfl)).stop_boundary
    obtain ⟨n, hn, hboundary⟩ := htop
    exact ⟨n, hn, hboundary, hfloor.le_top n hn⟩

theorem exists_reportAfter_fits (h : source.Sliceable) (hfloor : source.Floor m)
    (hseen : ∀ x ∈ seen, x.2 ∈ source.spans) (hspan : span ∈ source.spans) (category : Category) :
    ∃ ds, reportAfter source seen category span = .ok ds ∧
      ∀ d ∈ ds, d.FitsFrom source.text m := by
  unfold reportAfter
  cases seen.head?.bind (Violation.between ·.1 category) with
  | none => exact ⟨[], rfl, by simp⟩
  | some violation =>
    obtain ⟨range, hrange, hfull, -⟩ := h.exists_attachedRange (h.hasSpan hspan)
    obtain ⟨n, hn, hboundary, hmn⟩ := exists_insertionPoint_boundary h hfloor hseen category
    obtain ⟨fix, hfix, hfits⟩ := Source.Sliceable.exists_relocate hfull hboundary
      (hfloor.le_range span hspan range hrange).1 hmn
    simp only [report, hrange, hn, hfix, Checked.ok_bind]
    refine ⟨_, rfl, fun d hd => ?_⟩
    obtain rfl := List.mem_singleton.1 hd
    refine ⟨hfull, fun own hown => ?_⟩
    obtain rfl := Option.some.inj hown
    exact hfits

theorem exists_checkFrom_fits (h : source.Sliceable) (hfloor : source.Floor m)
    {statements : List Statement} (hstatements : ∀ s ∈ statements, s ∈ source.statements)
    (hseen : ∀ x ∈ seen, x.2 ∈ source.spans) :
    ∃ ds, checkFrom source seen statements = .ok ds ∧ ∀ d ∈ ds, d.FitsFrom source.text m := by
  induction statements generalizing seen with
  | nil => exact ⟨[], rfl, by simp⟩
  | cons s statements ih =>
    have hs := hstatements s List.mem_cons_self
    have hspan : s.span ∈ source.spans := List.mem_map_of_mem hs
    obtain ⟨category, hcategory⟩ := h.exists_classify hs
    obtain ⟨here, hhere, hfits⟩ := exists_reportAfter_fits h hfloor hseen hspan category
    obtain ⟨later, hlater, hfits'⟩ := ih (fun t ht => hstatements t (List.mem_cons_of_mem s ht))
      (List.forall_mem_cons.2 ⟨show (category, s.span).2 ∈ source.spans from hspan, hseen⟩)
    refine ⟨here ++ later, ?_, fun d hd => ?_⟩
    · simp only [checkFrom, hcategory, hhere, hlater, Checked.ok_bind]
      rfl
    · exact (List.mem_append.1 hd).elim (hfits d) (hfits' d)

theorem exists_check_fits (h : source.Sliceable) (hfloor : source.Floor m) (packages : Packages) :
    ∃ ds, rule.check source packages = .ok ds ∧ ∀ d ∈ ds, d.FitsFrom source.text m :=
  exists_checkFrom_fits h hfloor (fun _ hs => hs) (by simp)

end StatementOrder

namespace ImportSort

variable {source : Source} {m : Nat}

theorem exists_checkRun_fits (h : source.Sliceable) (hfloor : source.Floor m)
    {entries : List (String × Span)} (hentries : ∀ x ∈ entries.map (·.2), x ∈ source.spans)
    (packages : Packages) :
    ∃ ds, checkRun source packages entries = .ok ds ∧ ∀ d ∈ ds, d.FitsFrom source.text m := by
  unfold checkRun
  cases hmisplaced : misplaced? packages entries with
  | none => exact ⟨[], rfl, by simp⟩
  | some pair =>
    obtain ⟨actual, expected⟩ := pair
    obtain ⟨hactual, hexpected⟩ := mem_of_misplaced? hmisplaced
    have hactual := hentries actual hactual
    have hexpected := hentries expected hexpected
    obtain ⟨place, hplace, hplace_full, -⟩ := h.exists_attachedRange (h.hasSpan hactual)
    obtain ⟨range, hrange, hfull, -⟩ := h.exists_attachedRange (h.hasSpan hexpected)
    obtain ⟨fix, hfix, hfits⟩ := Source.Sliceable.exists_relocate hfull hplace_full.start_boundary
      (hfloor.le_range expected hexpected range hrange).1
      (hfloor.le_range actual hactual place hplace).1
    simp only [hplace, hrange, hfix, Checked.ok_bind]
    refine ⟨_, rfl, fun d hd => ?_⟩
    obtain rfl := List.mem_singleton.1 hd
    refine ⟨hfull, fun own hown => ?_⟩
    obtain rfl := Option.some.inj hown
    exact hfits

theorem exists_check_fits (h : source.Sliceable) (hfloor : source.Floor m) (packages : Packages) :
    ∃ ds, rule.check source packages = .ok ds ∧ ∀ d ∈ ds, d.FitsFrom source.text m := by
  have hclassify : ∀ s ∈ source.statements, ∃ x : Category × Statement,
      (·, s) <$> source.classify s = .ok x ∧ x.2 ∈ source.statements := by
    intro s hs
    obtain ⟨category, hcategory⟩ := h.exists_classify hs
    exact ⟨(category, s), by rw [hcategory]; rfl, hs⟩
  obtain ⟨classified, hclassified, hmem⟩ := Checked.exists_mapM hclassify
  have hrun : ∀ run ∈ runs classified, ∃ ds, (checkRun source packages ∘ entries) run = .ok ds ∧
      ∀ d ∈ ds, d.FitsFrom source.text m := by
    intro run hrun
    refine exists_checkRun_fits h hfloor (fun x hx => ?_) packages
    -- an entry of a run is a statement of the source
    obtain ⟨entry, hentry, rfl⟩ := List.mem_map.1 hx
    obtain ⟨⟨category, s⟩, hs, hentry⟩ := List.mem_filterMap.1 hentry
    obtain ⟨path, -, rfl⟩ := Option.map_eq_some_iff.1 hentry
    have hflat : (category, s) ∈ (runs classified).flatten := List.mem_flatten.2 ⟨run, hrun, hs⟩
    rw [runs, List.flatten_splitBy] at hflat
    exact List.mem_map_of_mem (hmem (category, s) hflat)
  obtain ⟨reports, hreports, hfits⟩ := Checked.exists_mapM hrun
  refine ⟨reports.flatten, ?_, fun d hd => ?_⟩
  · simp only [rule, hclassified, hreports, Checked.ok_bind]
    rfl
  · obtain ⟨own, hown, hd⟩ := List.mem_flatten.1 hd
    exact hfits own hown d hd

end ImportSort

namespace ImportNewlines

variable {source : Source} {m : Nat}

theorem exists_checkPair_fits {previous next : Item} (hleft : source.text.HasSpan previous.range)
    (hright : source.text.HasSpan next.range) (hm : m ≤ previous.range.start) :
    ∃ ds, checkPair source previous next = .ok ds ∧ ∀ d ∈ ds, d.FitsFrom source.text m := by
  obtain ⟨removal, hremoval, hfits⟩ :=
    exists_removalFix_fits hleft.stop_boundary hright.start_boundary
  obtain ⟨insertion, hinsertion, hfits'⟩ :=
    exists_insertionFix_fits hleft.stop_boundary hright.start_boundary
  have hreport : ∀ (id message : String) (fix : Option Fix),
      (∀ own ∈ fix, own.FitsFrom source.text previous.range.stop) →
      ∀ d ∈ [report source id message next.range fix], d.FitsFrom source.text m := by
    intro id message fix hfix d hd
    obtain rfl := List.mem_singleton.1 hd
    refine ⟨Text.hasSpan_at hright.start_boundary, fun own hown edit hedit => ?_⟩
    obtain ⟨hedit, hstop⟩ := hfix own hown edit hedit
    exact ⟨hedit, hm.trans (hleft.start_le_stop.trans hstop)⟩
  rw [checkPair]
  split
  · simp only [hremoval, hinsertion, Checked.ok_bind]
    split
    · exact ⟨_, rfl, hreport _ _ removal hfits⟩
    · split
      · exact ⟨_, rfl, hreport _ _ insertion hfits'⟩
      · exact ⟨[], rfl, by simp⟩
  · exact ⟨[], rfl, by simp⟩

theorem exists_check_fits (h : source.Sliceable) (hfloor : source.Floor m) (packages : Packages) :
    ∃ ds, rule.check source packages = .ok ds ∧ ∀ d ∈ ds, d.FitsFrom source.text m := by
  have hitem : ∀ s ∈ source.statements, ∃ x, item source packages s = .ok x ∧
      source.text.HasSpan x.range ∧ m ≤ x.range.start := by
    intro s hs
    obtain ⟨category, hcategory⟩ := h.exists_classify hs
    obtain ⟨range, hrange, -, hbare, -⟩ := h.exists_attachedRange (h.statements s hs)
    have hle := hfloor.le_range s.span (List.mem_map_of_mem hs) range hrange
    simp only [item, Source.group?, hcategory, hrange, Checked.ok_bind]
    exact ⟨_, rfl, hbare, hle.2⟩
  obtain ⟨items, hitems, hspans⟩ := Checked.exists_mapM hitem
  have hpair : ∀ pair ∈ items.zip items.tail, ∃ ds, checkPair source pair.1 pair.2 = .ok ds ∧
      ∀ d ∈ ds, d.FitsFrom source.text m := by
    intro pair hpair
    obtain ⟨hprevious, hnext⟩ := List.of_mem_zip hpair
    obtain ⟨hleft, hm⟩ := hspans _ hprevious
    exact exists_checkPair_fits hleft (hspans _ (List.mem_of_mem_tail hnext)).1 hm
  obtain ⟨reports, hreports, hfits⟩ := Checked.exists_mapM hpair
  refine ⟨reports.flatten, ?_, fun d hd => ?_⟩
  · simp only [rule, hitems, Checked.ok_bind, hreports]
    rfl
  · obtain ⟨own, hown, hd⟩ := List.mem_flatten.1 hd
    exact hfits own hown d hd

end ImportNewlines

namespace Fixing

theorem exists_check_fits {source : Source} {m : Nat} (h : source.Sliceable)
    (hfloor : source.Floor m) (packages : Packages) :
    ∀ rule ∈ allRules, ∃ ds, rule.check source packages = .ok ds ∧
      ∀ d ∈ ds, d.FitsFrom source.text m := by
  intro rule hrule
  simp only [allRules, List.mem_cons, List.not_mem_nil, or_false] at hrule
  rcases hrule with rfl | rfl | rfl
  · exact StatementOrder.exists_check_fits h hfloor packages
  · exact ImportSort.exists_check_fits h hfloor packages
  · exact ImportNewlines.exists_check_fits h hfloor packages

/-- A check with all rules succeeds, and what it reports can be applied. -/
theorem exists_checkAll_fits {source : Source} (h : source.Sliceable) (packages : Packages) :
    ∃ diagnostics, source.check allRules packages = .ok diagnostics ∧
      ∀ d ∈ diagnostics, d.Fits source.text := by
  obtain ⟨reports, hreports, hfits⟩ :=
    Checked.exists_mapM (exists_check_fits h (Source.floor_zero source) packages)
  refine ⟨reports.flatten.mergeSort Diagnostic.precedes, ?_, fun d hd => ?_⟩
  · simp only [Source.check, Source.diagnostics, hreports, Checked.ok_bind]
    rfl
  · obtain ⟨own, hown, hd⟩ := List.mem_flatten.1 (List.mem_mergeSort.1 hd)
    exact (hfits own hown d hd).fits

end Fixing

/-! ## Passes -/

namespace Text

variable {text : Text} {edits : List Edit} {ds : List Diagnostic} {outcome : FixOutcome}

theorem applyEdits_count {cursor : Nat} {last : Option Nat}
    (h : text.applyEdits cursor last edits = .ok outcome) :
    outcome.applied + outcome.skipped = edits.length := by
  induction edits generalizing cursor last outcome with
  | nil =>
    obtain ⟨rest, -, h⟩ := Checked.bind_eq_ok.1 h
    obtain rfl := Except.ok.inj h
    rfl
  | cons edit edits ih =>
    rw [applyEdits] at h
    split at h
    · obtain ⟨later, hlater, h⟩ := Checked.bind_eq_ok.1 h
      obtain rfl := Except.ok.inj h
      rw [List.length_cons, ← ih hlater, Nat.add_assoc]
    · obtain ⟨kept, -, h⟩ := Checked.bind_eq_ok.1 h
      obtain ⟨later, hlater, h⟩ := Checked.bind_eq_ok.1 h
      obtain rfl := Except.ok.inj h
      rw [List.length_cons, ← ih hlater, Nat.add_right_comm]

/-- Every fix is applied or left out; there are not more edits than fixes. -/
theorem applyFixes_count (h : text.applyFixes ds = .ok outcome) :
    outcome.applied + outcome.skipped = (ds.filterMap (·.fix)).length := by
  obtain ⟨merged, hmerged, h⟩ := Checked.bind_eq_ok.1 h
  obtain ⟨made, hmade, h⟩ := Checked.bind_eq_ok.1 h
  obtain rfl := Except.ok.inj h
  have hle : (merged.filterMap id).length ≤ (ds.filterMap (·.fix)).length :=
    Checked.length_mapM hmerged ▸ List.length_filterMap_le id merged
  have hcount := applyEdits_count hmade
  rw [List.length_mergeSort] at hcount
  -- a fix whose edits cannot be merged counts as left out
  simp only
  omega

theorem exists_applyFixes_of_fits (h : ∀ d ∈ ds, d.Fits text) :
    ∃ outcome, text.applyFixes ds = .ok outcome ∧
      outcome.applied + outcome.skipped = (ds.filterMap (·.fix)).length := by
  have hfits : ∀ d ∈ ds, ∀ fix ∈ d.fix, fix.FitsFrom text (byteLength []) := by
    intro d hd fix hfix edit hedit
    exact ⟨((h d hd).edits fix hfix edit hedit).fits, Nat.zero_le _⟩
  obtain ⟨outcome, -, happly, -⟩ := exists_applyFixes (List.nil_append text).symm hfits
  exact ⟨outcome, happly, applyFixes_count happly⟩

end Text

/-- What the rules read at a span can be read by offsets, with every cut, every byte and every
difference of offsets checked, and comes out the same. -/
structure Source.Readable (source : Source) (span : Span) : Prop where
  /-- The tokens of the span. -/
  tokens : ∀ index, ∃ kind, source.text.probe span index = .ok kind ∧
    source.text.tokenKind span index = .ok kind
  /-- The ranges around the span, of which the larger one takes the end of the line along. -/
  range : ∃ range, source.attachedRange span = .ok range ∧ source.text.HasSpan range.full ∧
    source.text.HasSpan range.bare ∧ source.lineTailFrom range.bare.stop = .ok range.full.stop
  /-- The line terminator in use, if the span is a gap. -/
  terminator : ∃ terminator, source.lineBreakFrom span = .ok terminator ∧
    source.lineBreak span = .ok terminator
  /-- The lines of all offsets and where these lines start. -/
  lines : ∀ offset, ∃ index, source.text.lineIndex offset = .ok index ∧
    source.text.lineOf offset = index + 1 ∧
    source.text.lineStarts[index]? = some (source.text.lineStart offset)

theorem Source.Sliceable.readable {source : Source} {span : Span} (h : source.Sliceable)
    (hspan : source.text.HasSpan span) : source.Readable span := by
  refine ⟨fun index => ?_, h.exists_attachedRange hspan, ?_, fun offset => ?_⟩
  · obtain ⟨kind, hkind⟩ := hspan.exists_tokenKind index
    exact ⟨kind, (source.text.probe_eq_tokenKind span index).trans hkind, hkind⟩
  · obtain ⟨terminator, hterminator⟩ := ImportNewlines.exists_lineBreak_of_boundary
      hspan.start_boundary hspan.stop_boundary hspan.start_le_stop
    exact ⟨terminator, (source.lineBreakFrom_eq span).trans hterminator, hterminator⟩
  · exact ⟨_, source.text.lineIndex_eq offset, (Nat.sub_add_cancel (Nat.le_add_left ..)).symm,
      source.text.getElem?_lineStarts offset⟩

namespace Fixing

/-- No statements and no comments make the checker cut a text badly.

The spans of statements and comments can be cut out of the text; nothing else is asked of them. Then
the three rules succeed with any packages, all their reports and edits are about spans of the text,
and a pass with some or all of the reports succeeds, each fix being applied or left out. What the
rules read at a span on the way can be read by offsets, where every step is checked. -/
theorem check_never_cuts_badly {text : Text} {statements : List Statement} {comments : List Span}
    (hstatements : ∀ s ∈ statements, text.HasSpan s.span)
    (hcomments : ∀ c ∈ comments, text.HasSpan c) (packages : Packages) :
    ∃ diagnostics,
      (Source.ofParts text statements comments).check allRules packages = .ok diagnostics ∧
      (∀ d ∈ diagnostics, d.Fits text) ∧
      (∀ chosen, chosen ⊆ diagnostics → ∃ outcome, text.applyFixes chosen = .ok outcome ∧
        outcome.applied + outcome.skipped = (chosen.filterMap (·.fix)).length) ∧
      ∀ span, text.HasSpan span → (Source.ofParts text statements comments).Readable span := by
  have h : (Source.ofParts text statements comments).Sliceable :=
    Source.sliceable_ofParts hstatements hcomments
  obtain ⟨diagnostics, hcheck, hfits⟩ := exists_checkAll_fits h packages
  refine ⟨diagnostics, hcheck, hfits, fun chosen hchosen => ?_, fun span hspan => h.readable hspan⟩
  exact Text.exists_applyFixes_of_fits fun d hd => hfits d (hchosen hd)

/-- A text with characters of two bytes. -/
def tangledText : Text := "import'é'\n//ü\nimport'à'".toList

/-- Statements that overlap, that are cut off inside of quotes, and of which one is empty. -/
def tangledStatements : List Statement :=
  [⟨.exportAll, 0, false, some "é", ⟨0, 10⟩⟩, ⟨.importDecl, 0, false, some "b", ⟨7, 23⟩⟩,
    ⟨.importDecl, 0, false, some "a", ⟨9, 25⟩⟩, ⟨.other, 0, false, none, ⟨26, 26⟩⟩]

/-- Comments that nest and that lie across statements. -/
def tangledComments : List Span := [⟨11, 15⟩, ⟨0, 7⟩, ⟨11, 26⟩]

/-- The checker gets over statements and comments that no parser would make. -/
theorem check_tangled :
    ∃ diagnostics,
      (Source.ofParts tangledText tangledStatements tangledComments).check allRules [] =
        .ok diagnostics ∧
      (∀ d ∈ diagnostics, d.Fits tangledText) ∧
      (∀ chosen, chosen ⊆ diagnostics → ∃ outcome, tangledText.applyFixes chosen = .ok outcome ∧
        outcome.applied + outcome.skipped = (chosen.filterMap (·.fix)).length) ∧
      ∀ span, tangledText.HasSpan span →
        (Source.ofParts tangledText tangledStatements tangledComments).Readable span :=
  check_never_cuts_badly (by decide +kernel) (by decide +kernel) []

end Fixing

end ImportOrder
