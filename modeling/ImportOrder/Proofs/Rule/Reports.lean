import ImportOrder.Proofs.Rule.ImportNewlines
import ImportOrder.Proofs.Rule.ImportSort
import ImportOrder.Proofs.Rule.StatementOrder
import ImportOrder.Proofs.Text.Edits
import Mathlib.Data.List.Forall2
import Mathlib.Data.List.ReduceOption

/-!
# What the rules report

Every report bears the name of its rule. The rule on the order of statements cuts the range of a
statement and pastes it at the top or where another range ends, and the rule on blank lines edits
the space between two ranges. The rules on order report nothing exactly if the statements are in
order. All of this holds of every well-formed source, also of one with a statement that starts with
a `#!` comment.

## Main statements

- `StatementOrder.raises_of_mem`: the fixes of the rule on the order of statements
- `ImportSort.rule_eq_of_mem`, `ImportNewlines.rule_eq_of_mem`: the names that reports bear
- `ImportNewlines.exists_removalFix_fits`, `ImportNewlines.exists_insertionFix_fits`: the fixes of
  the rule on blank lines
- `StatementOrder.check_eq_nil_iff`, `ImportSort.check_eq_nil_iff`: when there is nothing to report
-/

namespace ImportOrder

section Optional

variable {α β : Type} {R : α → Option β → Prop} {l : List α} {reports : List (Option β)}

theorem reduceOption_cons (report : Option β) (reports : List (Option β)) :
    (report :: reports).reduceOption = report.toList ++ reports.reduceOption := by
  cases report <;> rfl

/-- A computation that gives at most one result for every element gives them in order. -/
theorem Checked.exists_mapM_flatten {f : α → Checked (List β)}
    (h : ∀ a ∈ l, ∃ report : Option β, f a = .ok report.toList ∧ R a report) :
    ∃ reports, (List.flatten <$> l.mapM f) = .ok reports.reduceOption ∧
      List.Forall₂ R l reports := by
  induction l with
  | nil => exact ⟨[], rfl, .nil⟩
  | cons a l ih =>
    obtain ⟨report, hreport, hR⟩ := h a List.mem_cons_self
    obtain ⟨reports, hreports, hall⟩ := ih fun b hb => h b (List.mem_cons_of_mem a hb)
    obtain ⟨later, hlater, hflat⟩ := Checked.map_eq_ok.1 hreports
    refine ⟨report :: reports, ?_, .cons hR hall⟩
    rw [List.mapM_cons, hreport, Checked.ok_bind, hlater, reduceOption_cons, ← hflat]
    rfl

theorem reduceOption_eq_nil_iff_of_forall₂ {P : α → Prop} (h : List.Forall₂ R l reports)
    (hR : ∀ a report, R a report → (report = none ↔ P a)) :
    reports.reduceOption = [] ↔ ∀ a ∈ l, P a := by
  induction h with
  | nil => simp
  | cons hab _ ih =>
    rw [reduceOption_cons, List.append_eq_nil_iff, Option.toList_eq_nil_iff, ih, hR _ _ hab,
      List.forall_mem_cons]

end Optional

namespace Source

variable {source : Source}

/-- An item behind the `#!` line is on a later line. -/
theorem Legible.top_le (h : source.Legible) {n : Nat} (htop : source.top = .ok n) {x : Span}
    (hx : x ∈ source.items)
    (hbehind : ∀ c, source.hashbang? = .ok (some c) → c.stop ≤ x.start) : n ≤ x.start := by
  obtain ⟨hashbang, hhash, htop⟩ := Checked.bind_eq_ok.1 htop
  cases hashbang with
  | none =>
    obtain rfl := Except.ok.inj htop
    exact Nat.zero_le _
  | some c =>
    obtain ⟨rest, hrest, htop⟩ := Checked.bind_eq_ok.1 htop
    obtain rfl := Except.ok.inj htop
    obtain ⟨front, htext, hfront⟩ := Text.sliceFrom_eq_ok_iff.1 hrest
    obtain ⟨terminator, tail, hsplit, hlength, hbreak, -⟩ := Text.exists_lineBreak rest
    rw [hsplit, ← List.append_assoc] at htext
    rw [← hlength, ← hfront]
    obtain ⟨d, part, hslice, hd⟩ := h.visible x hx
    exact Text.add_le_start_of_slice? htext
      (fun e he => Character.isWhiteSpace_of_isLineBreak (hbreak e he)) hslice hd
      (hfront ▸ hbehind c hhash)

/-- The range of a statement that is not the first starts behind the `#!` line, even if that line
belongs to the first statement. -/
theorem WellFormed.top_le_full_start (h : source.WellFormed) {n : Nat} (htop : source.top = .ok n)
    {s t : Span} (hs : s ∈ source.spans) (ht : t ∈ source.spans) (hle : t.stop ≤ s.start) :
    n ≤ (source.rangeOf s).full.start := by
  have ha := h.attached hs
  have hfirst : ∀ c, source.hashbang? = .ok (some c) → c ∈ source.comments ∧ c.start = 0 := by
    intro c hc
    obtain ⟨hashbang, hhash, hcomment⟩ := h.exists_hashbang?
    obtain rfl : hashbang = some c := Except.ok.inj (hhash.symm.trans hc)
    exact ⟨(hcomment c rfl).1, (hcomment c rfl).2.1⟩
  cases ha.above with
  | inl heq =>
    rw [heq]
    refine h.legible.top_le htop (List.mem_append_left _ hs) fun c hc => ?_
    obtain ⟨hmem, hzero⟩ := hfirst c hc
    have hroom := h.bounds_span ht
    cases h.comment_placed c hmem t ht with
    | inl hin => exact hin.2.trans hle
    | inr hap => rcases hap with hap | hap <;> omega
  | inr habove =>
    obtain ⟨d, hd, heq, hne, -⟩ := habove
    rw [heq]
    refine h.legible.top_le htop (List.mem_append_right _ hd) fun c hc => ?_
    obtain ⟨hmem, hzero⟩ := hfirst c hc
    have hroom := h.bounds_comment hd
    rcases h.comments_apart hmem hd fun heq => hne (heq ▸ hc) with hap | hap <;> omega

end Source

namespace StatementOrder

variable {source : Source} {packages : Packages} {ds : List Diagnostic} {d : Diagnostic}

/-- A report that moves a statement to the top or behind a statement in front of it. -/
structure Raises (source : Source) (d : Diagnostic) : Prop where
  /-- The report bears the name of the rule. -/
  rule_eq : d.rule = name
  /-- The range of a statement goes to the top or behind the range of a statement. -/
  moves : ∃ s ∈ source.spans, ∃ t ∈ source.spans, t.stop ≤ s.start ∧ ∃ fix n, d.fix = some fix ∧
    Fix.relocate source.text (source.rangeOf s).full n = .ok fix ∧
    (source.top = .ok n ∨
      ∃ t ∈ source.spans, t.stop ≤ s.start ∧ n = (source.rangeOf t).full.stop)

theorem insertionPoint_cases (h : source.WellFormed) {done rest : List Statement}
    (hst : source.statements = done ++ rest) {category : Category} {n : Nat}
    (hn : insertionPoint source (seenOf source done) category = .ok n) :
    source.top = .ok n ∨ ∃ t ∈ done, n = (source.rangeOf t.span).full.stop := by
  unfold insertionPoint at hn
  cases hfind : (seenOf source done).find? (·.1.rank ≤ category.rank) with
  | none =>
    rw [hfind] at hn
    exact .inl hn
  | some found =>
    obtain ⟨t, ht, rfl⟩ := List.mem_map.1 (List.mem_of_find?_eq_some hfind)
    have ht : t ∈ done := List.mem_reverse.1 ht
    have hspan : t.span ∈ source.spans := List.mem_map_of_mem (by simp [hst, ht])
    simp only [hfind, h.attachedRange_eq hspan] at hn
    exact .inr ⟨t, ht, (Except.ok.inj hn).symm⟩

theorem raises_of_mem_reportAfter (h : source.WellFormed) {done rest : List Statement}
    {s : Statement} (hst : source.statements = done ++ s :: rest) {category : Category}
    (hok : reportAfter source (seenOf source done) category s.span = .ok ds) (hd : d ∈ ds) :
    Raises source d := by
  have hspan : ∀ x ∈ done ++ s :: rest, x.span ∈ source.spans := fun x hx =>
    List.mem_map_of_mem (hst ▸ hx)
  have hordered := h.spans_ordered
  rw [Source.spans, List.pairwise_map, hst, List.pairwise_append] at hordered
  have hle : ∀ x ∈ done, x.span.stop ≤ s.span.start := fun x hx =>
    hordered.2.2 x hx s List.mem_cons_self
  unfold reportAfter at hok
  cases hviolation : (seenOf source done).head?.bind (Violation.between ·.1 category) with
  | none =>
    rw [hviolation] at hok
    obtain rfl := Except.ok.inj hok
    exact absurd hd List.not_mem_nil
  | some violation =>
    rw [hviolation] at hok
    obtain ⟨own, hown, rfl⟩ := Checked.map_eq_ok.1 hok
    obtain rfl := List.mem_singleton.1 hd
    -- there is a statement in front, with which the order is broken
    obtain ⟨last, hlast, -⟩ := Option.bind_eq_some_iff.1 hviolation
    obtain ⟨t, ht, -⟩ := List.mem_map.1 (List.mem_of_head? hlast)
    have ht : t ∈ done := List.mem_reverse.1 ht
    have hs : s.span ∈ source.spans := hspan s (by simp)
    obtain ⟨range, hrange, hown⟩ := Checked.bind_eq_ok.1 hown
    obtain ⟨n, hn, hown⟩ := Checked.bind_eq_ok.1 hown
    obtain ⟨fix, hfix, hown⟩ := Checked.bind_eq_ok.1 hown
    rw [h.attachedRange_eq hs] at hrange
    obtain rfl := Except.ok.inj hrange
    obtain rfl := Except.ok.inj hown
    refine ⟨rfl, s.span, hs, t.span, hspan t (by simp [ht]), hle t ht, fix, n, rfl, hfix, ?_⟩
    refine (insertionPoint_cases h hst hn).imp_right ?_
    rintro ⟨u, hu, heq⟩
    exact ⟨u.span, hspan u (by simp [hu]), hle u hu, heq⟩

/-- The reports about one statement more. -/
theorem checkFrom_cons_eq_ok (h : source.WellFormed) {done rest : List Statement} {s : Statement}
    (hst : source.statements = done ++ s :: rest) :
    checkFrom source (seenOf source done) (s :: rest) = .ok ds ↔ ∃ here later,
      reportAfter source (seenOf source done) (source.passage s).category s.span = .ok here ∧
      checkFrom source (seenOf source (done ++ [s])) rest = .ok later ∧ here ++ later = ds := by
  rw [checkFrom, h.classify_eq (by simp [hst]), Checked.ok_bind, seenOf_append_singleton]
  constructor
  · intro hok
    obtain ⟨here, hhere, hok⟩ := Checked.bind_eq_ok.1 hok
    obtain ⟨later, hlater, hok⟩ := Checked.bind_eq_ok.1 hok
    exact ⟨here, later, hhere, hlater, Except.ok.inj hok⟩
  · rintro ⟨here, later, hhere, hlater, rfl⟩
    simp only [bind, Except.bind, hhere, hlater]
    rfl

theorem raises_of_mem_checkFrom (h : source.WellFormed) {done rest : List Statement}
    (hst : source.statements = done ++ rest)
    (hok : checkFrom source (seenOf source done) rest = .ok ds) (hd : d ∈ ds) :
    Raises source d := by
  induction rest generalizing done ds with
  | nil =>
    obtain rfl := Except.ok.inj hok
    exact absurd hd List.not_mem_nil
  | cons s rest ih =>
    obtain ⟨here, later, hhere, hlater, rfl⟩ := (checkFrom_cons_eq_ok h hst).1 hok
    cases List.mem_append.1 hd with
    | inl hd => exact raises_of_mem_reportAfter h hst hhere hd
    | inr hd => exact ih (by simp [hst]) hlater hd

theorem raises_of_mem (h : source.WellFormed) (hcheck : rule.check source packages = .ok ds)
    (hd : d ∈ ds) : Raises source d := by
  have hst : source.statements = [] ++ source.statements := rfl
  exact raises_of_mem_checkFrom h hst hcheck hd

/-- The fix of a report moves a range to the front. -/
theorem Raises.merged_ne_none (h : source.WellFormed) (hd : Raises source d) :
    ∃ fix, d.fix = some fix ∧ fix.merged source.text ≠ .ok none := by
  obtain ⟨s, hs, t, ht, hle, fix, n, hfix, hrelocate, hn⟩ := hd.moves
  refine ⟨fix, hfix, Fix.merged_relocate_ne_none hrelocate ?_ (h.full_start_lt hs)⟩
  cases hn with
  | inl htop => exact h.top_le_full_start htop hs ht hle
  | inr hn =>
    obtain ⟨u, hu, hle, rfl⟩ := hn
    exact (h.attached hu).full_stop_le_full_start h hu hs (h.attached hs) hle

theorem reportAfter_eq_nil_iff {done : List Statement} {s : Statement} :
    reportAfter source (seenOf source done) (source.passage s).category s.span = .ok [] ↔
      ∀ x ∈ done.getLast?, (source.passage x).rankLE (source.passage s) := by
  have hhead : (seenOf source done).head? =
      done.getLast?.map fun x => ((source.passage x).category, x.span) := by
    simp [seenOf]
  rw [reportAfter, hhead]
  cases done.getLast? with
  | none => simp
  | some x =>
    have hiff := Violation.between_eq_none_iff (source.passage x).category
      (source.passage s).category
    simp only [Option.map_some, Option.bind_some, Option.mem_some_iff, forall_eq',
      Passage.rankLE, decide_eq_true_eq, ← hiff]
    cases Violation.between (source.passage x).category (source.passage s).category with
    | none => simp
    | some violation =>
      refine ⟨fun hok => ?_, fun hnone => by cases hnone⟩
      obtain ⟨own, -, hnil⟩ := Checked.map_eq_ok.1 hok
      cases hnil

theorem checkFrom_eq_nil_iff (h : source.WellFormed) {done rest : List Statement}
    (hst : source.statements = done ++ rest) :
    checkFrom source (seenOf source done) rest = .ok [] ↔
      (done.getLast?.toList ++ rest).IsChain fun s t =>
        (source.passage s).rankLE (source.passage t) := by
  induction rest generalizing done with
  | nil =>
    refine ⟨fun _ => ?_, fun _ => rfl⟩
    cases done.getLast? <;> simp
  | cons s rest ih =>
    have ih := @ih (done ++ [s]) (by simp [hst])
    have hboth : checkFrom source (seenOf source done) (s :: rest) = .ok [] ↔
        reportAfter source (seenOf source done) (source.passage s).category s.span = .ok [] ∧
          checkFrom source (seenOf source (done ++ [s])) rest = .ok [] := by
      rw [checkFrom_cons_eq_ok h hst]
      constructor
      · rintro ⟨here, later, hhere, hlater, hnil⟩
        obtain ⟨rfl, rfl⟩ := List.append_eq_nil_iff.1 hnil
        exact ⟨hhere, hlater⟩
      · rintro ⟨hhere, hlater⟩
        exact ⟨[], [], hhere, hlater, rfl⟩
    rw [hboth, reportAfter_eq_nil_iff, ih]
    cases done.getLast? <;> simp

/-- There is nothing to report exactly if the categories come by increasing rank. -/
theorem check_eq_nil_iff (h : source.WellFormed) :
    rule.check source packages = .ok [] ↔
      (source.passages.map Passage.category).Pairwise (·.rank ≤ ·.rank) := by
  have htrans : IsTrans Statement fun s t => (source.passage s).rankLE (source.passage t) :=
    ⟨fun s t u hst htu => Source.rankLE_trans _ _ _ hst htu⟩
  show checkFrom source (seenOf source []) source.statements = .ok [] ↔ _
  rw [checkFrom_eq_nil_iff h rfl, Source.passages, List.pairwise_map, List.pairwise_map,
    List.getLast?_nil, Option.toList_none, List.nil_append, List.isChain_iff_pairwise]
  simp only [Passage.rankLE, decide_eq_true_eq]

end StatementOrder

namespace ImportSort

variable {source : Source} {packages : Packages} {ds : List Diagnostic} {d : Diagnostic}

theorem mem_of_misplaced? {entries : List (String × Span)} {a b : Span}
    (h : misplaced? packages entries = some (a, b)) :
    a ∈ entries.map (·.2) ∧ b ∈ entries.map (·.2) := by
  obtain ⟨⟨x, y⟩, hfind, heq⟩ := Option.map_eq_some_iff.1 h
  obtain ⟨rfl, rfl⟩ := Prod.mk.inj heq
  obtain ⟨hx, hy⟩ := List.of_mem_zip (List.mem_of_find?_eq_some hfind)
  exact ⟨List.mem_map_of_mem hx, List.mem_map_of_mem (List.mem_mergeSort.1 hy)⟩

theorem rule_eq_of_mem_checkRun {entries : List (String × Span)}
    (hok : checkRun source packages entries = .ok ds) (hd : d ∈ ds) : d.rule = name := by
  unfold checkRun at hok
  cases hmisplaced : misplaced? packages entries with
  | none =>
    rw [hmisplaced] at hok
    obtain rfl := Except.ok.inj hok
    exact absurd hd List.not_mem_nil
  | some pair =>
    rw [hmisplaced] at hok
    obtain ⟨range, -, hok⟩ := Checked.bind_eq_ok.1 hok
    obtain ⟨place, -, hok⟩ := Checked.bind_eq_ok.1 hok
    obtain ⟨fix, -, hok⟩ := Checked.bind_eq_ok.1 hok
    obtain rfl := Except.ok.inj hok
    obtain rfl := List.mem_singleton.1 hd
    rfl

theorem rule_eq_of_mem (hcheck : rule.check source packages = .ok ds) (hd : d ∈ ds) :
    d.rule = name := by
  obtain ⟨classified, -, hcheck⟩ := Checked.bind_eq_ok.1 hcheck
  obtain ⟨reports, hreports, hcheck⟩ := Checked.bind_eq_ok.1 hcheck
  obtain rfl := Except.ok.inj hcheck
  obtain ⟨own, hown, hd⟩ := List.mem_flatten.1 hd
  obtain ⟨run, -, hown⟩ := Checked.exists_of_mem_mapM hreports hown
  exact rule_eq_of_mem_checkRun hown hd

/-- There is nothing to report exactly if the paths of every run come in order. -/
theorem check_eq_nil_iff (h : source.WellFormed) :
    rule.check source packages = .ok [] ↔
      ∀ run ∈ source.runs, (run.filter Passage.isNamed).Pairwise fun x y => x.pathLE packages y := by
  obtain ⟨ds, hcheck, hreports, hsettled⟩ := exists_check h packages
  rw [hcheck]
  constructor
  · intro hnil run hrun
    have hsorted := hsettled (Except.ok.inj hnil)
    rw [Source.sortedRuns, List.map_inj_left] at hsorted
    rw [hsorted run hrun]
    exact List.pairwise_mergeSort Source.pathLE_trans Source.pathLE_total _
  · intro hsorted
    have hzero : source.unsettledRuns packages = 0 := by
      refine List.sum_eq_zero fun n hn => ?_
      obtain ⟨run, hrun, rfl⟩ := List.mem_map.1 hn
      have hagree := agreeing_append (run.filter Passage.isNamed) [] []
      rw [List.append_nil] at hagree
      rw [unsettled, List.mergeSort_of_pairwise (hsorted run hrun), hagree]
      omega
    cases ds with
    | nil => rfl
    | cons d ds =>
      -- a report would bring a run closer to its sort
      obtain ⟨⟨fix, -, front, old, new, back, -, -, hlt⟩, -⟩ := hreports d List.mem_cons_self
      omega

end ImportSort

namespace ImportNewlines

variable {source : Source} {packages : Packages} {ds : List Diagnostic} {d : Diagnostic}

theorem rule_eq_of_mem_checkPair {previous next : Item}
    (hok : checkPair source previous next = .ok ds) (hd : d ∈ ds) : d.rule = name := by
  unfold checkPair at hok
  split at hok
  · dsimp only at hok
    split at hok
    · obtain ⟨fix, -, hok⟩ := Checked.bind_eq_ok.1 hok
      obtain rfl := Except.ok.inj hok
      obtain rfl := List.mem_singleton.1 hd
      rfl
    · split at hok
      · obtain ⟨fix, -, hok⟩ := Checked.bind_eq_ok.1 hok
        obtain rfl := Except.ok.inj hok
        obtain rfl := List.mem_singleton.1 hd
        rfl
      · obtain rfl := Except.ok.inj hok
        exact absurd hd List.not_mem_nil
  · obtain rfl := Except.ok.inj hok
    exact absurd hd List.not_mem_nil

theorem rule_eq_of_mem (hcheck : rule.check source packages = .ok ds) (hd : d ∈ ds) :
    d.rule = name := by
  obtain ⟨items, -, hcheck⟩ := Checked.bind_eq_ok.1 hcheck
  obtain ⟨reports, hreports, hcheck⟩ := Checked.bind_eq_ok.1 hcheck
  obtain rfl := Except.ok.inj hcheck
  obtain ⟨own, hown, hd⟩ := List.mem_flatten.1 hd
  obtain ⟨pair, -, hown⟩ := Checked.exists_of_mem_mapM hreports hown
  exact rule_eq_of_mem_checkPair hown hd

theorem exists_lineBreak_of_boundary {m n : Nat} (hm : source.text.Boundary m)
    (hn : source.text.Boundary n) (hle : m ≤ n) :
    ∃ terminator, source.lineBreak ⟨m, n⟩ = .ok terminator := by
  obtain ⟨inGap, hinGap⟩ := Text.exists_slice hm hn hle
  simp only [Source.lineBreak, Source.slice, hinGap, bind, Except.bind]
  exact ⟨_, rfl⟩

theorem boundary_lineStart (text : Text) (offset : Nat) :
    text.Boundary (text.lineStart offset) ∧ text.lineStart offset ≤ offset := by
  obtain ⟨front, rest, htext, hfront, hle⟩ := text.exists_lineStart offset
  exact ⟨⟨front, rest, htext, hfront⟩, hle⟩

section Pair

variable {left right : Span} (hleft : source.text.Boundary left.stop)
  (hright : source.text.Boundary right.start)

include hleft hright

theorem exists_removalFix_fits :
    ∃ fix?, removalFix source left right = .ok fix? ∧
      ∀ fix ∈ fix?, fix.FitsFrom source.text left.stop := by
  rw [removalFix]
  cases hgap : source.gap? left right with
  | none => exact ⟨none, rfl, by simp⟩
  | some gap =>
    obtain ⟨hle, rfl⟩ := Source.gap?_eq_some hgap
    obtain ⟨hline, hline_le⟩ := boundary_lineStart source.text right.start
    have hmax : source.text.Boundary (max (source.text.lineStart right.start) left.stop) := by
      rcases Nat.le_total (source.text.lineStart right.start) left.stop with hn | hn
      · rwa [Nat.max_eq_right hn]
      · rwa [Nat.max_eq_left hn]
    obtain ⟨indentation, hindentation⟩ := Text.exists_slice hmax hright (by omega)
    obtain ⟨terminator, hterminator⟩ := exists_lineBreak_of_boundary hleft hright hle
    simp only [Source.slice, hindentation, hterminator, bind, Except.bind]
    refine ⟨_, rfl, fun fix hfix => ?_⟩
    obtain rfl := Option.some.inj hfix
    intro edit hedit
    obtain rfl := List.mem_singleton.1 hedit
    exact ⟨⟨hle, hleft, hright⟩, Nat.le_refl _⟩

theorem exists_insertionFix_fits :
    ∃ fix?, insertionFix source left right = .ok fix? ∧
      ∀ fix ∈ fix?, fix.FitsFrom source.text left.stop := by
  rw [insertionFix]
  cases hgap : source.gap? left right with
  | none => exact ⟨none, rfl, by simp⟩
  | some gap =>
    obtain ⟨hle, rfl⟩ := Source.gap?_eq_some hgap
    obtain ⟨hline, -⟩ := boundary_lineStart source.text right.start
    obtain ⟨terminator, hterminator⟩ := exists_lineBreak_of_boundary hleft hright hle
    simp only [hterminator, bind, Except.bind]
    refine ⟨_, rfl, fun fix hfix => ?_⟩
    obtain rfl := Option.some.inj hfix
    intro edit hedit
    obtain rfl := List.mem_singleton.1 hedit
    by_cases hlater : source.text.lineStart right.start > left.stop
    · rw [if_pos hlater]
      exact ⟨⟨Nat.le_refl _, hline, hline⟩, Nat.le_of_lt hlater⟩
    · rw [if_neg hlater]
      exact ⟨⟨hle, hleft, hright⟩, Nat.le_refl _⟩

end Pair

end ImportNewlines

end ImportOrder
