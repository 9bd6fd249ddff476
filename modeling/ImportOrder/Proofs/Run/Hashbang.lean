import ImportOrder.Proofs.Attachment
import Mathlib

/-!
# The line of the interpreter stays first

A file may start with a `#!` line, which names the interpreter. No fix of the three rules reaches
into it: ranges start behind it, as it attaches to no statement, and so does the place to which a
statement is moved at the top. Runs keep it with its terminator, if the reader of texts reports it
as a comment of its own.

## Main definitions

- `Text.headLine`: the first line of a text with its terminator
- `Source.LeadsWith`: a source with a `#!` line

## Main statements

- `Source.LeadsWith.exists_floor`: the ranges of all statements start behind the line
- `Source.LeadsWith.exists_reports`: the edits of all reports start behind the line
- `Fixing.fixes_keep_hashbang`: passes and runs keep the line
-/

namespace ImportOrder

namespace Text

/-- The first line of a text with its terminator. -/
def headLine : Text → Text
  | [] => []
  | '\r' :: '\n' :: _ => ['\r', '\n']
  | c :: text => if Character.isLineBreak c then [c] else c :: headLine text

/-- The first line of a text without its terminator. -/
def headLineBody (text : Text) : Text := text.takeWhile fun c => !Character.isLineBreak c

theorem headLine_cons_of_not_isLineBreak {c : Char} (hc : Character.isLineBreak c = false)
    (text : Text) : headLine (c :: text) = c :: headLine text := by
  rw [headLine]
  · simp [hc]
  · rintro text' rfl
    exact absurd hc (by decide)

theorem headLine_append {line : Text} (hline : ∀ c ∈ line, Character.isLineBreak c = false)
    (rest : Text) : headLine (line ++ rest) = line ++ headLine rest := by
  induction line with
  | nil => rfl
  | cons c line ih =>
    obtain ⟨hc, hline⟩ := List.forall_mem_cons.1 hline
    rw [List.cons_append, headLine_cons_of_not_isLineBreak hc, ih hline, List.cons_append]

theorem headLine_isPrefix (text : Text) : headLine text <+: text := by
  fun_induction headLine text with
  | case1 => exact List.prefix_refl []
  | case2 text => exact ⟨text, rfl⟩
  | case3 c text => exact ⟨text, rfl⟩
  | case4 c text _ _ ih => exact List.cons_prefix_cons.2 ⟨rfl, ih⟩

/-- A text that starts with the first line of another has a first line that does. -/
theorem headLine_isPrefix_headLine (text rest : Text) :
    headLine text <+: headLine (headLine text ++ rest) := by
  fun_induction headLine text with
  | case1 => exact List.nil_prefix
  | case2 text => exact List.prefix_refl _
  | case3 c text _ hc =>
    -- a carriage return may get company
    rw [List.singleton_append]
    unfold headLine
    split
    · next heq => exact absurd heq nofun
    · next heq =>
      obtain ⟨rfl, -⟩ := List.cons.inj heq
      exact ⟨['\n'], rfl⟩
    · next heq =>
      obtain ⟨rfl, -⟩ := List.cons.inj heq
      exact ⟨[], by simp [hc]⟩
  | case4 c text _ hc ih =>
    rw [List.cons_append, headLine_cons_of_not_isLineBreak (by simpa using hc)]
    exact List.cons_prefix_cons.2 ⟨rfl, ih⟩

/-- A first line without characters is a line terminator. -/
theorem byteLength_headLine_of_break {rest : Text}
    (hrest : ∀ c ∈ rest.head?, Character.isLineBreak c = true) :
    byteLength (headLine rest) = rest.lineBreakLength := by
  fun_cases headLine rest with
  | case1 => rfl
  | case2 rest => rfl
  | case3 c rest hpair hc =>
    simp only [Character.isLineBreak, Bool.or_eq_true, beq_iff_eq] at hc
    rcases hc with rfl | rfl
    · rfl
    · cases rest with
      | nil => rfl
      | cons d rest =>
        have hd : d ≠ '\n' := fun heq => hpair rest rfl (by rw [heq])
        have hlength : lineBreakLength ('\r' :: d :: rest) = 1 := by simp [lineBreakLength, hd]
        rw [hlength]
        rfl
  | case4 c rest _ hc => exact absurd (hrest c rfl) hc

/-- The first line ends past the terminator behind its last character. -/
theorem byteLength_headLine (text : Text) :
    byteLength (headLine text) = byteLength (headLineBody text) +
      lineBreakLength (text.dropWhile fun c => !Character.isLineBreak c) := by
  have hbody : ∀ c ∈ headLineBody text, Character.isLineBreak c = false := fun c hc => by
    simpa using List.all_eq_true.1 List.all_takeWhile c hc
  have htext : text = headLineBody text ++ text.dropWhile fun c => !Character.isLineBreak c :=
    (List.takeWhile_append_dropWhile).symm
  have hrest : ∀ c ∈ (text.dropWhile fun c => !Character.isLineBreak c).head?,
      Character.isLineBreak c = true := fun c hc => by
    have hhead := List.head?_dropWhile_not (fun c => !Character.isLineBreak c) text
    rw [Option.mem_def.1 hc] at hhead
    simpa using hhead
  nth_rewrite 1 [htext]
  rw [headLine_append hbody, byteLength_append, byteLength_headLine_of_break hrest]

end Text

namespace Source

variable {source : Source} {c : Span}

/-- The first comment is a `#!` line at the start of the text, outside of all statements. -/
structure LeadsWith (source : Source) (c : Span) : Prop where
  /-- It comes first. -/
  first : source.comments.head? = some c
  /-- It is at the start of the text. -/
  start_eq : c.start = 0
  /-- It begins with `#!`. -/
  hashbang : "#!".toList.isPrefixOf ((source.text.slice? c).getD []) = true
  /-- It lies outside of all statements. -/
  apart : ∀ s ∈ source.spans, c.Apart s

namespace LeadsWith

theorem mem_comments (hc : source.LeadsWith c) : c ∈ source.comments :=
  List.mem_of_head? hc.first

theorem hashbang?_eq (h : source.Legible) (hc : source.LeadsWith c) :
    source.hashbang? = .ok (some c) := by
  obtain ⟨comments, hcomments⟩ := List.head?_eq_some_iff.1 hc.first
  obtain ⟨d, part, hslice, -⟩ := h.visible c (List.mem_append_right _ hc.mem_comments)
  have hprefix := hc.hashbang
  rw [hslice, Option.getD_some] at hprefix
  rw [Source.hashbang?, hcomments]
  dsimp only
  rw [if_pos hc.start_eq, Source.slice, Text.slice_eq_ok_iff_slice?.2 hslice, Checked.ok_bind,
    if_pos hprefix]
  rfl

/-- A range starts with an item other than the line, and so on a later line. -/
theorem top_le_start (h : source.Legible) (hc : source.LeadsWith c) {n : Nat}
    (htop : source.top = .ok n) {span : Span} (hspan : span ∈ source.spans) {range : AttachedRange}
    (hrange : source.attachedRange span = .ok range) :
    n ≤ range.full.start ∧ n ≤ range.bare.start := by
  have hhash := hc.hashbang?_eq h
  have hle : ∀ x ∈ source.items, c.stop ≤ x.start → n ≤ x.start := fun x hx hstop =>
    h.top_le htop hx fun c' hc' => by
      obtain rfl : c = c' := by simpa [hhash] using hc'
      exact hstop
  rw [attachedRange_eq_lineTailFrom, hhash, Checked.ok_bind] at hrange
  obtain ⟨full, -, hrange⟩ := Checked.bind_eq_ok.1 hrange
  obtain rfl := Except.ok.inj hrange
  rw [and_self]
  dsimp only
  rcases source.attachedStart_cases (some c)
    ((source.statementBefore? span).elim 0 (source.lineOf ·.stop)) (source.lineOf span.start)
    span.start (source.commentsBefore span) with heq | ⟨d, hd, heq, hne, -⟩
  · rw [heq]
    refine hle span (List.mem_append_left _ hspan) ((hc.apart span hspan).resolve_right fun hstop => ?_)
    have hroom := h.arranged.room_span hspan
    rw [hc.start_eq] at hstop
    omega
  · rw [heq]
    have hd : d ∈ source.comments := by
      rw [commentsBefore] at hd
      exact List.mem_reverse.1 (List.mem_of_mem_filter hd)
    refine hle d (List.mem_append_right _ hd) ?_
    obtain ⟨comments, hcomments⟩ := List.head?_eq_some_iff.1 hc.first
    have hordered := h.comments_ordered
    rw [hcomments, List.pairwise_cons] at hordered
    rw [hcomments, List.mem_cons] at hd
    exact hordered.1 d (hd.resolve_left fun heq => hne (congrArg some heq))

/-- The place behind the line, in front of all ranges. -/
theorem exists_floor (h : source.Legible) (hc : source.LeadsWith c) :
    ∃ line rest, source.text = line ++ rest ∧
      source.afterLineBreak c.stop = .ok line.byteLength ∧ source.Floor line.byteLength := by
  obtain ⟨n, hn, line, rest, htext, rfl⟩ := Sliceable.exists_afterLineBreak
    (h.arranged.comments c hc.mem_comments).stop_boundary
  have htop : source.top = .ok line.byteLength := by
    rw [Source.top, hc.hashbang?_eq h]
    exact hn
  refine ⟨line, rest, htext, hn, fun span hspan range hrange => hc.top_le_start h htop hspan hrange,
    fun top heq => ?_⟩
  exact (Except.ok.inj (htop.symm.trans heq)).le

/-- The place behind the line and the reports of the three rules, all of whose edits are there. -/
theorem exists_reports (h : source.Legible) (hc : source.LeadsWith c) (packages : Packages) :
    ∃ line rest orders sorts newlines, source.text = line ++ rest ∧
      source.afterLineBreak c.stop = .ok line.byteLength ∧
      StatementOrder.rule.check source packages = .ok orders ∧
      ImportSort.rule.check source packages = .ok sorts ∧
      ImportNewlines.rule.check source packages = .ok newlines ∧
      ∀ d, d ∈ orders ∨ d ∈ sorts ∨ d ∈ newlines → ∀ fix ∈ d.fix,
        fix.FitsFrom source.text line.byteLength := by
  obtain ⟨line, rest, htext, hline, hfloor⟩ := hc.exists_floor h
  have hcut := h.arranged.toSliceable
  obtain ⟨orders, horders, horders_fit⟩ := StatementOrder.exists_check_fits hcut hfloor packages
  obtain ⟨sorts, hsorts, hsorts_fit⟩ := ImportSort.exists_check_fits hcut hfloor packages
  obtain ⟨newlines, hnewlines, hnewlines_fit⟩ :=
    ImportNewlines.exists_check_fits hcut hfloor packages
  refine ⟨line, rest, orders, sorts, newlines, htext, hline, horders, hsorts, hnewlines, ?_⟩
  rintro d (hd | hd | hd)
  · exact (horders_fit d hd).fix_fits
  · exact (hsorts_fit d hd).fix_fits
  · exact (hnewlines_fit d hd).fix_fits

end LeadsWith

end Source

namespace Fixing

variable {packages : Packages} {rules : List Rule}

/-- The reports of some of the three rules about a source, and the passes with them. -/
theorem exists_diagnostics_behind {source : Source} {c : Span} (h : source.Legible)
    (hc : source.LeadsWith c) (packages : Packages) (hrules : rules ⊆ allRules) :
    ∃ (line : Text) (ds : List Diagnostic),
      source.afterLineBreak c.stop = .ok line.byteLength ∧ line <+: source.text ∧
      source.diagnostics rules packages = .ok ds ∧ ∀ ds' : List Diagnostic, ds' ⊆ ds →
        ∃ outcome, source.text.applyFixes ds' = .ok outcome ∧ line <+: outcome.output := by
  obtain ⟨line, rest, htext, hline, hfloor⟩ := hc.exists_floor h
  have hcheck : ∀ rule ∈ rules, ∃ ds, rule.check source packages = .ok ds ∧
      ∀ d ∈ ds, d.FitsFrom source.text line.byteLength := fun rule hrule =>
    exists_check_fits h.arranged.toSliceable hfloor packages rule (hrules hrule)
  choose! reports hreports hbehind using hcheck
  refine ⟨line, (rules.map reports).flatten, hline, ⟨rest, htext.symm⟩, ?_, fun ds' hds' => ?_⟩
  · simp only [Source.diagnostics, Checked.mapM_eq_ok hreports, Checked.ok_bind]
    rfl
  · obtain ⟨outcome, rest', happly, houtput⟩ := Text.exists_applyFixes htext fun d hd => by
      obtain ⟨own, hown, hd⟩ := List.mem_flatten.1 (hds' hd)
      obtain ⟨rule, hrule, rfl⟩ := List.mem_map.1 hown
      exact (hbehind rule hrule d hd).fix_fits
    exact ⟨outcome, happly, rest', houtput.symm⟩

section Run

variable {parse : Text → Option Source}
  (hparse : ∀ text source, parse text = some source → source.text = text ∧ source.Legible ∧
    ("#!".toList <+: text → source.LeadsWith ⟨0, text.headLineBody.byteLength⟩))
  (hrules : rules ⊆ allRules)

include hparse hrules

/-- Every pass over a text with a `#!` line keeps the line. -/
theorem exists_diagnose_behind (packages : Packages) {text : Text} (htext : "#!".toList <+: text) :
    diagnose parse rules packages text = .error .unreadable ∨
      ∃ ds, diagnose parse rules packages text = .ok ds ∧ ∀ ds' : List Diagnostic, ds' ⊆ ds →
        ∃ outcome, text.applyFixes ds' = .ok outcome ∧ text.headLine <+: outcome.output := by
  rw [diagnose]
  cases hsource : parse text with
  | none => exact .inl rfl
  | some source =>
    obtain ⟨rfl, h, hleads⟩ := hparse text source hsource
    obtain ⟨line, ds, hafter, hline, hds, hfix⟩ :=
      exists_diagnostics_behind h (hleads htext) packages hrules
    -- the line ends past the terminator behind the comment
    have hhead : line = source.text.headLine := by
      have hsplit : source.text.headLineBody ++
          (source.text.dropWhile fun c => !Character.isLineBreak c) = source.text :=
        List.takeWhile_append_dropWhile
      have hrest := Text.sliceFrom_append source.text.headLineBody
        (source.text.dropWhile fun c => !Character.isLineBreak c)
      rw [hsplit] at hrest
      simp only [Source.afterLineBreak, hrest, Checked.ok_bind] at hafter
      have hlength : Text.byteLength line = source.text.headLine.byteLength := by
        rw [Text.byteLength_headLine]
        exact (Except.ok.inj hafter).symm
      obtain ⟨rest, hrest⟩ := hline
      obtain ⟨rest', hrest'⟩ := source.text.headLine_isPrefix
      exact (Text.append_inj (hrest.trans hrest'.symm) hlength).1
    rw [← hhead]
    exact .inr ⟨ds, by simp only [hds]; rfl, hfix⟩

end Run

theorem isPrefix_headLine {text : Text} (h : "#!".toList <+: text) :
    "#!".toList <+: text.headLine := by
  obtain ⟨rest, rfl⟩ := h
  have hline : ∀ c ∈ "#!".toList, Character.isLineBreak c = false := by simp [Character.isLineBreak]
  rw [Text.headLine_append hline]
  exact List.prefix_append _ _

/-- If a source whose statements and comments come in order and do not start with white space starts
with a `#!` line outside of its statements, then all edits of all reports of the three rules start
at or behind the offset past that line and its terminator, and a pass with any of the reports keeps
the text up to there. A run, whose texts are read as such sources with a leading `#!` line as such a
comment, makes no bad cut and keeps the line with its terminator at the start. -/
theorem fixes_keep_hashbang {source : Source} {c : Span} (h : source.Legible)
    (hc : source.LeadsWith c) (packages : Packages) :
    (∃ n line orders sorts newlines, source.afterLineBreak c.stop = .ok n ∧
      source.text.take? n = some line ∧
      StatementOrder.rule.check source packages = .ok orders ∧
      ImportSort.rule.check source packages = .ok sorts ∧
      ImportNewlines.rule.check source packages = .ok newlines ∧
      (∀ d, d ∈ orders ∨ d ∈ sorts ∨ d ∈ newlines → ∀ fix ∈ d.fix, ∀ edit ∈ fix.edits,
        n ≤ edit.span.start) ∧
      ∀ ds : List Diagnostic, (∀ d ∈ ds, d ∈ orders ∨ d ∈ sorts ∨ d ∈ newlines) →
        ∃ outcome, source.text.applyFixes ds = .ok outcome ∧
          outcome.output.take? n = some line) ∧
    ∀ (parse : Text → Option Source) (rules : List Rule),
      (∀ text source, parse text = some source → source.text = text ∧ source.Legible ∧
        ("#!".toList <+: text → source.LeadsWith ⟨0, text.headLineBody.byteLength⟩)) →
      rules ⊆ allRules → ∀ (cap : Nat) (text : Text), "#!".toList <+: text →
        (∀ cut, untilStable parse rules packages cap text ≠ .error (.badSlice cut)) ∧
        ∀ run, untilStable parse rules packages cap text = .ok run →
          text.headLine <+: run.output := by
  refine ⟨?_, fun parse rules hparse hrules cap text htext => ?_⟩
  · obtain ⟨line, rest, orders, sorts, newlines, htext, hline, horders, hsorts, hnewlines, hfits⟩ :=
      hc.exists_reports h packages
    refine ⟨line.byteLength, line, orders, sorts, newlines, hline, ?_, horders, hsorts, hnewlines,
      fun d hd fix hfix edit hedit => (hfits d hd fix hfix edit hedit).2, fun ds hds => ?_⟩
    · rw [htext, Text.take?_append]
    · obtain ⟨outcome, rest', happly, houtput⟩ := Text.exists_applyFixes htext fun d hd =>
        hfits d (hds d hd)
      exact ⟨outcome, happly, by rw [houtput, Text.take?_append]⟩
  · -- the first line of a later text starts with that of an earlier one
    refine untilStable_invariant (P := fun text' => text.headLine <+: text') (fun text' hkept => ?_)
      cap text.headLine_isPrefix
    have htext' : "#!".toList <+: text' := (isPrefix_headLine htext).trans hkept
    refine (exists_diagnose_behind hparse hrules packages htext').imp_right ?_
    rintro ⟨ds, hds, hfix⟩
    refine ⟨ds, hds, fun ds' hds' => ?_⟩
    obtain ⟨outcome, happly, hprefix⟩ := hfix ds' hds'
    obtain ⟨rest, rfl⟩ := hkept
    exact ⟨outcome, happly, (Text.headLine_isPrefix_headLine text rest).trans hprefix⟩

/-- A script with an import below its code, in a file with two sorts of line terminators. -/
def script : Source where
  text := "#!x\r\n1;\nimport 'b';\n".toList
  statements := [.plain ⟨5, 7⟩, ⟨.importDecl, 0, false, some "b", ⟨8, 19⟩⟩]
  comments := [⟨0, 3⟩]

/-- The script with the import above its code. -/
def orderedScript : Source where
  text := "#!x\r\nimport 'b';\n1;\n".toList
  statements := [⟨.importDecl, 0, false, some "b", ⟨5, 16⟩⟩, .plain ⟨17, 19⟩]
  comments := [⟨0, 3⟩]

/-- The import goes behind the `#!` line, in one pass and in a run of passes. -/
theorem script_keeps_hashbang : script.Legible ∧ script.LeadsWith ⟨0, 3⟩ ∧
    (∃ orders, StatementOrder.rule.check script [] = .ok orders ∧
      ∃ outcome, script.text.applyFixes orders = .ok outcome ∧
        outcome.output.take? 5 = some "#!x\r\n".toList) ∧
    untilStable (readOneOf [script, orderedScript]) allRules [] 10 script.text =
      .ok ⟨orderedScript.text, 1, []⟩ ∧
    "#!x\r\n".toList <+: orderedScript.text := by
  have h : script.Legible := by decide
  have hc : script.LeadsWith ⟨0, 3⟩ := ⟨rfl, rfl, by decide, by decide⟩
  have hrun : untilStable (readOneOf [script, orderedScript]) allRules [] 10 script.text =
      .ok ⟨orderedScript.text, 1, []⟩ := by
    cbv
  obtain ⟨⟨n, line, orders, sorts, newlines, hn, hline, horders, -, -, -, hpass⟩, hruns⟩ :=
    fixes_keep_hashbang h hc []
  obtain rfl : 5 = n := Except.ok.inj hn
  obtain rfl : "#!x\r\n".toList = line := Option.some.inj hline
  obtain ⟨outcome, happly, hkept⟩ := hpass orders fun d hd => .inl hd
  refine ⟨h, hc, ⟨orders, horders, outcome, happly, hkept⟩, hrun, ?_⟩
  refine (hruns (readOneOf [script, orderedScript]) allRules (fun text source heq => ?_)
    (List.Subset.refl _) 10 script.text (by decide)).2 _ hrun
  obtain ⟨hmem, rfl⟩ := readOneOf_eq_some heq
  simp only [List.mem_cons, List.not_mem_nil, or_false] at hmem
  rcases hmem with rfl | rfl
  · exact ⟨rfl, h, fun _ => hc⟩
  · exact ⟨rfl, by decide, fun _ => ⟨rfl, rfl, by decide, by decide⟩⟩

end Fixing

end ImportOrder
