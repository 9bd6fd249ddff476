import ImportOrder.Proofs.Rule.Safety

/-!
# The steps of the token probe

Wherever the probe by offsets stands, it steps over a blank, over a comment or over a token, until
it comes to the end of its span. A step takes a piece off the front of what is left of the span. The
piece is never empty, and what is left alone determines which one it is, not the text around it. So
the steps come to an end, they meet the end of the span, and all offsets on the way lie between two
characters, also where a quote, an escape or a comment is cut off by the end of the span.

## Main definitions

- `ProbeStep`, `Text.stepFrom`: the step that the probe makes at an offset
- `Text.StepsFrom`: the steps from an offset to the end
- `ProbeStep.Advances`: a step that gets on inside of a span
- `Text.Traversal`: the steps through a span, and what the probe finds on them

## Main statements

- `Text.exists_takes`: a step takes a piece off what is left
- `Text.StepsFrom.advances`: all steps get on
- `Text.StepsFrom.tokenFrom_eq`: the probe finds the tokens among the steps
- `Text.probe_steps_through_span`
-/

namespace ImportOrder

open Character

/-- A step over a blank or a comment, or over a token, which has a kind. -/
structure ProbeStep where
  kind? : Option TokenKind
  span : Span
deriving DecidableEq, Repr

namespace ProbeStep

/-- The step in a text that starts further back. -/
def shift (n : Nat) (step : ProbeStep) : ProbeStep :=
  { step with span := step.span.shift n }

/-- The kinds of the tokens among some steps. -/
def kinds (steps : List ProbeStep) : List TokenKind :=
  steps.filterMap kind?

@[simp]
theorem shift_shift (m n : Nat) (step : ProbeStep) :
    (step.shift n).shift m = step.shift (m + n) := by
  simp only [shift, Span.shift_shift]

theorem map_shift_zero (steps : List ProbeStep) : steps.map (shift 0) = steps := by
  have hzero : shift 0 = id := by
    funext step
    rw [shift, Span.shift_zero]
    rfl
  rw [hzero, List.map_id]

theorem kinds_map_shift (n : Nat) (steps : List ProbeStep) :
    kinds (steps.map (shift n)) = kinds steps := by
  rw [kinds, kinds, List.filterMap_map]
  rfl

/-- The step stays inside of a span, gets over some bytes of it and ends between two characters. -/
structure Advances (step : ProbeStep) (text : Text) (span : Span) : Prop where
  inside : step.span.Inside span
  start_lt_stop : step.span.start < step.span.stop
  hasSpan : text.HasSpan step.span

end ProbeStep

namespace Token

theorem afterQuoted_suffix (quote : Char) (text : Text) : afterQuoted quote text <:+ text := by
  fun_induction afterQuoted quote text with
  | case1 => exact List.suffix_refl []
  | case2 c text ih => exact (ih.trans (List.suffix_cons c text)).trans (List.suffix_cons _ _)
  | case3 text => exact List.suffix_cons quote text
  | case4 c text _ _ ih => exact ih.trans (List.suffix_cons c text)

theorem afterToken_suffix (c : Char) (text : Text) : afterToken c text <:+ text := by
  unfold afterToken
  split
  · exact afterQuoted_suffix c text
  · exact afterQuoted_suffix c text
  · exact List.dropWhile_suffix isNumberPart
  · exact List.dropWhile_suffix isNamePart
  · exact List.suffix_refl text

end Token

namespace Text

variable {text front back mid : Text} {kind? : Option TokenKind} {c : Char} {pos stop : Nat}

/-! ## One step -/

/-- The offset behind the blank or the comment at an offset, if there is one. -/
def triviaEnd? (text : Text) (stop pos : Nat) : Checked (Option Nat) :=
  match text.slice ⟨pos, stop⟩ with
  | .error cut => .error cut
  | .ok [] => .ok none
  | .ok ('/' :: '/' :: line) =>
    .ok (some (pos + lengthUntil isLineBreak ('/' :: '/' :: line)))
  | .ok ('/' :: '*' :: block) =>
    match sliceFrom ('/' :: '*' :: block) 2 with
    | .error cut => .error cut
    | .ok inner => .ok (some (pos + blockLength inner (byteLength ('/' :: '*' :: block))))
  | .ok (c :: _) => .ok (if isBlank c then some (pos + c.utf8Size) else none)

/-- The step of the probe at an offset; there is none at the end. -/
def stepFrom (text : Text) (stop pos : Nat) : Checked (Option ProbeStep) :=
  if pos < stop then do
    match ← text.triviaEnd? stop pos with
    | some next => return some ⟨none, ⟨pos, next⟩⟩
    | none =>
      let (kind, next) ← text.scanTokenFrom stop pos
      return some ⟨some kind, ⟨pos, next⟩⟩
  else return none

/-- Skipping blanks and comments is stepping over them one by one. -/
theorem skipTriviaFrom_eq (hlt : pos < stop) :
    text.skipTriviaFrom stop pos =
      text.triviaEnd? stop pos >>= fun
        | some next => text.skipTriviaFrom stop next
        | none => .ok pos := by
  rw [skipTriviaFrom, if_pos hlt]
  fun_cases triviaEnd? text stop pos with
  | case1 cut hcut => simp only [hcut]; rfl
  | case2 hnil => simp only [hnil]; rfl
  | case3 line hline => simp only [hline]; rfl
  | case4 block hblock cut hcut => simp only [hblock, hcut]; rfl
  | case5 block hblock inner hinner => simp only [hblock, hinner]; rfl
  | case6 c tail hline hblock hslice => simp only [hslice]; split <;> rfl

theorem stepFrom_eq_none_iff : text.stepFrom stop pos = .ok none ↔ stop ≤ pos := by
  rw [stepFrom]
  by_cases hlt : pos < stop
  · rw [if_pos hlt]
    refine iff_of_false (fun h => ?_) (Nat.not_le.2 hlt)
    obtain ⟨next?, -, h⟩ := Checked.bind_eq_ok.1 h
    cases next? with
    | some next => cases h
    | none =>
      obtain ⟨token, -, h⟩ := Checked.bind_eq_ok.1 h
      cases h
  · rw [if_neg hlt]
    exact iff_of_true rfl (Nat.le_of_not_lt hlt)

/-- A step leads over a blank or a comment if there is one, and else over a token. -/
theorem stepFrom_eq_some {step : ProbeStep} (h : text.stepFrom stop pos = .ok (some step)) :
    pos < stop ∧
      ((∃ next, text.triviaEnd? stop pos = .ok (some next) ∧ step = ⟨none, ⟨pos, next⟩⟩) ∨
        text.triviaEnd? stop pos = .ok none ∧ ∃ kind next,
          text.scanTokenFrom stop pos = .ok (kind, next) ∧ step = ⟨some kind, ⟨pos, next⟩⟩) := by
  rw [stepFrom] at h
  by_cases hlt : pos < stop
  · refine ⟨hlt, ?_⟩
    rw [if_pos hlt] at h
    obtain ⟨next?, htrivia, h⟩ := Checked.bind_eq_ok.1 h
    cases next? with
    | some next =>
      exact .inl ⟨next, htrivia, (Option.some.inj (Except.ok.inj h)).symm⟩
    | none =>
      obtain ⟨⟨kind, next⟩, htoken, h⟩ := Checked.bind_eq_ok.1 h
      exact .inr ⟨htrivia, kind, next, htoken, (Option.some.inj (Except.ok.inj h)).symm⟩
  · rw [if_neg hlt] at h
    cases h

/-- Wherever `front ++ back` is left of a span, the step leads over `front`. -/
def Takes (kind? : Option TokenKind) (front back : Text) : Prop :=
  ∀ text pos stop, slice text ⟨pos, stop⟩ = .ok (front ++ back) →
    stepFrom text stop pos = .ok (some ⟨kind?, ⟨pos, pos + byteLength front⟩⟩)

theorem lt_of_slice (h : text.slice ⟨pos, stop⟩ = .ok mid) (hne : mid ≠ []) : pos < stop := by
  have hstop := stop_eq_of_slice h
  have hpos : byteLength mid ≠ 0 := mt (byteLength_eq_zero_iff mid).1 hne
  omega

theorem takes_of_triviaEnd? (hne : front ≠ [])
    (h : ∀ text pos stop, slice text ⟨pos, stop⟩ = .ok (front ++ back) →
      triviaEnd? text stop pos = .ok (some (pos + byteLength front))) : Takes none front back := by
  intro text pos stop hslice
  have hlt : pos < stop := lt_of_slice hslice (by simp [hne])
  rw [stepFrom, if_pos hlt, h text pos stop hslice]
  rfl

/-- A line comment reaches up to the line terminator. -/
theorem takes_line (line : Text) :
    Takes none (('/' :: '/' :: line).takeWhile (!isLineBreak ·))
      (('/' :: '/' :: line).dropWhile (!isLineBreak ·)) := by
  refine takes_of_triviaEnd? (by simp [isLineBreak]) fun text pos stop h => ?_
  rw [List.takeWhile_append_dropWhile] at h
  rw [triviaEnd?, h, ← lengthUntil_eq]
  rfl

theorem triviaEnd?_block {block : Text} (h : text.slice ⟨pos, stop⟩ = .ok ('/' :: '*' :: block)) :
    text.triviaEnd? stop pos =
      .ok (some (pos + blockLength block (byteLength ('/' :: '*' :: block)))) := by
  have hinner : sliceFrom ('/' :: '*' :: block) 2 = .ok block := sliceFrom_append ['/', '*'] block
  rw [triviaEnd?, h]
  simp only [hinner]

/-- A block comment reaches up to the first `*/`, or to the end if there is none. -/
theorem exists_takes_block (block : Text) :
    ∃ front back, '/' :: '*' :: block = front ++ back ∧ front ≠ [] ∧ Takes none front back := by
  cases skipTriviaIn_block 0 block with
  | inl hopen =>
    refine ⟨'/' :: '*' :: block, [], by simp, by simp, takes_of_triviaEnd? (by simp) ?_⟩
    intro text pos stop h
    rw [List.append_nil] at h
    rw [triviaEnd?_block h, blockLength, find?, hopen.1]
    rfl
  | inr hclosed =>
    obtain ⟨inside, back, rfl, hfind, -⟩ := hclosed
    refine ⟨['/', '*'] ++ inside ++ ['*', '/'], back, by simp, by simp,
      takes_of_triviaEnd? (by simp) ?_⟩
    intro text pos stop h
    have hlength : byteLength (['/', '*'] ++ inside ++ ['*', '/']) = 0 + byteLength inside + 4 := by
      simp only [byteLength_append]
      show 2 + byteLength inside + 2 = 0 + byteLength inside + 4
      omega
    have hcomment : text.slice ⟨pos, stop⟩ =
        .ok ('/' :: '*' :: (inside ++ '*' :: '/' :: back)) := by
      simpa using h
    rw [triviaEnd?_block hcomment, blockLength, find?, hfind, hlength]
    rfl

section Cons

variable {rest : Text} (hline : ∀ line, c = '/' → rest = '/' :: line → False)
  (hblock : ∀ block, c = '/' → rest = '*' :: block → False)

include hline hblock

theorem triviaEnd?_cons (h : text.slice ⟨pos, stop⟩ = .ok (c :: rest)) :
    text.triviaEnd? stop pos = .ok (if isBlank c then some (pos + c.utf8Size) else none) := by
  fun_cases triviaEnd? text stop pos with
  | case1 cut hcut => cases hcut.symm.trans h
  | case2 hnil => cases hnil.symm.trans h
  | case3 line hslice =>
    cases hslice.symm.trans h
    exact (hline line rfl rfl).elim
  | case4 block hslice cut hcut =>
    cases hslice.symm.trans h
    exact (hblock block rfl rfl).elim
  | case5 block hslice inner hinner =>
    cases hslice.symm.trans h
    exact (hblock block rfl rfl).elim
  | case6 d tail _ _ hslice =>
    cases hslice.symm.trans h
    rfl

theorem takes_blank (hblank : isBlank c = true) : Takes none [c] rest := by
  refine takes_of_triviaEnd? (by simp) fun text pos stop h => ?_
  rw [triviaEnd?_cons hline hblock h, if_pos hblank]
  rfl

/-- A token reaches from its first character up to what follows it. -/
theorem exists_takes_token (hblank : isBlank c = false) :
    ∃ front back, c :: rest = front ++ back ∧ front ≠ [] ∧
      Takes (some (Token.kindOf c)) front back := by
  obtain ⟨others, hrest⟩ := Token.afterToken_suffix c rest
  refine ⟨c :: others, Token.afterToken c rest, by rw [List.cons_append, hrest], by simp, ?_⟩
  intro text pos stop h
  rw [List.cons_append, hrest] at h
  obtain ⟨next, hscan, hnext⟩ := exists_scanTokenFrom h
  -- the offset behind the token is known by what is left of the span there
  have hend : next = pos + byteLength (c :: others) := by
    have hbefore := stop_eq_of_slice h
    have hafter := stop_eq_of_slice hnext
    have hlength : byteLength (c :: rest) =
        byteLength (c :: others) + byteLength (Token.afterToken c rest) := by
      rw [← byteLength_append, List.cons_append, hrest]
    omega
  rw [stepFrom, if_pos (lt_of_slice h (by simp)), triviaEnd?_cons hline hblock h, hblank, hscan,
    ← hend]
  rfl

end Cons

/-- A step takes a piece off what is left of the span, whatever stands around the span. -/
theorem exists_takes (hne : mid ≠ []) :
    ∃ kind? front back, mid = front ++ back ∧ front ≠ [] ∧ Takes kind? front back := by
  obtain ⟨c, rest, rfl⟩ := List.exists_cons_of_ne_nil hne
  by_cases hline : ∃ line, c = '/' ∧ rest = '/' :: line
  · obtain ⟨line, rfl, rfl⟩ := hline
    exact ⟨none, _, _, List.takeWhile_append_dropWhile.symm, by simp [isLineBreak],
      takes_line line⟩
  · by_cases hblock : ∃ block, c = '/' ∧ rest = '*' :: block
    · obtain ⟨block, rfl, rfl⟩ := hblock
      exact ⟨none, exists_takes_block block⟩
    · have hline' : ∀ line, c = '/' → rest = '/' :: line → False :=
        fun line hc hrest => hline ⟨line, hc, hrest⟩
      have hblock' : ∀ block, c = '/' → rest = '*' :: block → False :=
        fun block hc hrest => hblock ⟨block, hc, hrest⟩
      by_cases hblank : isBlank c = true
      · exact ⟨none, [c], rest, rfl, by simp, takes_blank hline' hblock' hblank⟩
      · exact ⟨_, exists_takes_token hline' hblock' (Bool.eq_false_iff.2 hblank)⟩

/-- A step gets on, and leaves a rest that can be cut out. -/
theorem advances_of_stepFrom {step : ProbeStep} (h : text.stepFrom stop pos = .ok (some step))
    (hslice : text.slice ⟨pos, stop⟩ = .ok mid) :
    step.span.start = pos ∧ step.Advances text ⟨pos, stop⟩ ∧
      ∃ rest, text.slice ⟨step.span.stop, stop⟩ = .ok rest := by
  have hne : mid ≠ [] := by
    rintro rfl
    exact Nat.ne_of_gt (stepFrom_eq_some h).1 (stop_eq_of_slice hslice)
  obtain ⟨kind?, front, back, rfl, hfront, htakes⟩ := exists_takes hne
  obtain rfl := Option.some.inj (Except.ok.inj (h.symm.trans (htakes text pos stop hslice)))
  have hpos : byteLength front ≠ 0 := mt (byteLength_eq_zero_iff front).1 hfront
  have hstop := stop_eq_of_slice hslice
  rw [byteLength_append] at hstop
  refine ⟨rfl, ⟨⟨Nat.le_refl pos, ?_⟩, ?_, ?_⟩, back, slice_advance hslice⟩
  · show pos + byteLength front ≤ stop
    omega
  · show pos < pos + byteLength front
    omega
  · obtain ⟨before, behind, rfl, rfl, -⟩ := slice_eq_ok_iff.1 hslice
    exact ⟨Nat.le_add_right .., ⟨before, front ++ back ++ behind, by simp, rfl⟩,
      ⟨before ++ front, back ++ behind, by simp, by simp⟩⟩

/-! ## All steps -/

/-- The steps from an offset to the end, one behind the other. -/
inductive StepsFrom (text : Text) (stop : Nat) : Nat → List ProbeStep → Prop where
  | done {pos : Nat} (h : text.stepFrom stop pos = .ok none) : StepsFrom text stop pos []
  | step {pos : Nat} {step : ProbeStep} {steps : List ProbeStep}
      (h : text.stepFrom stop pos = .ok (some step))
      (hrest : StepsFrom text stop step.span.stop steps) : StepsFrom text stop pos (step :: steps)

/-- The steps depend on what is left of the span only, but for where it starts. -/
theorem exists_stepsFrom (mid : Text) :
    ∃ steps : List ProbeStep, ∀ text pos stop, slice text ⟨pos, stop⟩ = .ok mid →
      StepsFrom text stop pos (steps.map (·.shift pos)) := by
  -- a step is not empty, so what is left behind it is shorter
  induction hlength : mid.length using Nat.strong_induction_on generalizing mid with
  | _ length ih =>
    by_cases hne : mid = []
    · subst hne
      refine ⟨[], fun text pos stop h => .done (stepFrom_eq_none_iff.2 ?_)⟩
      exact Nat.le_of_eq (stop_eq_of_slice h)
    · obtain ⟨kind?, front, back, rfl, hfront, htakes⟩ := exists_takes hne
      have hshorter : back.length < length := by
        have := List.length_pos_iff.2 hfront
        rw [List.length_append] at hlength
        omega
      obtain ⟨steps, hsteps⟩ := ih back.length hshorter back rfl
      refine ⟨⟨kind?, ⟨0, byteLength front⟩⟩ :: steps.map (·.shift (byteLength front)), ?_⟩
      intro text pos stop h
      have hrest := hsteps text _ stop (slice_advance h)
      simp only [List.map_cons, List.map_map, Function.comp_def, ProbeStep.shift_shift]
      exact .step (htakes text pos stop h) hrest

namespace StepsFrom

variable {steps : List ProbeStep}

theorem advances (h : text.StepsFrom stop pos steps) (hslice : text.slice ⟨pos, stop⟩ = .ok mid) :
    ∀ step ∈ steps, step.Advances text ⟨pos, stop⟩ := by
  induction h generalizing mid with
  | done h => simp
  | @step pos step steps h hrest ih =>
    obtain ⟨-, hadvances, rest, hrest⟩ := advances_of_stepFrom h hslice
    refine List.forall_mem_cons.2 ⟨hadvances, fun other hother => ?_⟩
    have hother := ih hrest other hother
    have hle : pos ≤ step.span.stop := hadvances.inside.1.trans hadvances.start_lt_stop.le
    exact ⟨⟨hle.trans hother.inside.1, hother.inside.2⟩, hother.start_lt_stop, hother.hasSpan⟩

theorem length_le (h : text.StepsFrom stop pos steps) (hslice : text.slice ⟨pos, stop⟩ = .ok mid) :
    steps.length ≤ stop - pos := by
  induction h generalizing mid with
  | done h => exact Nat.zero_le _
  | @step pos step steps h hrest ih =>
    obtain ⟨hstart, hadvances, rest, hrest⟩ := advances_of_stepFrom h hslice
    have hlater := ih hrest
    have hstop : step.span.stop ≤ stop := hadvances.inside.2
    have hlt := hadvances.start_lt_stop
    rw [List.length_cons]
    omega

/-- The probe finds the tokens among the steps, by their number. -/
theorem tokenFrom_eq (h : text.StepsFrom stop pos steps) (index : Nat) :
    text.tokenFrom stop index pos = .ok (ProbeStep.kinds steps)[index]? := by
  induction h generalizing index with
  | @done pos h =>
    have hle : stop ≤ pos := stepFrom_eq_none_iff.1 h
    have hnext : text.nextTokenFrom stop pos = .ok none := by
      rw [nextTokenFrom, skipTriviaFrom, if_neg (Nat.not_lt.2 hle), Checked.ok_bind, if_pos hle]
      rfl
    cases index <;> rw [tokenFrom, hnext] <;> rfl
  | @step pos step steps h hrest ih =>
    obtain ⟨hlt, ⟨next, htrivia, rfl⟩ | ⟨htrivia, kind, next, htoken, rfl⟩⟩ := stepFrom_eq_some h
    · -- the next token is the one behind the blank or the comment
      have hskip : text.skipTriviaFrom stop pos = text.skipTriviaFrom stop next := by
        rw [skipTriviaFrom_eq hlt, htrivia]
        rfl
      have hnext : text.nextTokenFrom stop pos = text.nextTokenFrom stop next := by
        rw [nextTokenFrom, hskip, nextTokenFrom]
      have hsame : text.tokenFrom stop index pos = text.tokenFrom stop index next := by
        cases index <;> rw [tokenFrom, hnext, tokenFrom]
      rw [hsame]
      exact ih index
    · have hskip : text.skipTriviaFrom stop pos = .ok pos := by
        rw [skipTriviaFrom_eq hlt, htrivia]
        rfl
      have hnext : text.nextTokenFrom stop pos = .ok (some (kind, next)) := by
        rw [nextTokenFrom, hskip, Checked.ok_bind, if_neg (Nat.not_le.2 hlt), htoken]
        rfl
      cases index with
      | zero =>
        rw [tokenFrom, hnext]
        rfl
      | succ index =>
        rw [tokenFrom, hnext]
        exact ih index

end StepsFrom

/-- The probe gets through a span by some steps: each of them gets on, there are not more of them
than bytes, and the tokens of the span are those that they lead over. -/
structure Traversal (text : Text) (span : Span) (steps : List ProbeStep) : Prop where
  stepsFrom : text.StepsFrom span.stop span.start steps
  advances : ∀ step ∈ steps, step.Advances text span
  length_le : steps.length ≤ span.stop - span.start
  probe_eq : ∀ index, text.probe span index = .ok (ProbeStep.kinds steps)[index]?
  tokenKind_eq : ∀ index, text.tokenKind span index = .ok (ProbeStep.kinds steps)[index]?

theorem StepsFrom.traversal {span : Span} {steps : List ProbeStep} {part : Text}
    (h : text.StepsFrom span.stop span.start steps) (hpart : text.slice span = .ok part) :
    text.Traversal span steps := by
  have hprobe : ∀ index, text.probe span index = .ok (ProbeStep.kinds steps)[index]? := by
    intro index
    have hbounds := bounds_of_slice? (slice_eq_ok_iff_slice?.1 hpart)
    rw [probe, Nat.min_eq_left hbounds.2]
    exact h.tokenFrom_eq index
  exact ⟨h, h.advances hpart, h.length_le hpart, hprobe,
    fun index => (text.probe_eq_tokenKind span index).symm.trans (hprobe index)⟩

end Text

/-- A statement has the same category in all sources that hold its text at its place. -/
theorem Source.exists_classify_moved {source moved : Source} {s : Statement} {place : Span}
    {part : Text} (hpart : source.text.slice s.span = .ok part)
    (hmoved : moved.text.slice place = .ok part) :
    ∃ category, source.classify s = .ok category ∧
      moved.classify { s with span := place } = .ok category := by
  have hslice := Text.slice_eq_ok_iff_slice?.1 hpart
  have hslice' := Text.slice_eq_ok_iff_slice?.1 hmoved
  have hpassage : moved.passage { s with span := place } = source.passage s := by
    have hbounds := Text.bounds_of_slice? hslice
    have hbounds' := Text.bounds_of_slice? hslice'
    have hlength : place.stop - place.start = s.span.stop - s.span.start := by omega
    simp only [passage, hslice, hslice', Statement.atStart, hlength]
  refine ⟨_, classify_of_slice? hslice, ?_⟩
  rw [← hpassage]
  exact classify_of_slice? hslice'

namespace Text

/-- The probe gets through every span, by steps that only the text of the span determines.

The span can be cut out of the text, and nothing else is asked of either. Then every blank, every
comment and every token that the probe comes to takes some bytes and ends between two characters of
the text, not behind the end of the span, and after as many steps as there are bytes, at most, the
end is reached. In the text of the span alone the steps and the tokens are the same. Hence a
statement whose text is moved keeps its category. -/
theorem probe_steps_through_span {text : Text} {span : Span} (h : text.HasSpan span) :
    ∃ part steps, text.slice span = .ok part ∧
      text.Traversal span (steps.map (·.shift span.start)) ∧
      part.Traversal ⟨0, span.stop - span.start⟩ steps ∧
      (∀ index, text.tokenKind span index =
        part.tokenKind ⟨0, span.stop - span.start⟩ index) ∧
      ∀ (source moved : Source) (s : Statement) (place : Span), source.text = text →
        s.span = span → moved.text.slice place = .ok part →
        ∃ category, source.classify s = .ok category ∧
          moved.classify { s with span := place } = .ok category := by
  obtain ⟨part, hpart⟩ := h.exists_slice
  obtain ⟨steps, hsteps⟩ := exists_stepsFrom part
  have hown : part.slice ⟨0, span.stop - span.start⟩ = .ok part := by
    rw [stop_eq_of_slice hpart, Nat.add_sub_cancel_left]
    exact slice_eq_ok_iff.2 ⟨[], [], by simp, rfl, by simp⟩
  have htext : text.Traversal span (steps.map (·.shift span.start)) :=
    (hsteps text span.start span.stop hpart).traversal hpart
  have halone : part.Traversal ⟨0, span.stop - span.start⟩ (steps.map (·.shift 0)) :=
    (hsteps part 0 (span.stop - span.start) hown).traversal hown
  rw [ProbeStep.map_shift_zero] at halone
  refine ⟨part, steps, hpart, htext, halone, fun index => ?_, ?_⟩
  · rw [htext.tokenKind_eq, halone.tokenKind_eq, ProbeStep.kinds_map_shift]
  · rintro source moved s place rfl rfl hmoved
    exact Source.exists_classify_moved hpart hmoved

/-- Behind a comment stand a string and a template, both with an escaped character of two bytes. -/
def escapedText : Text := "é/*ü*/'\\é'`\\ß`".toList

/-- The probe gets through a span that leaves out the end of the template. -/
theorem probe_steps_through_escapes :
    escapedText.HasSpan ⟨2, 17⟩ ∧ ∃ part steps, escapedText.slice ⟨2, 17⟩ = .ok part ∧
      escapedText.Traversal ⟨2, 17⟩ (steps.map (·.shift 2)) ∧ part.Traversal ⟨0, 15⟩ steps ∧
      (∀ index, escapedText.tokenKind ⟨2, 17⟩ index = part.tokenKind ⟨0, 15⟩ index) ∧
      ∀ (source moved : Source) (s : Statement) (place : Span), source.text = escapedText →
        s.span = ⟨2, 17⟩ → moved.text.slice place = .ok part →
        ∃ category, source.classify s = .ok category ∧
          moved.classify { s with span := place } = .ok category := by
  have h : escapedText.HasSpan ⟨2, 17⟩ := by decide +kernel
  exact ⟨h, probe_steps_through_span h⟩

end Text

end ImportOrder
