import ImportOrder.Proofs.Run.FixedPoint

/-!
# Resuming runs of passes

A run that stops at its cap can be taken up again at its output. What comes out is what one run with
both caps together gives: the text and the reports of the second run, and the passes of both. This
holds whatever the rules and the reader of texts do, and it holds of failures as well: the text on
which the first run stops is read once more by the second, and a text that cannot be read stops the
long run exactly where it stops one of the short ones.

## Main statements

- `Fixing.untilStable_of_error`: a text without reports stops every run
- `Fixing.untilStable_add`: a run in two parts
- `Fixing.run_resumes`: the two parts, with the texts that cannot be read
-/

namespace ImportOrder.Fixing

section Run

variable {parse : Text → Option Source} {rules : List Rule} {packages : Packages} {text : Text}

theorem untilStable_of_error {e : FixError} (h : diagnose parse rules packages text = .error e)
    (cap : Nat) : untilStable parse rules packages cap text = .error e := by
  cases cap with
  | zero =>
    rw [untilStable, h]
    rfl
  | succ cap =>
    rw [untilStable, h]
    rfl

/-- A run without passes in front of another does nothing but read the text. -/
theorem untilStable_zero_bind (cap : Nat) :
    (untilStable parse rules packages 0 text >>= fun first =>
      untilStable parse rules packages cap first.output >>= fun second =>
      .ok { second with passes := first.passes + second.passes }) =
    untilStable parse rules packages cap text := by
  cases hds : diagnose parse rules packages text with
  | error e =>
    rw [untilStable_of_error hds, untilStable_of_error hds]
    rfl
  | ok ds =>
    rw [untilStable, hds]
    simp only [Checked.ok_bind, pure, Except.pure, Nat.zero_add]
    cases untilStable parse rules packages cap text <;> rfl

/-- A run in two parts, the second from the output of the first, is one run with both caps. -/
theorem untilStable_add (m n : Nat) :
    untilStable parse rules packages (m + n) text =
      (untilStable parse rules packages m text >>= fun first =>
        untilStable parse rules packages n first.output >>= fun second =>
        .ok { second with passes := first.passes + second.passes }) := by
  induction m generalizing text with
  | zero => rw [Nat.zero_add, untilStable_zero_bind]
  | succ m ih =>
    cases hds : diagnose parse rules packages text with
    | error e =>
      rw [untilStable_of_error hds, untilStable_of_error hds]
      rfl
    | ok ds =>
      -- without a fix to apply, neither the long run nor any of the parts makes a pass
      have hstop (hidle : ∀ rule ∈ rules, Idle text ds rule) :
          untilStable parse rules packages (m + 1 + n) text =
            (untilStable parse rules packages (m + 1) text >>= fun first =>
              untilStable parse rules packages n first.output >>= fun second =>
              .ok { second with passes := first.passes + second.passes }) := by
        simp only [untilStable_of_idle hds hidle, Checked.ok_bind]
      by_cases hfixless : ds.all (·.fix.isNone) = true
      · refine hstop fun rule _ => idle_of_fixless (fun d hd => ?_) rule
        simpa using List.all_eq_true.1 hfixless d hd
      · cases hleading : leading? text ds rules with
        | error cut =>
          rw [Nat.add_right_comm, untilStable, untilStable]
          simp only [hds, Checked.ok_bind, if_neg hfixless, hleading]
          rfl
        | ok leading =>
          cases leading with
          | none => exact hstop (leading?_eq_none hleading)
          | some outcome =>
            -- the pass that both make, and then the run in two parts from its output
            rw [Nat.add_right_comm, untilStable, untilStable]
            simp only [hds, Checked.ok_bind, if_neg hfixless, hleading, Except.mapError, ih]
            cases untilStable parse rules packages m outcome.output with
            | error e => rfl
            | ok first =>
              simp only [Checked.ok_bind, pure, Except.pure]
              cases untilStable parse rules packages n first.output with
              | error e => rfl
              | ok second => simp only [Checked.ok_bind, Nat.add_right_comm]

end Run

/-- A run with the caps `m` and `n` together is a run with the cap `m` and, if that succeeds, a run
with the cap `n` from its output: it ends with the output and the reports of the second, after the
passes of both, and it fails as the first of the two that fails. In particular it comes upon a text
that cannot be read exactly if one of the two does. -/
theorem run_resumes (parse : Text → Option Source) (rules : List Rule) (packages : Packages)
    (m n : Nat) (text : Text) :
    (untilStable parse rules packages (m + n) text = do
      let first ← untilStable parse rules packages m text
      let second ← untilStable parse rules packages n first.output
      return ⟨second.output, first.passes + second.passes, second.remaining⟩) ∧
    (untilStable parse rules packages (m + n) text = .error .unreadable ↔
      untilStable parse rules packages m text = .error .unreadable ∨
      ∃ first, untilStable parse rules packages m text = .ok first ∧
        untilStable parse rules packages n first.output = .error .unreadable) := by
  refine ⟨untilStable_add m n, ?_⟩
  rw [untilStable_add m n]
  cases untilStable parse rules packages m text with
  | error e => simp [bind, Except.bind]
  | ok first =>
    cases hsecond : untilStable parse rules packages n first.output with
    | error e => simp [bind, Except.bind, hsecond]
    | ok second => simp [bind, Except.bind, hsecond]

end ImportOrder.Fixing
