import ImportOrder.Character.Ranges
import ImportOrder.Proofs.Text.Cut
import ImportOrder.Text.Lines
import Mathlib.Data.List.Basic

/-!
# Lines of concatenated texts

The line terminators of two texts, one behind the other, are those of either text, unless the seam
falls between a carriage return and a line feed. Lines of the whole then count as the lines of the
part plus the terminators in front of it, and the last line starts behind the last terminator.

## Main definitions

- `Text.Seam`: two texts whose terminators do not grow together
- `Text.TerminatorEnds`: a line terminator that ends between two texts
- `Text.breaks`: the number of line terminators

## Main statements

- `Text.lineEnds_append`: the terminators of two texts
- `Text.lineOf_append_left`, `Text.lineOf_append_right`: the lines of two texts
- `Text.exists_last_line`: a text falls into its last line and what stands in front
- `Text.lineStart_append`: where the last line of a text starts
-/

namespace ImportOrder

namespace Text

/-- No line feed follows a carriage return where the second text starts. -/
def Seam (u v : Text) : Prop := u.getLast? = some '\r' → v.head? ≠ some '\n'

/-- A line terminator ends where the first text does: a line feed, alone or behind a carriage
return, or a carriage return that no line feed follows. -/
def TerminatorEnds (u v : Text) : Prop :=
  u.getLast? = some '\n' ∨ u.getLast? = some '\r' ∧ v.head? ≠ some '\n'

/-- The number of line terminators. -/
def breaks (text : Text) : Nat := text.lineEnds.length

variable {u v w : Text}

/-! ## Seams -/

theorem seam_of_getLast? (h : u.getLast?.any Character.isLineBreak = false) (v : Text) :
    Seam u v := by
  intro hlast
  rw [hlast] at h
  exact absurd h (by decide)

theorem seam_of_head? (u : Text) (h : v.head?.any Character.isLineBreak = false) : Seam u v := by
  intro _ hhead
  rw [hhead] at h
  exact absurd h (by decide)

theorem seam_of_unbroken (u : Text) (h : ∀ c ∈ v, Character.isLineBreak c = false) : Seam u v := by
  intro _ hhead
  exact absurd (h '\n' (List.mem_of_mem_head? hhead)) (by decide)

theorem seam_append_right (hv : v ≠ []) (w : Text) : Seam u (v ++ w) ↔ Seam u v := by
  rw [Seam, Seam, List.head?_append_of_ne_nil v hv]

theorem seam_append_left (u : Text) (hv : v ≠ []) (w : Text) : Seam (u ++ v) w ↔ Seam v w := by
  rw [Seam, Seam, List.getLast?_append_of_ne_nil u hv]

theorem seam_of_append_left (u : Text) (h : Seam (u ++ v) w) : Seam v w := by
  by_cases hv : v = []
  · rw [hv]
    exact nofun
  · exact (seam_append_left u hv w).1 h

/-! ## Terminators -/

theorem utf8Size_of_break {c : Char} (hc : c = '\n' ∨ c = '\r') : c.utf8Size = 1 := by
  cases hc with
  | inl hc => rw [hc]; rfl
  | inr hc => rw [hc]; rfl

theorem byteLength_pair (text : Text) :
    byteLength ('\r' :: '\n' :: text) = 2 + byteLength text := by
  rw [byteLength_cons, byteLength_cons, utf8Size_of_break (.inr rfl), utf8Size_of_break (.inl rfl),
    ← Nat.add_assoc]

theorem lineEndsFrom_add (m n : Nat) (text : Text) :
    lineEndsFrom (m + n) text = (lineEndsFrom n text).map (m + ·) := by
  fun_induction lineEndsFrom n text with
  | case1 => rfl
  | case2 n text ih => rw [lineEndsFrom, List.map_cons, ← ih, Nat.add_assoc]
  | case3 n c text hpair hc ih =>
    rw [lineEndsFrom, if_pos hc, List.map_cons, ← ih, Nat.add_assoc]
    exact hpair
  | case4 n c text hpair hc ih =>
    rw [lineEndsFrom, if_neg hc, ← ih, Nat.add_assoc]
    exact hpair

theorem lineEndsFrom_eq (n : Nat) (text : Text) :
    lineEndsFrom n text = (lineEnds text).map (n + ·) := by
  rw [lineEnds, ← lineEndsFrom_add, Nat.add_zero]

theorem lineEndsFrom_append (h : Seam u v) (n : Nat) :
    lineEndsFrom n (u ++ v) = lineEndsFrom n u ++ lineEndsFrom (n + byteLength u) v := by
  fun_induction lineEndsFrom n u with
  | case1 => simp
  | case2 n u ih =>
    have hseam : Seam u v := seam_of_append_left ['\r', '\n'] h
    rw [List.cons_append, List.cons_append, lineEndsFrom, ih hseam, List.cons_append]
    congr 3
    rw [byteLength_pair, Nat.add_assoc]
  | case3 n c u hpair hc ih =>
    have hsize := utf8Size_of_break hc
    have hseam : Seam u v := seam_of_append_left [c] h
    -- a carriage return in front of the seam stays alone
    have hpair' : ∀ text, c = '\r' → u ++ v = '\n' :: text → False := by
      rintro text rfl heq
      cases u with
      | nil =>
        rw [List.nil_append] at heq
        exact h rfl (by rw [heq]; rfl)
      | cons d u =>
        rw [List.cons_append] at heq
        obtain ⟨rfl, -⟩ := List.cons.inj heq
        exact hpair u rfl rfl
    rw [List.cons_append, lineEndsFrom, if_pos hc, ih hseam, List.cons_append, byteLength_cons,
      hsize, Nat.add_assoc]
    exact hpair'
  | case4 n c u hpair hc ih =>
    have hseam : Seam u v := seam_of_append_left [c] h
    rw [List.cons_append, lineEndsFrom, if_neg hc, ih hseam, byteLength_cons, Nat.add_assoc]
    rintro text rfl
    exact absurd (.inr rfl) hc

/-- The terminators of two texts. -/
theorem lineEnds_append (h : Seam u v) :
    lineEnds (u ++ v) = lineEnds u ++ (lineEnds v).map (byteLength u + ·) := by
  rw [lineEnds, lineEndsFrom_append h, Nat.zero_add, lineEndsFrom_eq (byteLength u)]
  rfl

theorem breaks_append (h : Seam u v) : breaks (u ++ v) = breaks u + breaks v := by
  rw [breaks, lineEnds_append h, List.length_append, List.length_map]
  rfl

/-- Where a carriage return meets a line feed, two terminators become one. -/
theorem breaks_append_of_join (h : ¬ Seam u v) : breaks (u ++ v) + 1 = breaks u + breaks v := by
  obtain ⟨hlast, hhead⟩ := Classical.not_imp.1 h
  obtain ⟨front, rfl⟩ := List.getLast?_eq_some_iff.1 hlast
  obtain ⟨rest, rfl⟩ := List.head?_eq_some_iff.1 (not_not.1 hhead)
  have hseam : ∀ rest, Seam front ('\r' :: rest) := fun _ _ => by simp
  have hpair : breaks ('\r' :: '\n' :: rest) = breaks rest + 1 := by
    rw [breaks, lineEnds, lineEndsFrom, List.length_cons, lineEndsFrom_eq, List.length_map]
    rfl
  have hfeed : breaks ('\n' :: rest) = breaks rest + 1 := by
    rw [breaks, lineEnds, lineEndsFrom, if_pos (.inl rfl), List.length_cons, lineEndsFrom_eq,
      List.length_map]
    · rfl
    · exact fun _ => by simp
  rw [List.append_assoc, List.singleton_append, breaks_append (hseam _), breaks_append (hseam _),
    hpair, hfeed]
  have hreturn : breaks ['\r'] = 1 := rfl
  omega

theorem bounds_of_mem_lineEndsFrom {n k : Nat} (h : k ∈ lineEndsFrom n u) :
    n < k ∧ k ≤ n + byteLength u := by
  fun_induction lineEndsFrom n u with
  | case1 => exact absurd h List.not_mem_nil
  | case2 n u ih =>
    rw [byteLength_pair]
    cases List.mem_cons.1 h with
    | inl heq => omega
    | inr h =>
      have := ih h
      omega
  | case3 n c u _ _ ih =>
    have hpos := c.utf8Size_pos
    rw [byteLength_cons]
    cases List.mem_cons.1 h with
    | inl heq => omega
    | inr h =>
      have := ih h
      omega
  | case4 n c u _ _ ih =>
    have := ih h
    rw [byteLength_cons]
    omega

theorem bounds_of_mem_lineEnds {k : Nat} (h : k ∈ lineEnds u) : 0 < k ∧ k ≤ byteLength u := by
  simpa using bounds_of_mem_lineEndsFrom h

theorem terminatorEnds_append_left (u : Text) (h : TerminatorEnds v w) :
    TerminatorEnds (u ++ v) w := by
  have hv : v ≠ [] := by
    rintro rfl
    simp [TerminatorEnds] at h
  rw [TerminatorEnds, List.getLast?_append_of_ne_nil u hv]
  exact h

/-- Lines end between characters, behind their terminators. -/
theorem exists_of_mem_lineEndsFrom {offset n : Nat} {text : Text}
    (h : n ∈ lineEndsFrom offset text) :
    ∃ front rest, text = front ++ rest ∧ offset + byteLength front = n ∧
      TerminatorEnds front rest := by
  fun_induction lineEndsFrom offset text with
  | case1 => simp at h
  | case2 offset text ih =>
    rcases List.mem_cons.1 h with rfl | h
    · exact ⟨['\r', '\n'], text, rfl, rfl, .inl rfl⟩
    · obtain ⟨front, rest, rfl, hn, hends⟩ := ih h
      exact ⟨'\r' :: '\n' :: front, rest, rfl, by rw [byteLength_pair, ← hn, Nat.add_assoc],
        terminatorEnds_append_left ['\r', '\n'] hends⟩
  | case3 offset c text hpair hc ih =>
    have hsize := utf8Size_of_break hc
    rcases List.mem_cons.1 h with rfl | h
    · refine ⟨[c], text, rfl, by simp [hsize], hc.imp (congrArg some) fun hreturn => ?_⟩
      refine ⟨congrArg some hreturn, fun hhead => ?_⟩
      obtain ⟨rest, rfl⟩ := List.head?_eq_some_iff.1 hhead
      exact hpair rest hreturn rfl
    · obtain ⟨front, rest, rfl, hn, hends⟩ := ih h
      exact ⟨c :: front, rest, rfl, by rw [byteLength_cons, hsize]; omega,
        terminatorEnds_append_left [c] hends⟩
  | case4 offset c text _ hc ih =>
    obtain ⟨front, rest, rfl, hn, hends⟩ := ih h
    exact ⟨c :: front, rest, rfl, by rw [byteLength_cons]; omega,
      terminatorEnds_append_left [c] hends⟩

/-! ## Lines -/

theorem one_le_lineOf (text : Text) (k : Nat) : 1 ≤ text.lineOf k := Nat.le_add_left 1 _

theorem lineOf_zero (text : Text) : text.lineOf 0 = 1 := by
  rw [lineOf, List.countP_eq_zero.2]
  intro k hk
  have := bounds_of_mem_lineEnds hk
  simp only [decide_eq_true_eq]
  omega

theorem lineOf_byteLength (text : Text) : text.lineOf (byteLength text) = breaks text + 1 := by
  rw [lineOf, breaks, List.countP_eq_length.2]
  intro k hk
  exact decide_eq_true (bounds_of_mem_lineEnds hk).2

theorem lineOf_append_left (h : Seam u v) {k : Nat} (hk : k ≤ byteLength u) :
    lineOf (u ++ v) k = lineOf u k := by
  have hnone : ((lineEnds v).map (byteLength u + ·)).countP (· ≤ k) = 0 := by
    apply List.countP_eq_zero.2
    intro n hn
    obtain ⟨m, hm, rfl⟩ := List.mem_map.1 hn
    have := bounds_of_mem_lineEnds hm
    simp only [decide_eq_true_eq]
    omega
  rw [lineOf, lineEnds_append h, List.countP_append, hnone]
  rfl

theorem lineOf_append_right (h : Seam u v) (k : Nat) :
    lineOf (u ++ v) (byteLength u + k) = breaks u + lineOf v k := by
  have hall : (lineEnds u).countP (· ≤ byteLength u + k) = breaks u := by
    apply List.countP_eq_length.2
    intro n hn
    have := bounds_of_mem_lineEnds hn
    exact decide_eq_true (by omega)
  have hshift : ((lineEnds v).map (byteLength u + ·)).countP (· ≤ byteLength u + k) =
      (lineEnds v).countP (· ≤ k) := by
    rw [List.countP_map]
    apply List.countP_congr
    intro n _
    simp
  rw [lineOf, lineEnds_append h, List.countP_append, hall, hshift, lineOf, Nat.add_assoc]

/-! ## The last line -/

theorem breaks_of_unbroken (h : ∀ c ∈ u, Character.isLineBreak c = false) : breaks u = 0 := by
  rw [breaks, List.length_eq_zero_iff, lineEnds]
  generalize 0 = n
  fun_induction lineEndsFrom n u with
  | case1 => rfl
  | case2 n u ih => exact absurd (h '\r' List.mem_cons_self) (by decide)
  | case3 n c u _ hc ih =>
    have := h c List.mem_cons_self
    simp only [Character.isLineBreak, Bool.or_eq_false_iff, beq_eq_false_iff_ne] at this
    exact absurd hc (not_or.2 this)
  | case4 n c u _ _ ih => exact ih fun d hd => h d (List.mem_cons_of_mem c hd)

/-- If a text ends with a terminator, that is its last one. -/
theorem getLast?_lineEndsFrom {n : Nat} (h : u.getLast?.any Character.isLineBreak = true) :
    (lineEndsFrom n u).getLast? = some (n + byteLength u) := by
  fun_induction lineEndsFrom n u with
  | case1 => exact absurd h (by simp)
  | case2 n u ih =>
    by_cases hu : u = []
    · subst hu
      rfl
    · have hlast : u.getLast?.any Character.isLineBreak = true := by
        rw [← List.getLast?_append_of_ne_nil ['\r', '\n'] hu]
        exact h
      rw [List.getLast?_cons, ih hlast, Option.getD_some, byteLength_pair, Nat.add_assoc]
  | case3 n c u _ hc ih =>
    have hsize := utf8Size_of_break hc
    by_cases hu : u = []
    · subst hu
      simp [lineEndsFrom, hsize]
    · have hlast : u.getLast?.any Character.isLineBreak = true := by
        rw [← List.getLast?_append_of_ne_nil [c] hu]
        exact h
      rw [List.getLast?_cons, ih hlast, Option.getD_some, byteLength_cons, hsize, Nat.add_assoc]
  | case4 n c u _ hc ih =>
    by_cases hu : u = []
    · subst hu
      simp only [List.getLast?_singleton, Option.any_some, Character.isLineBreak, Bool.or_eq_true,
        beq_iff_eq] at h
      exact absurd h hc
    · have hlast : u.getLast?.any Character.isLineBreak = true := by
        rw [← List.getLast?_append_of_ne_nil [c] hu]
        exact h
      rw [ih hlast, byteLength_cons, Nat.add_assoc]

/-- A text falls into its last line and what stands in front, if it has a terminator. -/
theorem exists_last_line (text : Text) :
    (∀ c ∈ text, Character.isLineBreak c = false) ∨
      ∃ kept line, text = kept ++ line ∧ kept.getLast?.any Character.isLineBreak = true ∧
        ∀ c ∈ line, Character.isLineBreak c = false := by
  induction text with
  | nil => exact .inl (by simp)
  | cons c text ih =>
    cases ih with
    | inl hall =>
      cases hc : Character.isLineBreak c with
      | false => exact .inl (List.forall_mem_cons.2 ⟨hc, hall⟩)
      | true => exact .inr ⟨[c], text, rfl, by simpa using hc, hall⟩
    | inr hsplit =>
      obtain ⟨kept, line, rfl, hkept, hline⟩ := hsplit
      have hne : kept ≠ [] := by
        rintro rfl
        simp at hkept
      refine .inr ⟨c :: kept, line, rfl, ?_, hline⟩
      rw [← hkept]
      exact congrArg _ (List.getLast?_append_of_ne_nil [c] hne)

theorem breaks_pos_of_getLast? (h : u.getLast?.any Character.isLineBreak = true) :
    0 < breaks u := by
  have hlast : (lineEnds u).getLast? = some (0 + byteLength u) := getLast?_lineEndsFrom h
  apply List.length_pos_of_mem
  exact List.mem_of_getLast? hlast

theorem exists_lineStart (text : Text) (offset : Nat) :
    ∃ front rest, text = front ++ rest ∧ byteLength front = text.lineStart offset ∧
      text.lineStart offset ≤ offset := by
  rw [lineStart]
  cases hlast : (text.lineEnds.filter (· ≤ offset)).getLast? with
  | none => exact ⟨[], text, rfl, by simp [List.getLastD_eq_getLast?, hlast], by
      simp [List.getLastD_eq_getLast?, hlast]⟩
  | some n =>
    rw [List.getLastD_eq_getLast?, hlast, Option.getD_some]
    obtain ⟨hmem, hle⟩ := List.mem_filter.1 (List.mem_of_getLast? hlast)
    obtain ⟨front, rest, htext, hn, -⟩ := exists_of_mem_lineEndsFrom hmem
    exact ⟨front, rest, htext, by omega, by simpa using hle⟩

theorem lineStart_le_of_unbroken (huv : Seam u (w ++ v)) (hwv : Seam w v)
    (hw : ∀ c ∈ w, Character.isLineBreak c = false) :
    lineStart (u ++ (w ++ v)) (byteLength u + byteLength w) ≤ byteLength u := by
  have hnil : lineEnds w = [] := List.length_eq_zero_iff.1 (breaks_of_unbroken hw)
  rw [lineStart, lineEnds_append huv, lineEnds_append hwv, hnil, List.nil_append, List.map_map,
    List.getLastD_eq_getLast?]
  cases hlast : ((lineEnds u ++ (lineEnds v).map ((byteLength u + ·) ∘ (byteLength w + ·))).filter
      (· ≤ byteLength u + byteLength w)).getLast? with
  | none => exact Nat.zero_le _
  | some n =>
    obtain ⟨hmem, hle⟩ := List.mem_filter.1 (List.mem_of_getLast? hlast)
    rw [decide_eq_true_eq] at hle
    rw [Option.getD_some]
    cases List.mem_append.1 hmem with
    | inl hmem => exact (bounds_of_mem_lineEnds hmem).2
    | inr hmem =>
      obtain ⟨k, hk, rfl⟩ := List.mem_map.1 hmem
      have := bounds_of_mem_lineEnds hk
      simp only [Function.comp_apply] at hle
      omega

/-- The last line of the second of three texts starts behind its last terminator. -/
theorem lineStart_append {kept line : Text} (hline : ∀ c ∈ line, Character.isLineBreak c = false)
    (hkept : kept.getLast?.any Character.isLineBreak = true)
    (hu : Seam u (kept ++ line ++ v)) (hv : Seam (kept ++ line) v) :
    lineStart (u ++ (kept ++ line ++ v)) (byteLength u + byteLength (kept ++ line)) =
      byteLength u + byteLength kept := by
  have hseam : Seam kept line := seam_of_unbroken kept hline
  have hnil : lineEnds line = [] := List.length_eq_zero_iff.1 (breaks_of_unbroken hline)
  have hlast : (lineEnds kept).getLast? = some (0 + byteLength kept) := getLast?_lineEndsFrom hkept
  have hne : lineEnds kept ≠ [] := List.ne_nil_of_mem (List.mem_of_getLast? hlast)
  -- no terminator of the third text ends this early
  have hfilter : (lineEnds (u ++ (kept ++ line ++ v))).filter
      (· ≤ byteLength u + byteLength (kept ++ line)) =
      lineEnds u ++ (lineEnds kept).map (byteLength u + ·) := by
    rw [lineEnds_append hu, lineEnds_append hv, lineEnds_append hseam, hnil, List.map_nil,
      List.append_nil, List.map_append, ← List.append_assoc, List.filter_append]
    have hfront : (lineEnds u ++ (lineEnds kept).map (byteLength u + ·)).filter
        (· ≤ byteLength u + byteLength (kept ++ line)) =
        lineEnds u ++ (lineEnds kept).map (byteLength u + ·) := by
      apply List.filter_eq_self.2
      intro n hn
      rw [byteLength_append]
      apply decide_eq_true
      cases List.mem_append.1 hn with
      | inl hn =>
        have := bounds_of_mem_lineEnds hn
        omega
      | inr hn =>
        obtain ⟨k, hk, rfl⟩ := List.mem_map.1 hn
        have := bounds_of_mem_lineEnds hk
        omega
    have hback : (((lineEnds v).map (byteLength (kept ++ line) + ·)).map (byteLength u + ·)).filter
        (· ≤ byteLength u + byteLength (kept ++ line)) = [] := by
      apply List.filter_eq_nil_iff.2
      intro n hn
      obtain ⟨m, hm, rfl⟩ := List.mem_map.1 hn
      obtain ⟨k, hk, rfl⟩ := List.mem_map.1 hm
      have := bounds_of_mem_lineEnds hk
      rw [decide_eq_true_eq]
      omega
    rw [hfront, hback, List.append_nil]
  rw [lineStart, hfilter, List.getLastD_eq_getLast?,
    List.getLast?_append_of_ne_nil _ (by simpa using hne), List.getLast?_map, hlast, Nat.zero_add]
  rfl

end Text

end ImportOrder
