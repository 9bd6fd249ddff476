import ImportOrder.Collation
import Mathlib.Algebra.Ring.Nat
import Mathlib.Data.List.Forall2
import Mathlib.Data.List.SplitBy
import Mathlib.Data.List.TakeWhile
import Mathlib.Order.Nat

/-!
# Names as lists of tokens

A name falls into its maximal runs of digits and its single other characters. A run of digits stands
for the number that it writes, however long it is, and any other character for its sort key. The
natural order walks through two names in step and compares runs of digits by their lengths and their
digits, which comes to the lexicographic order of these tokens.

## Main definitions

- `Collation.runs`: the runs of digits and the other characters of a name
- `Collation.StandsFor`: what a run is to be compared by
- `Collation.token`, `Collation.tokens`: the token of a run and the tokens of a name

## Main statements

- `Collation.compareNumbers_eq`: runs of digits compare as the numbers that they write
- `Collation.compareBasesIn_eq`: a walk through two names compares their tokens
- `Collation.natural_compares_tokens`
-/

namespace ImportOrder.Collation

/-- The maximal runs of digits and the other characters, each of which is a run of its own. -/
def runs (bases : List Char) : List (List Char) :=
  bases.splitBy fun c d => c.isDigit && d.isDigit

/-- The class and the place by which a run is to be compared. -/
inductive StandsFor : List Char → Key → Prop where
  /-- Digits count as the number that they write. -/
  | number {run : List Char} (hne : run ≠ []) (hdigit : ∀ c ∈ run, c.isDigit = true) :
      StandsFor run ⟨.digit, Nat.ofDigitChars 10 run 0⟩
  /-- White space goes by code point. -/
  | whiteSpace {c : Char} (hspace : Character.isWhiteSpace c = true) :
      StandsFor [c] ⟨.whiteSpace, c.toNat⟩
  /-- Letters, and numbers that are not digits, go by the code point in lower case. -/
  | letter {c : Char} (hspace : ¬ Character.isWhiteSpace c = true) (hdigit : ¬ c.isDigit = true)
      (hletter : Character.isAlphanumeric c = true) :
      StandsFor [c] ⟨.letter, (Character.lowercase c).toNat⟩
  /-- Punctuation goes by its place in the list. -/
  | listed {c : Char} {i : Nat} (hlisted : punctuation[i]? = some c) :
      StandsFor [c] ⟨.punctuation, i⟩
  /-- Punctuation that is not listed comes behind the list, by code point. -/
  | unlisted {c : Char} (hspace : ¬ Character.isWhiteSpace c = true)
      (hletter : ¬ Character.isAlphanumeric c = true) (hunlisted : c ∉ punctuation) :
      StandsFor [c] ⟨.punctuation, punctuation.length + c.toNat⟩

/-- A run of digits stands for its number, and any other character for its sort key. -/
def token : List Char → Key
  -- no run is empty
  | [] => ⟨.digit, 0⟩
  | c :: cs => if c.isDigit then ⟨.digit, Nat.ofDigitChars 10 (c :: cs) 0⟩ else key c

/-- The tokens of a name. -/
def tokens (name : String) : List Key :=
  (runs (Character.baseText name.toList)).map token

/-! ## Runs of digits -/

theorem eq_false_of_head?_dropWhile {p : Char → Bool} {l : List Char} {c : Char}
    (h : (l.dropWhile p).head? = some c) : p c = false := by
  have hhead := List.head?_dropWhile_not p l
  rw [h] at hhead
  exact hhead

theorem runs_cons_of_isDigit {c : Char} (hc : c.isDigit = true) (cs : List Char) :
    runs (c :: cs) =
      (c :: cs).takeWhile Char.isDigit :: runs ((c :: cs).dropWhile Char.isDigit) := by
  have hne : (c :: cs).takeWhile Char.isDigit ≠ [] := by
    rw [List.takeWhile_cons_of_pos hc]
    exact List.cons_ne_nil _ _
  have hrun : runs ((c :: cs).takeWhile Char.isDigit) = [(c :: cs).takeWhile Char.isDigit] := by
    refine List.splitBy_of_isChain hne (List.Pairwise.isChain ?_)
    apply List.pairwise_of_forall_mem_list
    intro x hx y hy
    rw [List.mem_takeWhile_imp hx, List.mem_takeWhile_imp hy]
    rfl
  have hsplit : runs ((c :: cs).takeWhile Char.isDigit ++ (c :: cs).dropWhile Char.isDigit) =
      runs ((c :: cs).takeWhile Char.isDigit) ++ runs ((c :: cs).dropWhile Char.isDigit) := by
    apply List.splitBy_append
    intro x _ y hy
    -- what follows the run does not start with a digit
    rw [eq_false_of_head?_dropWhile hy, Bool.and_false]
  rw [List.takeWhile_append_dropWhile, hrun] at hsplit
  exact hsplit

theorem runs_cons_of_not_isDigit {c : Char} (hc : ¬ c.isDigit = true) (cs : List Char) :
    runs (c :: cs) = [c] :: runs cs := by
  have hsplit : runs ([c] ++ cs) = runs [c] ++ runs cs := by
    apply List.splitBy_append
    intro x hx y _
    obtain rfl : c = x := by simpa using hx
    rw [Bool.not_eq_true] at hc
    rw [hc, Bool.false_and]
  exact hsplit

/-! ## Numbers -/

theorem bounds_of_isDigit {c : Char} (hc : c.isDigit = true) :
    '0'.toNat ≤ c.toNat ∧ c.toNat < '0'.toNat + 10 := by
  obtain ⟨hle, hge⟩ := Char.isDigit_iff_toNat.1 hc
  exact ⟨hle, Nat.lt_succ_of_le hge⟩

/-- A further digit decides between numbers that are equal so far. -/
theorem compare_append_digit {c d : Char} (hc : c.isDigit = true) (hd : d.isDigit = true)
    (m n : Nat) :
    Ord.compare (10 * m + (c.toNat - '0'.toNat)) (10 * n + (d.toNat - '0'.toNat)) =
      (Ord.compare m n).then (Ord.compare c.toNat d.toNat) := by
  have hc := bounds_of_isDigit hc
  have hd := bounds_of_isDigit hd
  rcases Nat.lt_trichotomy m n with hlt | rfl | hgt
  · rw [Nat.compare_eq_lt.2 hlt, Nat.compare_eq_lt.2 (by omega)]
    rfl
  · have hlt : 10 * m + (c.toNat - '0'.toNat) < 10 * m + (d.toNat - '0'.toNat) ↔
        c.toNat < d.toNat := by omega
    have hgt : 10 * m + (d.toNat - '0'.toNat) < 10 * m + (c.toNat - '0'.toNat) ↔
        d.toNat < c.toNat := by omega
    rw [Nat.compare_eq_eq.2 rfl, Ordering.eq_then, Nat.compare_eq_ite_lt, Nat.compare_eq_ite_lt]
    simp only [hlt, hgt]
  · rw [Nat.compare_eq_gt.2 hgt, Nat.compare_eq_gt.2 (by omega)]
    rfl

/-- Of two runs of one length the digits decide, unless what stands in front of them does. -/
theorem compare_ofDigitChars {a b : List Char} (ha : ∀ c ∈ a, c.isDigit = true)
    (hb : ∀ c ∈ b, c.isDigit = true) (hlength : a.length = b.length) (m n : Nat) :
    Ord.compare (Nat.ofDigitChars 10 a m) (Nat.ofDigitChars 10 b n) =
      (Ord.compare m n).then (compareDigits a b) := by
  induction a generalizing b m n with
  | nil =>
    obtain rfl : b = [] := List.length_eq_zero_iff.1 hlength.symm
    simp [compareDigits]
  | cons c cs ih =>
    cases b with
    | nil => cases hlength
    | cons d ds =>
      rw [List.forall_mem_cons] at ha hb
      rw [Nat.ofDigitChars_cons, Nat.ofDigitChars_cons, ih ha.2 hb.2 (Nat.succ.inj hlength),
        compare_append_digit ha.1 hb.1, Ordering.then_assoc, compareDigits]

theorem ofDigitChars_lt {a : List Char} (ha : ∀ c ∈ a, c.isDigit = true) :
    Nat.ofDigitChars 10 a 0 < 10 ^ a.length := by
  induction a with
  | nil => simp
  | cons c cs ih =>
    rw [List.forall_mem_cons] at ha
    have hc := bounds_of_isDigit ha.1
    have hdigit : 10 * 0 + (c.toNat - '0'.toNat) ≤ 9 := by omega
    rw [Nat.ofDigitChars_cons, Nat.ofDigitChars_eq_ofDigitChars_zero, List.length_cons,
      Nat.pow_succ]
    have := Nat.mul_le_mul_left (10 ^ cs.length) hdigit
    have := ih ha.2
    omega

theorem pow_le_ofDigitChars {c : Char} (hc : c.isDigit = true) (hne : c ≠ '0') (cs : List Char) :
    10 ^ cs.length ≤ Nat.ofDigitChars 10 (c :: cs) 0 := by
  have hdigit : 1 ≤ 10 * 0 + (c.toNat - '0'.toNat) := by
    have hc := bounds_of_isDigit hc
    have hne : c.toNat ≠ '0'.toNat := fun h => hne (Char.toNat_inj.1 h)
    omega
  rw [Nat.ofDigitChars_cons, Nat.ofDigitChars_eq_ofDigitChars_zero]
  have := Nat.mul_le_mul_left (10 ^ cs.length) hdigit
  omega

/-- Zeros in front do not count. -/
theorem ofDigitChars_dropWhile (a : List Char) :
    Nat.ofDigitChars 10 (a.dropWhile (· == '0')) 0 = Nat.ofDigitChars 10 a 0 := by
  induction a with
  | nil => rfl
  | cons c cs ih =>
    by_cases hc : c = '0'
    · rw [List.dropWhile_cons_of_pos (by simp [hc]), ih, hc, Nat.ofDigitChars_cons]
      rfl
    · rw [List.dropWhile_cons_of_neg (by simp [hc])]

/-- Without zeros in front the longer run is the larger number. -/
theorem ofDigitChars_lt_of_length_lt {a b : List Char} (ha : ∀ c ∈ a, c.isDigit = true)
    (hb : ∀ c ∈ b, c.isDigit = true) (hhead : b.head? ≠ some '0') (hlt : a.length < b.length) :
    Nat.ofDigitChars 10 a 0 < Nat.ofDigitChars 10 b 0 := by
  cases b with
  | nil => cases hlt
  | cons d ds =>
    have hd : d ≠ '0' := by simpa using hhead
    calc Nat.ofDigitChars 10 a 0
      _ < 10 ^ a.length := ofDigitChars_lt ha
      _ ≤ 10 ^ ds.length := Nat.pow_le_pow_right (by decide) (Nat.le_of_lt_succ hlt)
      _ ≤ Nat.ofDigitChars 10 (d :: ds) 0 := pow_le_ofDigitChars (hb d List.mem_cons_self) hd ds

/-- Runs of digits compare as the numbers that they write. -/
theorem compareNumbers_eq {a b : List Char} (ha : ∀ c ∈ a, c.isDigit = true)
    (hb : ∀ c ∈ b, c.isDigit = true) :
    compareNumbers a b = Ord.compare (Nat.ofDigitChars 10 a 0) (Nat.ofDigitChars 10 b 0) := by
  have hhead : ∀ l : List Char, (l.dropWhile (· == '0')).head? ≠ some '0' := by
    intro l h
    exact absurd (eq_false_of_head?_dropWhile h) (by decide)
  rw [← ofDigitChars_dropWhile a, ← ofDigitChars_dropWhile b, compareNumbers]
  have ha' : ∀ c ∈ a.dropWhile (· == '0'), c.isDigit = true := fun c hc =>
    ha c ((List.dropWhile_suffix _).subset hc)
  have hb' : ∀ c ∈ b.dropWhile (· == '0'), c.isDigit = true := fun c hc =>
    hb c ((List.dropWhile_suffix _).subset hc)
  rcases Nat.lt_trichotomy (a.dropWhile (· == '0')).length (b.dropWhile (· == '0')).length with
    hlt | heq | hgt
  · rw [Nat.compare_eq_lt.2 hlt,
      Nat.compare_eq_lt.2 (ofDigitChars_lt_of_length_lt ha' hb' (hhead b) hlt)]
    rfl
  · rw [compare_ofDigitChars ha' hb' heq, Nat.compare_eq_eq.2 heq, Nat.compare_eq_eq.2 rfl]
  · rw [Nat.compare_eq_gt.2 hgt,
      Nat.compare_eq_gt.2 (ofDigitChars_lt_of_length_lt hb' ha' (hhead a) hgt)]
    rfl

/-! ## Tokens -/

/-- Only digits are in the class of digits. -/
theorem rank_key_eq_iff (c : Char) :
    (key c).charClass.rank = CharClass.digit.rank ↔ c.isDigit = true := by
  unfold key
  split
  · next hspace =>
    -- a digit is no white space
    refine iff_of_false (by simp [CharClass.rank]) fun hdigit => ?_
    have hdigit := Char.isDigit_iff_toNat.1 hdigit
    change 48 ≤ c.toNat ∧ c.toNat ≤ 57 at hdigit
    rw [Character.isWhiteSpace, if_pos (by omega)] at hspace
    simp only [Bool.or_eq_true, beq_iff_eq, Bool.and_eq_true, decide_eq_true_eq] at hspace
    omega
  · split
    · next hdigit => simp [hdigit]
    · next hdigit => split <;> simp [CharClass.rank, hdigit]

theorem rank_token (c : Char) (cs : List Char) :
    (token (c :: cs)).charClass.rank = (key c).charClass.rank := by
  rw [token]
  split
  · next hc => rw [(rank_key_eq_iff c).2 hc]
  · rfl

/-- The first token of a text is of the class of its first character. -/
theorem exists_runs_cons (c : Char) (cs : List Char) :
    ∃ first rest, (runs (c :: cs)).map token = first :: rest ∧
      first.charClass.rank = (key c).charClass.rank := by
  by_cases hc : c.isDigit = true
  · rw [runs_cons_of_isDigit hc, List.takeWhile_cons_of_pos hc]
    exact ⟨_, _, List.map_cons, rank_token c _⟩
  · rw [runs_cons_of_not_isDigit hc]
    exact ⟨_, _, List.map_cons, rank_token c []⟩

/-- Tokens of different classes compare by their classes. -/
theorem Key.compare_of_rank_ne {k l k' l' : Key} (hk : k.charClass.rank = k'.charClass.rank)
    (hl : l.charClass.rank = l'.charClass.rank) (hne : k.charClass.rank ≠ l.charClass.rank)
    (o p : Ordering) : (k.compare l).then o = (k'.compare l').then p := by
  rw [compare, compare, ← hk, ← hl]
  rcases Nat.lt_or_gt_of_ne hne with hlt | hgt
  · simp [Nat.compare_eq_lt.2 hlt]
  · simp [Nat.compare_eq_gt.2 hgt]

theorem compare_token_of_isDigit {c d : Char} {cs ds : List Char}
    (ha : ∀ x ∈ c :: cs, x.isDigit = true) (hb : ∀ x ∈ d :: ds, x.isDigit = true) :
    (token (c :: cs)).compare (token (d :: ds)) = compareNumbers (c :: cs) (d :: ds) := by
  rw [compareNumbers_eq ha hb, token, if_pos (ha c List.mem_cons_self), token,
    if_pos (hb d List.mem_cons_self), Key.compare, Nat.compare_eq_eq.2 rfl, Ordering.eq_then]

/-- A walk through two names compares their tokens. -/
theorem compareBasesIn_eq {fuel : Nat} {a : List Char} (h : a.length < fuel) (b : List Char) :
    compareBasesIn fuel a b =
      List.compareLex Key.compare ((runs a).map token) ((runs b).map token) := by
  fun_induction compareBasesIn fuel a b with
  | case1 => cases h
  | case2 => rfl
  | case3 fuel d ds =>
    obtain ⟨first, rest, hb, -⟩ := exists_runs_cons d ds
    rw [hb]
    rfl
  | case4 fuel c cs =>
    obtain ⟨first, rest, ha, -⟩ := exists_runs_cons c cs
    rw [ha]
    rfl
  | case5 fuel c cs d ds hdigits ih =>
    rw [Bool.and_eq_true] at hdigits
    have hlength : ((c :: cs).dropWhile Char.isDigit).length < fuel := by
      rw [List.dropWhile_cons_of_pos hdigits.1]
      have := (List.dropWhile_suffix Char.isDigit (l := cs)).length_le
      rw [List.length_cons] at h
      omega
    have hall : ∀ l : List Char, ∀ x ∈ l.takeWhile Char.isDigit, x.isDigit = true :=
      fun l x hx => List.mem_takeWhile_imp hx
    have ha := hall (c :: cs)
    have hb := hall (d :: ds)
    rw [runs_cons_of_isDigit hdigits.1, runs_cons_of_isDigit hdigits.2, List.map_cons,
      List.map_cons, List.compareLex_cons_cons, ih hlength]
    rw [List.takeWhile_cons_of_pos hdigits.1] at ha ⊢
    rw [List.takeWhile_cons_of_pos hdigits.2] at hb ⊢
    rw [compare_token_of_isDigit ha hb]
  | case6 fuel c cs d ds hdigits ih =>
    rw [Bool.and_eq_true] at hdigits
    rw [List.length_cons] at h
    by_cases hrank : (key c).charClass.rank = (key d).charClass.rank
    · have hc : ¬ c.isDigit = true := fun hc => hdigits ⟨hc, by
        rwa [← rank_key_eq_iff, ← hrank, rank_key_eq_iff]⟩
      have hd : ¬ d.isDigit = true := fun hd => hdigits ⟨by
        rwa [← rank_key_eq_iff, hrank, rank_key_eq_iff], hd⟩
      rw [runs_cons_of_not_isDigit hc, runs_cons_of_not_isDigit hd, List.map_cons, List.map_cons,
        List.compareLex_cons_cons, ih (by omega), token, if_neg hc, token, if_neg hd]
    · -- one of the two may be a digit, whose run is compared with a single character
      obtain ⟨first, rest, ha, hfirst⟩ := exists_runs_cons c cs
      obtain ⟨first', rest', hb, hfirst'⟩ := exists_runs_cons d ds
      rw [ha, hb, List.compareLex_cons_cons]
      exact Key.compare_of_rank_ne hfirst.symm hfirst'.symm hrank _ _

/-- A character that is no digit stands for its sort key. -/
theorem standsFor_key {c : Char} (hc : ¬ c.isDigit = true) : StandsFor [c] (key c) := by
  unfold key
  split
  · next hspace => exact .whiteSpace hspace
  · next hspace =>
    split
    · next hletter => exact .letter hspace hc hletter
    · next hletter =>
      unfold punctuationPlace
      split
      · next i hi =>
        obtain ⟨hlt, heq, -⟩ := List.idxOf?_eq_some_iff.1 hi
        exact .listed (List.getElem?_eq_some_iff.2 ⟨hlt, heq⟩)
      · next hnone => exact .unlisted hspace hletter (List.idxOf?_eq_none_iff.1 hnone)

/-- A run that starts with a digit has only digits, and any other run is a single character. -/
theorem digits_or_single_of_isChain {c : Char} {cs : List Char}
    (h : (c :: cs).IsChain fun c d => c.isDigit && d.isDigit) :
    (∀ x ∈ c :: cs, x.isDigit = true) ∨ (¬ c.isDigit = true ∧ cs = []) := by
  induction cs generalizing c with
  | nil => by_cases hc : c.isDigit = true <;> simp [hc]
  | cons d ds ih =>
    rw [List.isChain_cons_cons, Bool.and_eq_true] at h
    obtain ⟨⟨hc, hd⟩, hrest⟩ := h
    rcases ih hrest with hall | ⟨hnot, -⟩
    · exact .inl (List.forall_mem_cons.2 ⟨hc, hall⟩)
    · exact absurd hd hnot

/-- Every run of a text stands for its token. -/
theorem standsFor_token {bases run : List Char} (h : run ∈ runs bases) :
    StandsFor run (token run) := by
  have hne := List.ne_nil_of_mem_splitBy h
  have hchain := List.isChain_of_mem_splitBy h
  cases run with
  | nil => exact absurd rfl hne
  | cons c cs =>
    rcases digits_or_single_of_isChain hchain with hall | ⟨hc, rfl⟩
    · rw [token, if_pos (hall c List.mem_cons_self)]
      exact .number hne hall
    · rw [token, if_neg hc]
      exact standsFor_key hc

/-! ## The order of names -/

theorem rank_injective {c d : CharClass} (h : c.rank = d.rank) : c = d := by
  revert h
  cases c <;> cases d <;> decide

instance : Std.TransCmp Key.compare :=
  inferInstanceAs (Std.TransCmp (compareLex (compareOn fun k : Key => k.charClass.rank)
    (compareOn Key.place)))

instance : Std.LawfulEqCmp Key.compare where
  compare_self := Std.ReflCmp.compare_self
  eq_of_compare {k l} h := by
    rw [Key.compare, Ordering.then_eq_eq, Nat.compare_eq_eq, Nat.compare_eq_eq] at h
    obtain ⟨c, m⟩ := k
    obtain ⟨d, n⟩ := l
    rw [Key.mk.injEq]
    exact ⟨rank_injective h.1, h.2⟩

theorem natural_eq (a b : String) :
    natural a b = List.compareLex Key.compare (tokens a) (tokens b) :=
  compareBasesIn_eq (Nat.lt_succ_self _) _

/-- The natural order is transitive and total. -/
instance : Std.TransCmp natural where
  eq_swap {a b} := by
    rw [natural_eq, natural_eq]
    exact Std.OrientedCmp.eq_swap
  isLE_trans {a b c} hab hbc := by
    rw [natural_eq] at hab hbc ⊢
    exact Std.TransCmp.isLE_trans hab hbc

example : tokens "É-007a" =
    [⟨.letter, 'e'.toNat⟩, ⟨.punctuation, 1⟩, ⟨.digit, 7⟩, ⟨.letter, 'a'.toNat⟩] := by
  decide +kernel

end ImportOrder.Collation
