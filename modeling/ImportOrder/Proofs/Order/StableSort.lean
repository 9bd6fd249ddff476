import Mathlib.Data.List.Sort

/-!
# Sorting by moves to the front

A stable sort of a list is determined by what the list holds of each class of equal elements, in
order. A move of an element to the front over elements that are all larger leaves every class as it
is, so it changes neither the stable sort nor the order of equal elements, and it does away with the
pairs that it turns around.

## Main definitions

- `StableOrdering`: a list in order with equal elements as they stood
- `Hoist`: the move of an element over elements in front of it
- `inversions`: the number of pairs in descending order

## Main statements

- `mergeSort_congr_of_filter`: lists with the same classes have the same stable sort
- `stableOrdering_iff`: sorting gives the one stable ordering
- `mergeSort_append`: the stable sort of two lists is the stable merge of their stable sorts
- `Hoist.mergeSort_eq`: a move over larger elements does not change the stable sort
- `inversions_hoist`: a move over larger elements does away with pairs in descending order
-/

namespace ImportOrder

variable {α : Type} {le : α → α → Bool}

/-- Are two elements equal in an order? -/
def alike (le : α → α → Bool) (a b : α) : Bool := le a b && le b a

/-- A rearrangement of a list that is in order and leaves equal elements as they stand. -/
structure StableOrdering (le : α → α → Bool) (l m : List α) : Prop where
  perm : m.Perm l
  sorted : m.Pairwise fun x y => le x y
  stable : ∀ a, m.filter (alike le a) = l.filter (alike le a)

/-- The number of pairs of a list that are in descending order. -/
def inversions (le : α → α → Bool) : List α → Nat
  | [] => 0
  | x :: l => l.countP (fun y => !le x y) + inversions le l

/-- An element moves to the front over elements that stand above it in some sense. -/
inductive Hoist (above : α → α → Prop) : List α → List α → Prop where
  /-- The element `x` moves over the elements of `B`. -/
  | hoist (A B D : List α) (x : α) (h : ∀ y ∈ B, above y x) :
      Hoist above (A ++ B ++ [x] ++ D) (A ++ [x] ++ B ++ D)

section Sorted

variable (trans : ∀ a b c, le a b → le b c → le a c) (total : ∀ a b, le a b || le b a)

include total in
theorem le_refl_of_total (a : α) : le a a := by
  simpa using total a a

include trans in
/-- Two elements of a class are in either order. -/
theorem pairwise_filter_alike (a : α) (l : List α) :
    (l.filter (alike le a)).Pairwise fun x y => le x y := by
  apply List.pairwise_of_forall_mem_list
  intro x hx y hy
  have hxa := (List.mem_filter.1 hx).2
  have hay := (List.mem_filter.1 hy).2
  simp only [alike, Bool.and_eq_true] at hxa hay
  exact trans x a y hxa.2 hay.1

include trans total in
theorem filter_alike_mergeSort (a : α) (l : List α) :
    (l.mergeSort le).filter (alike le a) = l.filter (alike le a) := by
  have hsub : (l.filter (alike le a)).Sublist (l.mergeSort le) :=
    List.sublist_mergeSort trans total (pairwise_filter_alike trans a l) List.filter_sublist
  have hsub' := hsub.filter (alike le a)
  rw [List.filter_filter] at hsub'
  simp only [Bool.and_self] at hsub'
  exact (hsub'.eq_of_length ((List.mergeSort_perm l le).filter _).length_eq.symm).symm

include total in
/-- Sorted lists with the same classes are equal. -/
theorem eq_of_filter_alike {l m : List α} (hl : l.Pairwise fun x y => le x y)
    (hm : m.Pairwise fun x y => le x y)
    (h : ∀ a, l.filter (alike le a) = m.filter (alike le a)) : l = m := by
  have mem_of : ∀ {l m : List α}, (∀ a, l.filter (alike le a) = m.filter (alike le a)) →
      ∀ a ∈ l, a ∈ m := by
    intro l m h a ha
    have halike : alike le a a := by simp [alike, le_refl_of_total total a]
    exact List.mem_of_mem_filter (h a ▸ List.mem_filter.2 ⟨ha, halike⟩)
  induction l generalizing m with
  | nil =>
    cases m with
    | nil => rfl
    | cons b m => exact absurd (mem_of (fun a => (h a).symm) b List.mem_cons_self) List.not_mem_nil
  | cons a l ih =>
    cases m with
    | nil => exact absurd (mem_of h a List.mem_cons_self) List.not_mem_nil
    | cons b m =>
      -- the first elements are both smallest, so they are of one class and the first of it
      rw [List.pairwise_cons] at hl hm
      have hab : le a b := by
        rcases List.mem_cons.1 (mem_of (fun a => (h a).symm) b List.mem_cons_self) with rfl | hb
        · exact le_refl_of_total total b
        · exact hl.1 b hb
      have hba : le b a := by
        rcases List.mem_cons.1 (mem_of h a List.mem_cons_self) with rfl | ha
        · exact le_refl_of_total total a
        · exact hm.1 a ha
      obtain rfl : a = b := by
        have hfirst := h a
        rw [List.filter_cons_of_pos (by simp [alike, le_refl_of_total total a]),
          List.filter_cons_of_pos (by simp [alike, hab, hba])] at hfirst
        exact (List.cons.inj hfirst).1
      rw [ih hl.2 hm.2 fun c => ?_]
      have hc := h c
      simp only [List.filter_cons] at hc
      split at hc
      · exact (List.cons.inj hc).2
      · exact hc

include trans total in
/-- Lists with the same classes have the same stable sort. -/
theorem mergeSort_congr_of_filter {l m : List α}
    (h : ∀ a, l.filter (alike le a) = m.filter (alike le a)) : l.mergeSort le = m.mergeSort le :=
  eq_of_filter_alike total (List.pairwise_mergeSort trans total l)
    (List.pairwise_mergeSort trans total m) fun a => by
      rw [filter_alike_mergeSort trans total, filter_alike_mergeSort trans total, h a]

include trans total in
/-- Sorting gives the one stable ordering of a list. -/
theorem stableOrdering_iff {l m : List α} : StableOrdering le l m ↔ m = l.mergeSort le := by
  constructor
  · intro h
    apply eq_of_filter_alike total h.sorted (List.pairwise_mergeSort trans total l)
    intro a
    rw [h.stable, filter_alike_mergeSort trans total]
  · rintro rfl
    exact ⟨List.mergeSort_perm l le, List.pairwise_mergeSort trans total l,
      fun a => filter_alike_mergeSort trans total a l⟩

include trans in
/-- A stable merge has of each class what the first list has of it and then what the second has. -/
theorem filter_alike_merge (a : α) {l : List α} (hl : l.Pairwise fun x y => le x y) (m : List α) :
    (l.merge m le).filter (alike le a) = l.filter (alike le a) ++ m.filter (alike le a) := by
  induction l generalizing m with
  | nil => simp
  | cons x l ih =>
    obtain ⟨hx, hsorted⟩ := List.pairwise_cons.1 hl
    induction m with
    | nil => simp
    | cons y m ihm =>
      rw [List.cons_merge_cons]
      by_cases hxy : le x y = true
      · rw [if_pos hxy]
        by_cases hax : alike le a x = true
        · rw [List.filter_cons_of_pos hax, ih hsorted, List.filter_cons_of_pos hax]
          rfl
        · rw [List.filter_cons_of_neg hax, ih hsorted, List.filter_cons_of_neg hax]
      · rw [if_neg hxy]
        by_cases hy : alike le a y = true
        · -- all of the first list is larger than `y`
          have hnone : (x :: l).filter (alike le a) = [] := by
            apply List.filter_eq_nil_iff.2
            intro z hz halike
            simp only [alike, Bool.and_eq_true] at hy halike
            have hzy := trans z a y halike.2 hy.1
            rcases List.mem_cons.1 hz with rfl | hz
            · exact hxy hzy
            · exact hxy (trans x z y (hx z hz) hzy)
          rw [List.filter_cons_of_pos hy, ihm, hnone, List.filter_cons_of_pos hy]
          rfl
        · rw [List.filter_cons_of_neg hy, ihm, List.filter_cons_of_neg hy]

include trans total in
/-- The stable sort of two lists is the stable merge of their stable sorts. -/
theorem mergeSort_append (l m : List α) :
    (l ++ m).mergeSort le = (l.mergeSort le).merge (m.mergeSort le) le := by
  have hl := List.pairwise_mergeSort trans total l
  have hm := List.pairwise_mergeSort trans total m
  apply eq_of_filter_alike total (List.pairwise_mergeSort trans total (l ++ m))
    (List.pairwise_merge trans total _ _ hl hm)
  intro a
  rw [filter_alike_mergeSort trans total, filter_alike_merge trans a hl,
    filter_alike_mergeSort trans total, filter_alike_mergeSort trans total, List.filter_append]

end Sorted

namespace Hoist

variable {above : α → α → Prop} {l m : List α}

theorem perm (h : Hoist above l m) : l.Perm m := by
  obtain ⟨A, B, D, x, -⟩ := h
  refine List.Perm.append_right D ?_
  rw [List.append_assoc, List.append_assoc]
  exact List.Perm.append_left A List.perm_append_comm

theorem imp {above' : α → α → Prop} (h : Hoist above l m)
    (himp : ∀ x y, above y x → above' y x) : Hoist above' l m := by
  obtain ⟨A, B, D, x, hB⟩ := h
  exact .hoist A B D x fun y hy => himp x y (hB y hy)

/-- What does not tell the moved element from those above it is found in the same order. -/
theorem map_eq {β : Type} {f : α → β} (h : Hoist above l m) (hf : ∀ x y, above y x → f y = f x) :
    l.map f = m.map f := by
  obtain ⟨A, B, D, x, hB⟩ := h
  have hsame : B.map f = List.replicate B.length (f x) :=
    List.eq_replicate_iff.2 ⟨by simp, fun c hc => by
      obtain ⟨y, hy, rfl⟩ := List.mem_map.1 hc
      exact hf x y (hB y hy)⟩
  have hswap : B.map f ++ [f x] = f x :: B.map f := by
    rw [hsame, ← List.replicate_succ', List.replicate_succ]
  simp only [List.map_append, List.map_cons, List.map_nil, List.append_assoc]
  rw [← List.append_assoc (B.map f), hswap, List.cons_append, List.singleton_append]

/-- What holds of the moved element and of nothing above it, or not of the moved element, is found
in the same order. -/
theorem filter_eq {p : α → Bool} (h : Hoist above l m)
    (hp : ∀ x y, above y x → p x = true → p y = false) : l.filter p = m.filter p := by
  obtain ⟨A, B, D, x, hB⟩ := h
  simp only [List.filter_append, List.filter_singleton]
  by_cases hx : p x = true
  · have hnil : B.filter p = [] :=
      List.filter_eq_nil_iff.2 fun y hy => by simp [hp x y (hB y hy) hx]
    rw [hnil]
    simp
  · simp [hx]

/-- Of some of the elements a move leaves a move, unless the moved element is not among them. -/
theorem filter (h : Hoist above l m) (p : α → Bool) :
    l.filter p = m.filter p ∨
      Hoist (fun y x => above y x ∧ p y ∧ p x) (l.filter p) (m.filter p) := by
  obtain ⟨A, B, D, x, hB⟩ := h
  simp only [List.filter_append, List.filter_singleton]
  by_cases hx : p x = true
  · right
    simp only [hx, cond_true]
    refine .hoist _ _ _ _ fun y hy => ?_
    rw [List.mem_filter] at hy
    exact ⟨hB y hy.1, hy.2, hx⟩
  · left
    simp [hx]

/-- A move over larger elements does not change the stable sort. -/
theorem mergeSort_eq (trans : ∀ a b c, le a b → le b c → le a c)
    (total : ∀ a b, le a b || le b a) (h : Hoist above l m)
    (habove : ∀ x y, above y x → le y x = false) : l.mergeSort le = m.mergeSort le := by
  refine mergeSort_congr_of_filter trans total fun a => h.filter_eq fun x y hyx hx => ?_
  -- an element of the class of `x` is not larger than `x`
  apply Bool.eq_false_iff.2
  intro hy
  simp only [alike, Bool.and_eq_true] at hx hy
  have := trans y a x hy.2 hx.1
  rw [habove x y hyx] at this
  exact Bool.false_ne_true this

end Hoist

theorem inversions_cons (x : α) (l : List α) :
    inversions le (x :: l) = l.countP (fun y => !le x y) + inversions le l := rfl

/-- What stands in front has as many pairs with either of two rearrangements of what follows. -/
theorem inversions_append_left {l m : List α} (hperm : l.Perm m) {k : Nat}
    (h : inversions le l = inversions le m + k) (A : List α) :
    inversions le (A ++ l) = inversions le (A ++ m) + k := by
  induction A with
  | nil => exact h
  | cons a A ih =>
    have hcount := (hperm.append_left A).countP_eq fun y => !le a y
    simp only [List.cons_append, inversions_cons]
    omega

/-- A move over larger elements turns around as many pairs as there are such elements. -/
theorem inversions_hoist {A B D : List α} {x : α} (hB : ∀ y ∈ B, le y x = false ∧ le x y = true) :
    inversions le (A ++ B ++ [x] ++ D) = inversions le (A ++ [x] ++ B ++ D) + B.length := by
  have hperm : (B ++ [x] ++ D).Perm ([x] ++ B ++ D) :=
    List.Perm.append_right D List.perm_append_comm
  have hmove : inversions le (B ++ [x] ++ D) = inversions le ([x] ++ B ++ D) + B.length := by
    clear hperm
    induction B with
    | nil => simp
    | cons b B ih =>
      have ih := ih fun y hy => hB y (List.mem_cons_of_mem b hy)
      obtain ⟨hbx, hxb⟩ := hB b List.mem_cons_self
      simp only [List.cons_append, List.nil_append, inversions_cons, List.countP_append,
        List.countP_cons, hbx, hxb, List.length_cons] at ih ⊢
      simp only [List.countP_nil, Bool.not_false, Bool.not_true, Bool.false_eq_true, if_true,
        if_false]
      omega
  have hwhole := inversions_append_left hperm hmove A
  simp only [List.append_assoc] at hwhole ⊢
  exact hwhole

end ImportOrder
