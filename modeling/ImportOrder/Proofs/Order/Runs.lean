import ImportOrder.Proofs.Order.StableSort
import Mathlib.Data.List.SplitBy

/-!
# Sorting the runs of a list

A list falls into the maximal runs of neighbours with one key. The moves of an element to the front
that stay inside a run rearrange that run and leave all others as they are. How far a run is from
its stable sort is measured by the elements behind the part where the two agree: no move over larger
elements makes it larger, and a move that puts the right element behind that part makes it smaller.

## Main definitions

- `runsBy`: the maximal runs of neighbours with one key
- `agreeing`: the length of the part at the front on which two lists agree
- `unsettled`: the number of moves that the sort of a list may still take

## Main statements

- `runsBy_rearrange`: a run is rearranged without effect on the others
- `Hoist.exists_run`: a move inside a run
- `unsettled_le_of_hoist`, `unsettled_lt_of_hoist`
-/

namespace ImportOrder

variable {α β κ : Type} [DecidableEq κ] {key : α → κ}

/-- The maximal runs of neighbours with one key. -/
def runsBy (key : α → κ) (l : List α) : List (List α) :=
  l.splitBy fun x y => key x = key y

@[simp]
theorem flatten_runsBy (key : α → κ) (l : List α) : (runsBy key l).flatten = l :=
  List.flatten_splitBy _ l

/-- All elements of a run have the key of one of them. -/
theorem key_eq_of_mem_runsBy {l M : List α} (h : M ∈ runsBy key l) {x y : α} (hx : x ∈ M)
    (hy : y ∈ M) : key x = key y := by
  have hchain : M.IsChain fun x y => key x = key y := by
    simpa using List.isChain_of_mem_splitBy h
  have htrans : IsTrans α fun x y => key x = key y := ⟨fun _ _ _ => Eq.trans⟩
  have hsymm : Std.Symm fun x y : α => key x = key y := ⟨fun _ _ => Eq.symm⟩
  by_cases hxy : x = y
  · rw [hxy]
  · exact (List.isChain_iff_pairwise.1 hchain).forall hx hy hxy

/-- A block of one key between elements of other keys is a run. -/
theorem runsBy_block {A M D : List α} {c : κ} (hne : M ≠ []) (hM : ∀ x ∈ M, key x = c)
    (hA : ∀ x ∈ A.getLast?, key x ≠ c) (hD : ∀ x ∈ D.head?, key x ≠ c) :
    runsBy key (A ++ M ++ D) = runsBy key A ++ M :: runsBy key D := by
  have hself : runsBy key M = [M] := by
    refine List.splitBy_of_isChain hne (List.Pairwise.isChain ?_)
    exact List.pairwise_of_forall_mem_list fun x hx y hy => by simp [hM x hx, hM y hy]
  have hback : runsBy key (M ++ D) = runsBy key M ++ runsBy key D := by
    apply List.splitBy_append
    intro x hx y hy
    rw [decide_eq_false_iff_not, hM x (List.mem_of_mem_getLast? hx)]
    exact (hD y hy).symm
  have hfront : runsBy key (A ++ (M ++ D)) = runsBy key A ++ runsBy key (M ++ D) := by
    apply List.splitBy_append
    intro x hx y hy
    rw [List.head?_append_of_ne_nil _ hne] at hy
    rw [decide_eq_false_iff_not, hM y (List.mem_of_mem_head? hy)]
    exact hA x hx
  rw [List.append_assoc, hfront, hback, hself, List.singleton_append]

theorem runsBy_map (key : α → κ) (f : β → α) (l : List β) :
    runsBy key (l.map f) = (runsBy (fun x => key (f x)) l).map (·.map f) := by
  refine List.splitBy_eq_iff.2 ⟨?_, ?_, ?_, ?_⟩
  · rw [← List.map_flatten, flatten_runsBy]
  · simp only [List.mem_map, List.map_eq_nil_iff, exists_eq_right]
    exact List.nil_notMem_splitBy _ l
  · intro m hm
    obtain ⟨g, hg, rfl⟩ := List.mem_map.1 hm
    exact List.isChain_map_of_isChain f (fun _ _ h => h) (List.isChain_of_mem_splitBy hg)
  · refine List.isChain_map_of_isChain (·.map f) (fun a b h => ?_)
      (List.isChain_getLast_head_splitBy _ l)
    obtain ⟨ha, hb, h⟩ := h
    exact ⟨by simpa using ha, by simpa using hb, by simpa using h⟩

/-- The elements next to a run have other keys. -/
theorem runsBy_borders {l : List α} {pre post : List (List α)} {M : List α}
    (h : runsBy key l = pre ++ M :: post) {m : α} (hm : m ∈ M) :
    (∀ x ∈ pre.flatten.getLast?, key x ≠ key m) ∧ ∀ x ∈ post.flatten.head?, key x ≠ key m := by
  have hmem : M ∈ runsBy key l := by simp [h]
  have hnil : ∀ g ∈ runsBy key l, g ≠ [] := fun g hg => List.ne_nil_of_mem_splitBy hg
  have hchain := List.isChain_getLast_head_splitBy (fun x y => key x = key y) l
  change (runsBy key l).IsChain _ at hchain
  rw [h, List.isChain_append, List.isChain_cons] at hchain
  refine ⟨fun x hx => ?_, fun x hx => ?_⟩
  · cases hlast : pre.getLast? with
    | none => simp [List.getLast?_eq_none_iff.1 hlast] at hx
    | some g =>
      obtain ⟨front, rfl⟩ := List.getLast?_eq_some_iff.1 hlast
      obtain ⟨hg, hM, hdiff⟩ := hchain.2.2 g hlast M rfl
      rw [List.flatten_append, List.flatten_singleton, List.getLast?_append_of_ne_nil _ hg,
        List.getLast?_eq_some_getLast hg, Option.mem_some_iff] at hx
      rw [← hx, key_eq_of_mem_runsBy hmem hm (List.head_mem hM)]
      simpa using hdiff
  · cases post with
    | nil => simp at hx
    | cons g post =>
      obtain ⟨hM, hg, hdiff⟩ := hchain.2.1.1 g rfl
      rw [List.flatten_cons, List.head?_append_of_ne_nil _ hg, List.head?_eq_some_head hg,
        Option.mem_some_iff] at hx
      rw [← hx, key_eq_of_mem_runsBy hmem hm (List.getLast_mem hM)]
      simpa using Ne.symm (by simpa using hdiff)

/-- The runs in front of a run are the runs of what stands there, and so are those behind it. -/
theorem runsBy_flatten_of_eq {l : List α} {pre post : List (List α)} {M : List α}
    (h : runsBy key l = pre ++ M :: post) :
    runsBy key pre.flatten = pre ∧ runsBy key post.flatten = post := by
  have hnil := List.nil_notMem_splitBy (fun x y => decide (key x = key y)) l
  have hruns : ∀ g ∈ runsBy key l, g.IsChain fun x y => decide (key x = key y) = true :=
    fun g hg => List.isChain_of_mem_splitBy hg
  have hchain := List.isChain_getLast_head_splitBy (fun x y => key x = key y) l
  change [] ∉ runsBy key l at hnil
  change (runsBy key l).IsChain _ at hchain
  rw [h] at hnil hruns hchain
  rw [List.isChain_append, List.isChain_cons] at hchain
  simp only [List.mem_append, List.mem_cons, not_or] at hnil
  exact ⟨List.splitBy_flatten hnil.1 (fun g hg => hruns g (by simp [hg])) hchain.1,
    List.splitBy_flatten hnil.2.2 (fun g hg => hruns g (by simp [hg])) hchain.2.1.2⟩

/-- A run can be rearranged without effect on the others. -/
theorem runsBy_rearrange (key : α → κ) {l : List α} {pre post : List (List α)} {M M' : List α}
    (h : runsBy key l = pre ++ M :: post) (hperm : M'.Perm M) :
    runsBy key (pre.flatten ++ M' ++ post.flatten) = pre ++ M' :: post := by
  have hmem : M ∈ runsBy key l := by simp [h]
  obtain ⟨m, hm⟩ := List.exists_mem_of_ne_nil M (List.ne_nil_of_mem_splitBy hmem)
  obtain ⟨hfront, hback⟩ := runsBy_borders h hm
  obtain ⟨hpre, hpost⟩ := runsBy_flatten_of_eq h
  rw [runsBy_block (c := key m) (List.ne_nil_of_mem (hperm.mem_iff.2 hm))
    (fun x hx => key_eq_of_mem_runsBy hmem (hperm.mem_iff.1 hx) hm) hfront hback, hpre, hpost]

/-- A list ends with a block of one key. -/
theorem exists_block_end (key : α → κ) (A : List α) (c : κ) :
    ∃ A' U, A = A' ++ U ∧ (∀ x ∈ U, key x = c) ∧ ∀ x ∈ A'.getLast?, key x ≠ c := by
  induction A using List.reverseRecOn with
  | nil => exact ⟨[], [], by simp⟩
  | append_singleton A a ih =>
    by_cases ha : key a = c
    · obtain ⟨A', U, rfl, hU, hA'⟩ := ih
      refine ⟨A', U ++ [a], by simp, fun x hx => ?_, hA'⟩
      rcases List.mem_append.1 hx with hx | hx
      · exact hU x hx
      · rw [List.mem_singleton.1 hx, ha]
    · exact ⟨A ++ [a], [], by simp [ha]⟩

theorem exists_block_start (key : α → κ) (D : List α) (c : κ) :
    ∃ W D', D = W ++ D' ∧ (∀ x ∈ W, key x = c) ∧ ∀ x ∈ D'.head?, key x ≠ c := by
  induction D with
  | nil => exact ⟨[], [], by simp⟩
  | cons d D ih =>
    by_cases hd : key d = c
    · obtain ⟨W, D', rfl, hW, hD'⟩ := ih
      refine ⟨d :: W, D', by simp, fun x hx => ?_, hD'⟩
      rcases List.mem_cons.1 hx with rfl | hx
      · exact hd
      · exact hW x hx
    · exact ⟨[], d :: D, by simp [hd]⟩

/-- A move over elements with the key of the moved one rearranges one run. -/
theorem Hoist.exists_run {above : α → α → Prop} {l m : List α} (h : Hoist above l m)
    (key : α → κ) (hkey : ∀ x y, above y x → key y = key x) :
    ∃ pre M M' post, runsBy key l = pre ++ M :: post ∧ runsBy key m = pre ++ M' :: post ∧
      Hoist above M M' := by
  obtain ⟨A, B, D, x, hB⟩ := h
  obtain ⟨A', U, rfl, hU, hA'⟩ := exists_block_end key A (key x)
  obtain ⟨W, D', rfl, hW, hD'⟩ := exists_block_start key D (key x)
  refine ⟨runsBy key A', U ++ B ++ [x] ++ W, U ++ [x] ++ B ++ W, runsBy key D', ?_, ?_,
    .hoist U B W x hB⟩
  · rw [← runsBy_block (c := key x) (by simp) _ hA' hD']
    · simp
    · simp only [List.mem_append, List.mem_singleton]
      rintro y (((hy | hy) | rfl) | hy)
      exacts [hU y hy, hkey x y (hB y hy), rfl, hW y hy]
  · rw [← runsBy_block (c := key x) (by simp) _ hA' hD']
    · simp
    · simp only [List.mem_append, List.mem_singleton]
      rintro y (((hy | rfl) | hy) | hy)
      exacts [hU y hy, rfl, hkey x y (hB y hy), hW y hy]

/-! ## How far a list is from its sort -/

section Settled

variable [DecidableEq α] {le : α → α → Bool}

/-- The length of the part at the front on which two lists agree. -/
def agreeing : List α → List α → Nat
  | x :: l, y :: m => if x = y then agreeing l m + 1 else 0
  | _, _ => 0

/-- The number of moves that the sort of a list may still take: the elements behind the part on
which the list agrees with its sort, less one. -/
def unsettled (le : α → α → Bool) (l : List α) : Nat :=
  l.length - 1 - agreeing l (l.mergeSort le)

theorem agreeing_append (A u v : List α) :
    agreeing (A ++ u) (A ++ v) = A.length + agreeing u v := by
  induction A with
  | nil => simp
  | cons a A ih =>
    simp only [List.cons_append, agreeing, if_true, ih, List.length_cons]
    omega

/-- Two lists agree in all of `A`, or it does not matter what comes behind `A`. -/
theorem agreeing_cases (A m : List α) :
    (∃ v, m = A ++ v) ∨ ∀ u u', agreeing (A ++ u) m = agreeing (A ++ u') m := by
  induction A generalizing m with
  | nil => exact .inl ⟨m, rfl⟩
  | cons a A ih =>
    cases m with
    | nil => exact .inr fun u u' => rfl
    | cons b m =>
      by_cases hab : a = b
      · subst hab
        rcases ih m with ⟨v, rfl⟩ | h
        · exact .inl ⟨v, rfl⟩
        · exact .inr fun u u' => by simp only [List.cons_append, agreeing, if_true, h u u']
      · exact .inr fun u u' => by simp only [List.cons_append, agreeing, if_neg hab]

variable (trans : ∀ a b c, le a b → le b c → le a c) (total : ∀ a b, le a b || le b a)

omit [DecidableEq α] in
include trans total in
/-- A sorted list does not agree with one in which a larger element stands before a smaller one. -/
theorem mergeSort_ne_append {A B D v : List α} {b x : α} (hb : le b x = false) :
    (A ++ b :: B ++ [x] ++ D).mergeSort le ≠ A ++ b :: v := by
  intro heq
  have hsorted := List.pairwise_mergeSort trans total (A ++ b :: B ++ [x] ++ D)
  have hperm := List.mergeSort_perm (A ++ b :: B ++ [x] ++ D) le
  rw [heq, List.append_assoc, List.append_assoc, List.perm_append_left_iff] at hperm
  rw [heq, List.pairwise_append, List.pairwise_cons] at hsorted
  have hx : x ∈ v := by
    have := (List.perm_cons b).1 hperm
    exact this.mem_iff.2 (by simp)
  rw [hsorted.2.1.1 x hx] at hb
  exact Bool.false_ne_true hb.symm

include trans total in
/-- A move over larger elements takes a list no further from its sort. -/
theorem unsettled_le_of_hoist {above : α → α → Prop} {l m : List α} (h : Hoist above l m)
    (habove : ∀ x y, above y x → le y x = false) : unsettled le m ≤ unsettled le l := by
  have hsort := h.mergeSort_eq trans total habove
  have hlength := h.perm.length_eq
  suffices agreeing l (l.mergeSort le) ≤ agreeing m (l.mergeSort le) by
    rw [unsettled, unsettled, ← hsort]
    omega
  obtain ⟨A, B, D, x, hB⟩ := h
  cases B with
  | nil => simp
  | cons b B =>
    simp only [List.append_assoc]
    rcases agreeing_cases A ((A ++ (b :: B ++ ([x] ++ D))).mergeSort le) with ⟨v, hv⟩ | heq
    · -- the sort does not go on with the larger element
      rw [hv, agreeing_append, agreeing_append]
      have hfirst : agreeing (b :: B ++ ([x] ++ D)) v = 0 := by
        cases v with
        | nil => rfl
        | cons c v =>
          have hne : b ≠ c := by
            rintro rfl
            refine mergeSort_ne_append (A := A) (B := B) (D := D) (v := v) trans total
              (habove x b (hB b List.mem_cons_self)) ?_
            simpa using hv
          simp [agreeing, hne]
      omega
    · exact (heq _ _).le

include trans total in
/-- A move that puts the right element behind the part that agrees takes a list closer to its sort.
-/
theorem unsettled_lt_of_hoist {A B D S : List α} {x : α} (hne : B ≠ [])
    (hB : ∀ y ∈ B, le y x = false) (hsort : (A ++ B ++ [x] ++ D).mergeSort le = A ++ x :: S) :
    unsettled le (A ++ [x] ++ B ++ D) < unsettled le (A ++ B ++ [x] ++ D) := by
  have hmove : Hoist (fun y x => le y x = false) (A ++ B ++ [x] ++ D) (A ++ [x] ++ B ++ D) :=
    .hoist A B D x hB
  have hsame := hmove.mergeSort_eq trans total fun _ _ h => h
  rw [unsettled, unsettled, ← hsame, hsort]
  have hbefore : agreeing (A ++ B ++ [x] ++ D) (A ++ x :: S) = A.length := by
    rw [List.append_assoc, List.append_assoc, agreeing_append]
    cases B with
    | nil => exact absurd rfl hne
    | cons b B =>
      have hbx : b ≠ x := by
        rintro rfl
        have := hB b List.mem_cons_self
        rw [le_refl_of_total total b] at this
        exact Bool.false_ne_true this.symm
      simp [agreeing, hbx]
  have hafter : A.length + 1 ≤ agreeing (A ++ [x] ++ B ++ D) (A ++ x :: S) := by
    rw [List.append_assoc, List.append_assoc, agreeing_append]
    simp [agreeing]
  have := List.length_pos_iff.2 hne
  simp only [List.length_append, List.length_singleton]
  omega

omit [DecidableEq α] in
include trans total in
/-- Where a list without repetitions first differs from its sort, the element that should stand
there comes later, behind larger ones and in front of none that is smaller. -/
theorem exists_misplaced {E P E' S : List α} {a b : α} (hnodup : E.Nodup) (hE : E = P ++ a :: E')
    (hS : E.mergeSort le = P ++ b :: S) (hab : a ≠ b) :
    ∃ Y Z, E = P ++ (a :: Y) ++ [b] ++ Z ∧ (∀ y ∈ a :: Y, le y b = false) ∧
      ∀ z ∈ Z, le b z = true := by
  have hperm := List.mergeSort_perm E le
  have hnodup' : (P ++ b :: S).Nodup := hS ▸ hperm.nodup_iff.2 hnodup
  rw [hS, hE, List.perm_append_left_iff] at hperm
  have hb : b ∈ E' := by
    rcases List.mem_cons.1 (hperm.mem_iff.1 List.mem_cons_self) with rfl | hb
    · exact absurd rfl hab
    · exact hb
  obtain ⟨Y, Z, rfl⟩ := List.append_of_mem hb
  have hsorted := List.pairwise_mergeSort trans total E
  rw [hS, List.pairwise_append, List.pairwise_cons] at hsorted
  have hleast : ∀ z ∈ Z, le b z = true := by
    intro z hz
    cases List.mem_cons.1 (hperm.mem_iff.2 (by simp [hz] : z ∈ a :: (Y ++ b :: Z))) with
    | inl heq => exact heq ▸ le_refl_of_total total b
    | inr hzS => exact hsorted.2.1.1 z hzS
  refine ⟨Y, Z, by simp [hE], fun y hy => Bool.eq_false_iff.2 fun hle => ?_, hleast⟩
  -- an element in front that is not larger would stay in front
  have hsub : [y, b].Sublist E := by
    have hyb : [y, b].Sublist (a :: Y ++ b :: Z) :=
      (List.singleton_sublist.2 hy).append (List.singleton_sublist.2 List.mem_cons_self)
    rw [hE]
    exact hyb.trans (List.sublist_append_right P _)
  have hpair := List.pair_sublist_mergeSort trans total hle hsub
  have hyP : y ∉ P := by
    intro hyP
    rw [hE] at hnodup
    have := (List.nodup_append.1 hnodup).2.2 y hyP y
    rcases List.mem_cons.1 hy with rfl | hy
    · exact this (by simp) rfl
    · exact this (by simp [hy]) rfl
  rw [hS] at hpair
  obtain ⟨front, back, heq, hfront, hback⟩ := List.sublist_append_iff.1 hpair
  cases front with
  | cons z front =>
    obtain rfl : y = z := (List.cons.inj heq).1
    exact hyP (hfront.subset List.mem_cons_self)
  | nil =>
    obtain rfl : [y, b] = back := heq
    have hbS : b ∈ S := by
      cases hback with
      | cons _ h => exact h.subset (by simp)
      | cons_cons _ h => exact h.subset (by simp)
    exact (List.nodup_cons.1 (List.nodup_append.1 hnodup').2.1).1 hbS

omit [DecidableEq α] in
theorem find?_zip_eq_none {p : α × α → Bool} {l m : List α} (hlength : l.length = m.length)
    (hp : ∀ x ∈ l, ∀ y ∈ m, p (x, y) = false → x = y) (h : (l.zip m).find? p = none) : l = m := by
  refine List.ext_getElem hlength fun i hi hi' => ?_
  refine hp _ (List.getElem_mem hi) _ (List.getElem_mem hi') ?_
  have hmem : (l[i], m[i]) ∈ l.zip m := by
    rw [← List.getElem_zip (h := by simp [hi, hi'])]
    exact List.getElem_mem _
  simpa using List.find?_eq_none.1 h _ hmem

omit [DecidableEq α] in
theorem find?_zip_eq_some {p : α × α → Bool} {l m : List α} {a b : α}
    (hp : ∀ x ∈ l, ∀ y ∈ m, p (x, y) = false → x = y) (h : (l.zip m).find? p = some (a, b)) :
    p (a, b) = true ∧ ∃ front l' m', l = front ++ a :: l' ∧ m = front ++ b :: m' := by
  refine ⟨List.find?_some h, ?_⟩
  induction l generalizing m with
  | nil => simp at h
  | cons x l ih =>
    cases m with
    | nil => simp at h
    | cons y m =>
      rw [List.zip_cons_cons, List.find?_cons] at h
      split at h
      · simp only [Option.some.injEq, Prod.mk.injEq] at h
        exact ⟨[], l, m, by simp [h.1], by simp [h.2]⟩
      · next hxy =>
        obtain rfl := hp x List.mem_cons_self y List.mem_cons_self hxy
        obtain ⟨front, l', m', rfl, rfl⟩ := ih (fun x hx y hy =>
          hp x (List.mem_cons_of_mem _ hx) y (List.mem_cons_of_mem _ hy)) h
        exact ⟨x :: front, l', m', rfl, rfl⟩

end Settled

end ImportOrder
