import ImportOrder.Text.Basic

/-!
# Cutting texts at offsets

The cuts of a text that is given as a concatenation, which is the form in which every later proof
holds its texts: the offset of a place is the length of what stands in front of it.

## Main statements

- `Text.append_split`: of two cuts of one text, the later one cuts the rest of the earlier one
- `Text.slice_append`, `Text.sliceFrom_append`: the checked cuts of a concatenation
- `Text.slice?_append_shift`: a cut of the second text of two does not depend on the first
- `Checked.mapM_eq_ok`: a checked computation over a list succeeds if every step does
- `Checked.bind_eq_ok`: a computation in two parts succeeds if both do
-/

namespace ImportOrder

namespace Text

/-- Of two cuts of one text, the later one cuts the rest of the earlier one. -/
theorem append_split {a b c d : Text} (h : a ++ b = c ++ d) (hle : byteLength a ≤ byteLength c) :
    ∃ k, c = a ++ k ∧ b = k ++ d := by
  rcases List.append_eq_append_iff.1 h with ⟨k, hc, hb⟩ | ⟨k, ha, hd⟩
  · exact ⟨k, hc, hb⟩
  · -- the first cut is not the later one, so nothing stands between the two
    have hk : byteLength k = 0 := by
      rw [ha, byteLength_append] at hle
      omega
    obtain rfl : k = [] := (byteLength_eq_zero_iff k).1 hk
    exact ⟨[], by simpa using ha.symm, by simpa using hd.symm⟩

theorem append_inj {a b c d : Text} (h : a ++ b = c ++ d) (hl : byteLength a = byteLength c) :
    a = c ∧ b = d := by
  obtain ⟨k, rfl, rfl⟩ := append_split h (Nat.le_of_eq hl)
  have hk : byteLength k = 0 := by
    rw [byteLength_append] at hl
    omega
  obtain rfl : k = [] := (byteLength_eq_zero_iff k).1 hk
  simp

theorem slice?_append (a b c : Text) :
    slice? (a ++ b ++ c) ⟨byteLength a, byteLength a + byteLength b⟩ = some b :=
  slice?_eq_some_iff.2 ⟨a, c, rfl, rfl, rfl⟩

theorem slice_append (a b c : Text) :
    slice (a ++ b ++ c) ⟨byteLength a, byteLength a + byteLength b⟩ = .ok b :=
  slice_eq_ok_iff.2 ⟨a, c, rfl, rfl, rfl⟩

theorem slice_eq_ok_iff_slice? {text part : Text} {span : Span} :
    slice text span = .ok part ↔ slice? text span = some part := by
  rw [slice_eq_ok_iff, slice?_eq_some_iff]

theorem sliceFrom_append (a b : Text) : sliceFrom (a ++ b) (byteLength a) = .ok b := by
  rw [sliceFrom, drop?_append]

theorem sliceFrom_eq_ok_iff {text rest : Text} {n : Nat} :
    sliceFrom text n = .ok rest ↔ ∃ front, text = front ++ rest ∧ byteLength front = n := by
  rw [← drop?_eq_some_iff, sliceFrom]
  split <;> simp_all

/-- A cut behind a text in front does not depend on that text. -/
theorem drop?_append_add (a b : Text) (n : Nat) :
    drop? (a ++ b) (byteLength a + n) = drop? b n := by
  ext rest
  rw [drop?_eq_some_iff, drop?_eq_some_iff]
  constructor
  · rintro ⟨front, h, hn⟩
    obtain ⟨k, rfl, rfl⟩ := append_split h (by omega)
    exact ⟨k, rfl, by rw [byteLength_append] at hn; omega⟩
  · rintro ⟨front, rfl, rfl⟩
    exact ⟨a ++ front, by simp, by simp⟩

/-- A slice of the second text of two does not depend on the first. -/
theorem slice?_append_shift (a b : Text) (start stop : Nat) :
    slice? (a ++ b) ⟨byteLength a + start, byteLength a + stop⟩ = slice? b ⟨start, stop⟩ := by
  simp only [slice?, drop?_append_add, Nat.add_le_add_iff_left]
  rw [show byteLength a + stop - (byteLength a + start) = stop - start by omega]

theorem slice?_append_left {a part : Text} {span : Span} (h : slice? a span = some part)
    (b : Text) : slice? (a ++ b) span = some part := by
  obtain ⟨front, rest, rfl, hf, hp⟩ := slice?_eq_some_iff.1 h
  exact slice?_eq_some_iff.2 ⟨front, rest ++ b, by simp, hf, hp⟩

theorem getD_slice?_isInfix (text : Text) (span : Span) :
    (text.slice? span).getD [] <:+: text := by
  cases h : text.slice? span with
  | none => exact List.nil_infix
  | some part =>
    obtain ⟨front, rest, rfl, -⟩ := slice?_eq_some_iff.1 h
    exact ⟨front, rest, rfl⟩

theorem bounds_of_slice? {text part : Text} {span : Span} (h : slice? text span = some part) :
    span.start + byteLength part = span.stop ∧ span.stop ≤ byteLength text := by
  obtain ⟨front, rest, rfl, hf, hp⟩ := slice?_eq_some_iff.1 h
  simp only [byteLength_append]
  omega

end Text

namespace Checked

variable {ε α β : Type}

@[simp]
theorem ok_bind (a : α) (f : α → Except ε β) : (Except.ok a >>= f) = f a := rfl

theorem bind_eq_ok {x : Except ε α} {f : α → Except ε β} {b : β} :
    (x >>= f) = .ok b ↔ ∃ a, x = .ok a ∧ f a = .ok b := by
  cases x <;> simp [bind, Except.bind]

theorem map_eq_ok {x : Except ε α} {f : α → β} {b : β} :
    f <$> x = .ok b ↔ ∃ a, x = .ok a ∧ f a = b := by
  cases x <;> simp [Functor.map, Except.map]

theorem mapError_eq_ok {ε' : Type} {x : Except ε α} {f : ε → ε'} {a : α} :
    x.mapError f = .ok a ↔ x = .ok a := by
  cases x with
  | error e => exact iff_of_false (fun h => by cases h) (fun h => by cases h)
  | ok b =>
    constructor
    · intro h
      cases h
      rfl
    · intro h
      cases h
      rfl

/-- Every result of a computation over a list comes from one of its elements. -/
theorem exists_of_mem_mapM {f : α → Except ε β} {l : List α} {m : List β} (h : l.mapM f = .ok m)
    {b : β} (hb : b ∈ m) : ∃ a ∈ l, f a = .ok b := by
  induction l generalizing m with
  | nil =>
    obtain rfl := Except.ok.inj h
    exact absurd hb List.not_mem_nil
  | cons x l ih =>
    rw [List.mapM_cons] at h
    obtain ⟨y, hy, h⟩ := bind_eq_ok.1 h
    obtain ⟨ys, hys, h⟩ := bind_eq_ok.1 h
    obtain rfl := Except.ok.inj h
    rcases List.mem_cons.1 hb with rfl | hb
    · exact ⟨x, List.mem_cons_self, hy⟩
    · obtain ⟨a, ha, hab⟩ := ih hys hb
      exact ⟨a, List.mem_cons_of_mem x ha, hab⟩

/-- Every element of a list has a result in a computation over the list. -/
theorem exists_mem_of_mapM {f : α → Except ε β} {l : List α} {m : List β} (h : l.mapM f = .ok m)
    {a : α} (ha : a ∈ l) : ∃ b ∈ m, f a = .ok b := by
  induction l generalizing m with
  | nil => exact absurd ha List.not_mem_nil
  | cons x l ih =>
    rw [List.mapM_cons] at h
    obtain ⟨y, hy, h⟩ := bind_eq_ok.1 h
    obtain ⟨ys, hys, h⟩ := bind_eq_ok.1 h
    obtain rfl := Except.ok.inj h
    rcases List.mem_cons.1 ha with rfl | ha
    · exact ⟨y, List.mem_cons_self, hy⟩
    · obtain ⟨b, hb, hab⟩ := ih hys ha
      exact ⟨b, List.mem_cons_of_mem y hb, hab⟩

/-- A checked computation over a list whose steps are those of a function. -/
theorem mapM_eq_ok {f : α → Checked β} {g : α → β} {l : List α} (h : ∀ x ∈ l, f x = .ok (g x)) :
    l.mapM f = .ok (l.map g) := by
  induction l with
  | nil => rfl
  | cons x l ih =>
    rw [List.mapM_cons, h x List.mem_cons_self, ih fun y hy => h y (List.mem_cons_of_mem x hy)]
    rfl

theorem exists_mapM {f : α → Except ε β} {p : β → Prop} {l : List α}
    (h : ∀ a ∈ l, ∃ b, f a = .ok b ∧ p b) : ∃ m, l.mapM f = .ok m ∧ ∀ b ∈ m, p b := by
  induction l with
  | nil => exact ⟨[], rfl, by simp⟩
  | cons x l ih =>
    obtain ⟨y, hy, hpy⟩ := h x List.mem_cons_self
    obtain ⟨m, hm, hpm⟩ := ih fun a ha => h a (List.mem_cons_of_mem x ha)
    exact ⟨y :: m, by rw [List.mapM_cons, hy, hm]; rfl, List.forall_mem_cons.2 ⟨hpy, hpm⟩⟩

theorem length_mapM {f : α → Except ε β} {l : List α} {m : List β} (h : l.mapM f = .ok m) :
    m.length = l.length := by
  induction l generalizing m with
  | nil =>
    obtain rfl := Except.ok.inj h
    rfl
  | cons x l ih =>
    rw [List.mapM_cons] at h
    obtain ⟨y, -, h⟩ := bind_eq_ok.1 h
    obtain ⟨ys, hys, h⟩ := bind_eq_ok.1 h
    obtain rfl := Except.ok.inj h
    rw [List.length_cons, ih hys, List.length_cons]

/-- The results of a computation over a list stand in the places of its elements. -/
theorem getElem?_of_mapM {f : α → Except ε β} {l : List α} {m : List β} (h : l.mapM f = .ok m)
    {k : Nat} {a : α} {b : β} (hk : l[k]? = some a) (hb : f a = .ok b) : m[k]? = some b := by
  induction l generalizing k m with
  | nil => cases hk
  | cons x l ih =>
    rw [List.mapM_cons] at h
    obtain ⟨y, hy, h⟩ := bind_eq_ok.1 h
    obtain ⟨ys, hys, h⟩ := bind_eq_ok.1 h
    obtain rfl := Except.ok.inj h
    cases k with
    | zero =>
      obtain rfl := Option.some.inj hk
      exact congrArg some (Except.ok.inj (hy.symm.trans hb))
    | succ k => exact ih hys hk

end Checked

end ImportOrder
