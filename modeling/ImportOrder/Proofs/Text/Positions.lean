import ImportOrder.Proofs.Source.Offsets
import Mathlib.Data.Finset.Card
import Mathlib.Data.Prod.Lex
import Mathlib.Order.Bounds.Basic
import Mathlib.Order.Interval.Finset.Nat

/-!
# Positions identify offsets

A line terminator is a line feed, a carriage return followed by a line feed, which count as one, or
a carriage return alone. This says at which offsets terminators end without any scan, and the scan
by bytes, the scan by characters and the search among the starts of lines all agree with it at every
offset, the one inside `\r\n` and the ones past the end included. Lines and columns are counted in
32 bits, which holds them up to the offset `2 ^ 32 - 2`; up to there no two offsets between characters
share a position, and later offsets have later positions.

## Main definitions

- `Position.key`: positions compared by line, then by column
- `Text.TerminatorEndsAt`: the offsets at which line terminators end
- `Text.scanLineEnds`: the line terminators, found byte by byte
- `Text.unbroken`: a text of one line

## Main statements

- `Text.mem_lineEnds_iff`, `Text.scanLineEnds_bytes`: both scans find exactly the terminators
- `Text.lineOf_eq_card`, `Text.isGreatest_lineStart`: the line of an offset and where it starts
- `Text.positions_identify_offsets`
- `Text.column_of_longest_line_wraps`: the one offset of the longest texts that is left out
-/

namespace ImportOrder

/-- What positions are compared by: the line, then the column. -/
def Position.key (p : Position) : Nat ×ₗ Nat := toLex (p.line.toNat, p.column.toNat)

theorem Position.key_lt_iff {p q : Position} :
    p.key < q.key ↔ p.line.toNat < q.line.toNat ∨
      p.line.toNat = q.line.toNat ∧ p.column.toNat < q.column.toNat :=
  Prod.Lex.toLex_lt_toLex

namespace Text

variable {text : Text} {m n : Nat}

/-! ## Terminators -/

/-- A line terminator ends at this offset. -/
def TerminatorEndsAt (text : Text) (n : Nat) : Prop :=
  ∃ front rest, text = front ++ rest ∧ byteLength front = n ∧ TerminatorEnds front rest

theorem TerminatorEnds.seam {u v : Text} (h : TerminatorEnds u v) : Seam u v := by
  intro hreturn
  cases h with
  | inl hfeed => exact absurd (hreturn.symm.trans hfeed) (by decide)
  | inr hlone => exact hlone.2

theorem TerminatorEnds.isLineBreak {u v : Text} (h : TerminatorEnds u v) :
    u.getLast?.any Character.isLineBreak = true := by
  cases h with
  | inl hfeed => rw [hfeed]; decide
  | inr hlone => rw [hlone.1]; decide

/-- The scan finds the terminators and nothing else. -/
theorem mem_lineEnds_iff : n ∈ text.lineEnds ↔ text.TerminatorEndsAt n := by
  constructor
  · intro h
    obtain ⟨front, rest, htext, hn, hends⟩ := exists_of_mem_lineEndsFrom h
    exact ⟨front, rest, htext, by omega, hends⟩
  · rintro ⟨front, rest, rfl, rfl, hends⟩
    -- no terminator reaches across the cut, so the last one in front of it ends there
    have hlast : front.lineEnds.getLast? = some (0 + byteLength front) :=
      getLast?_lineEndsFrom hends.isLineBreak
    rw [Nat.zero_add] at hlast
    rw [lineEnds_append hends.seam]
    exact List.mem_append_left _ (List.mem_of_getLast? hlast)

instance (text : Text) : DecidablePred text.TerminatorEndsAt :=
  fun _ => decidable_of_iff _ mem_lineEnds_iff

theorem TerminatorEndsAt.bounds (h : text.TerminatorEndsAt n) : 0 < n ∧ n ≤ text.byteLength :=
  bounds_of_mem_lineEnds (mem_lineEnds_iff.2 h)

/-! ## The scan by bytes -/

/-- The offsets just past the line terminators, found byte by byte from offset `i` on. -/
def scanLineEnds (i : Nat) : List UInt8 → List Nat
  | [] => []
  | byte :: bytes =>
    if byte = '\r'.toUInt8 ∧ bytes.head? = some '\n'.toUInt8 then
      (i + 2) :: scanLineEnds (i + 2) bytes.tail
    else if byte = '\n'.toUInt8 ∨ byte = '\r'.toUInt8 then (i + 1) :: scanLineEnds (i + 1) bytes
    else scanLineEnds (i + 1) bytes
termination_by bytes => bytes.length
decreasing_by
  all_goals
    simp only [List.length_cons, List.length_tail]
    omega

theorem scanLineEnds_append {bytes : List UInt8}
    (h : ∀ byte ∈ bytes, byte ≠ '\n'.toUInt8 ∧ byte ≠ '\r'.toUInt8) (i : Nat)
    (rest : List UInt8) :
    scanLineEnds i (bytes ++ rest) = scanLineEnds (i + bytes.length) rest := by
  induction bytes generalizing i with
  | nil => rfl
  | cons byte bytes ih =>
    obtain ⟨hbyte, hbytes⟩ := List.forall_mem_cons.1 h
    rw [List.cons_append, scanLineEnds, if_neg (fun hpair => hbyte.2 hpair.1),
      if_neg (not_or.2 hbyte), ih hbytes, List.length_cons, Nat.add_assoc, Nat.add_comm 1]

theorem bytes_cons (c : Char) (text : Text) :
    bytes (c :: text) = String.utf8EncodeChar c ++ bytes text := List.flatMap_cons

theorem head?_bytes_ne {q : Char} (hq : q.val.toNat ≤ 127) (h : text.head? ≠ some q) :
    text.bytes.head? ≠ some q.toUInt8 := by
  cases text with
  | nil => simp [bytes]
  | cons c text =>
    intro hhead
    have hne : String.utf8EncodeChar c ≠ [] := by
      rw [ne_eq, ← List.length_eq_zero_iff, String.length_utf8EncodeChar]
      exact Nat.ne_of_gt c.utf8Size_pos
    rw [bytes_cons, List.head?_append_of_ne_nil _ hne] at hhead
    have hc : c = q := (byte_eq_iff hq (List.mem_of_mem_head? hhead)).1 rfl
    exact h (congrArg some hc)

/-- The bytes of a character other than a line feed or a carriage return are never taken for one,
so the scan by bytes is the scan by characters. -/
theorem scanLineEnds_bytes (i : Nat) (text : Text) :
    scanLineEnds i text.bytes = lineEndsFrom i text := by
  fun_induction lineEndsFrom i text with
  | case1 => exact scanLineEnds.eq_1 _
  | case2 i text ih =>
    have hbytes : bytes ('\r' :: '\n' :: text) = '\r'.toUInt8 :: '\n'.toUInt8 :: bytes text := rfl
    rw [hbytes, scanLineEnds, if_pos ⟨rfl, rfl⟩, List.tail_cons, ih]
  | case3 i c text hpair hc ih =>
    have hbytes : bytes (c :: text) = c.toUInt8 :: bytes text := by
      rcases hc with rfl | rfl <;> rfl
    have hlone : ¬ (c.toUInt8 = '\r'.toUInt8 ∧ (bytes text).head? = some '\n'.toUInt8) := by
      rintro ⟨hreturn, hfeed⟩
      have hc : c = '\r' := hc.resolve_left fun h => absurd (h ▸ hreturn) (by decide)
      refine head?_bytes_ne (by decide) (fun hhead => ?_) hfeed
      obtain ⟨rest, rfl⟩ := List.head?_eq_some_iff.1 hhead
      exact hpair rest hc rfl
    rw [hbytes, scanLineEnds, if_neg hlone,
      if_pos (hc.imp (congrArg Char.toUInt8) (congrArg Char.toUInt8)), ih]
  | case4 i c text hpair hc ih =>
    have hplain : ∀ byte ∈ String.utf8EncodeChar c,
        byte ≠ '\n'.toUInt8 ∧ byte ≠ '\r'.toUInt8 := by
      intro byte hbyte
      rw [ne_eq, ne_eq, byte_eq_iff (by decide) hbyte, byte_eq_iff (by decide) hbyte]
      exact not_or.1 hc
    rw [bytes_cons, scanLineEnds_append hplain, String.length_utf8EncodeChar, ih]

/-! ## Lines -/

/-- The line of an offset is one more than the number of terminators that end at or before it. -/
theorem lineOf_eq_card (text : Text) (n : Nat) :
    text.lineOf n = ((Finset.range (n + 1)).filter text.TerminatorEndsAt).card + 1 := by
  have hnodup : (text.lineEnds.filter (· ≤ n)).Nodup :=
    ((pairwise_lineEndsFrom 0 text).imp Nat.ne_of_lt).filter _
  have hset : (text.lineEnds.filter (· ≤ n)).toFinset =
      (Finset.range (n + 1)).filter text.TerminatorEndsAt := by
    ext k
    simp only [List.mem_toFinset, List.mem_filter, decide_eq_true_eq, mem_lineEnds_iff,
      Finset.mem_filter, Finset.mem_range, Nat.lt_succ_iff]
    exact and_comm
  rw [lineOf, List.countP_eq_length_filter, ← List.toFinset_card_of_nodup hnodup, hset]

/-- A line starts where the last terminator in front of it ends. -/
theorem isGreatest_lineStart (text : Text) (offset : Nat) :
    IsGreatest (insert 0 {n | n ≤ offset ∧ text.TerminatorEndsAt n}) (text.lineStart offset) := by
  have hmem : ∀ n, n ∈ text.lineEnds.filter (· ≤ offset) ↔
      n ≤ offset ∧ text.TerminatorEndsAt n := by
    intro n
    rw [List.mem_filter, mem_lineEnds_iff, decide_eq_true_eq, and_comm]
  have hsorted : (text.lineEnds.filter (· ≤ offset)).Pairwise (· < ·) :=
    (pairwise_lineEndsFrom 0 text).filter _
  rw [lineStart]
  generalize text.lineEnds.filter (· ≤ offset) = ends at hmem hsorted ⊢
  rcases ends.eq_nil_or_concat with rfl | ⟨earlier, last, rfl⟩
  · refine ⟨Set.mem_insert .., ?_⟩
    rintro n (rfl | hn)
    · exact Nat.le_refl _
    · exact absurd ((hmem n).2 hn) List.not_mem_nil
  · rw [List.concat_eq_append, List.getLastD_eq_getLast?, List.getLast?_concat, Option.getD_some]
    rw [List.concat_eq_append] at hmem hsorted
    refine ⟨Set.mem_insert_of_mem _ ((hmem last).1 (by simp)), ?_⟩
    rintro n (rfl | hn)
    · exact Nat.zero_le _
    · rcases List.mem_append.1 ((hmem n).2 hn) with hn | hn
      · exact Nat.le_of_lt ((List.pairwise_append.1 hsorted).2.2 n hn last (by simp))
      · exact Nat.le_of_eq (List.mem_singleton.1 hn)

theorem lineStart_min (text : Text) (offset : Nat) :
    text.lineStart (min offset text.byteLength) = text.lineStart offset := by
  have hfilter : text.lineEnds.filter (· ≤ min offset text.byteLength) =
      text.lineEnds.filter (· ≤ offset) := by
    apply List.filter_congr
    intro n hn
    have := bounds_of_mem_lineEnds hn
    exact decide_eq_decide.2 (by omega)
  rw [lineStart, hfilter, lineStart]

theorem lineStart_eq_of_lineOf_eq (h : text.lineOf m = text.lineOf n) :
    text.lineStart m = text.lineStart n := by
  apply Option.some.inj
  rw [← getElem?_lineStarts, ← getElem?_lineStarts, h]

/-- Every line in front of an offset takes a byte at least, its terminator. -/
theorem lineOf_le_lineStart (text : Text) (n : Nat) : text.lineOf n ≤ text.lineStart n + 1 := by
  have hsub : (Finset.range (n + 1)).filter text.TerminatorEndsAt ⊆
      Finset.Ioc 0 (text.lineStart n) := by
    intro k hk
    rw [Finset.mem_filter, Finset.mem_range, Nat.lt_succ_iff] at hk
    exact Finset.mem_Ioc.2 ⟨hk.2.bounds.1, (isGreatest_lineStart text n).2 (.inr hk)⟩
  have hcard := Finset.card_le_card hsub
  rw [Nat.card_Ioc, Nat.sub_zero] at hcard
  rw [lineOf_eq_card]
  exact Nat.succ_le_succ hcard

/-! ## Columns -/

theorem length_le_byteLength (text : Text) : text.length ≤ text.byteLength := by
  induction text with
  | nil => exact Nat.le_refl _
  | cons c text ih =>
    have := c.utf8Size_pos
    rw [List.length_cons, byteLength_cons]
    omega

theorem columnOf_of_slice {offset : Nat} {part : Text}
    (h : text.slice ⟨text.lineStart offset, offset⟩ = .ok part) :
    text.columnOf offset = part.length + 1 := by
  rw [slice_eq_ok_iff_slice?] at h
  simp only [columnOf, h]

theorem exists_line_part {offset : Nat} (h : text.Boundary offset) :
    ∃ part, text.slice ⟨text.lineStart offset, offset⟩ = .ok part := by
  obtain ⟨front, rest, htext, hfront, hle⟩ := text.exists_lineStart offset
  exact exists_slice ⟨front, rest, htext, hfront⟩ h hle

theorem lineOf_add_columnOf_le (text : Text) (offset : Nat) :
    text.lineOf offset + text.columnOf offset ≤ offset + 2 := by
  have hline := text.lineOf_le_lineStart offset
  obtain ⟨_, _, -, -, hle⟩ := text.exists_lineStart offset
  cases hslice : text.slice? ⟨text.lineStart offset, offset⟩ with
  | none =>
    have hcolumn : text.columnOf offset = 1 := by simp only [columnOf, hslice]
    omega
  | some part =>
    have hpart := length_le_byteLength part
    have hbytes : text.lineStart offset + part.byteLength = offset :=
      (bounds_of_slice? hslice).1
    rw [columnOf_of_slice (slice_eq_ok_iff_slice?.2 hslice)]
    omega

theorem columnOf_pos (text : Text) (offset : Nat) : 0 < text.columnOf offset := by
  rw [columnOf]
  split
  · exact Nat.succ_pos _
  · exact Nat.one_pos

/-- Below `2 ^ 32 - 1` both counts fit, since together they exceed the offset by two at most. -/
theorem toNat_position {offset : Nat} (h : min offset text.byteLength + 1 < 2 ^ 32) :
    (text.position offset).line.toNat = text.lineOf (min offset text.byteLength) ∧
      (text.position offset).column.toNat = text.columnOf (min offset text.byteLength) := by
  have hsum := text.lineOf_add_columnOf_le (min offset text.byteLength)
  have hline : 0 < text.lineOf (min offset text.byteLength) := Nat.succ_pos _
  have hcolumn := text.columnOf_pos (min offset text.byteLength)
  have hsize : UInt32.size = 2 ^ 32 := rfl
  exact ⟨UInt32.toNat_ofNat_of_lt' (by omega), UInt32.toNat_ofNat_of_lt' (by omega)⟩

/-- Behind a character, either a line has ended or the column has grown. -/
theorem line_or_column_grows (hm : text.Boundary m) (hn : text.Boundary n) (hlt : m < n) :
    text.lineOf m < text.lineOf n ∨
      text.lineOf m = text.lineOf n ∧ text.columnOf m < text.columnOf n := by
  obtain ⟨before, hbefore⟩ := exists_line_part hm
  obtain ⟨after, hafter⟩ := exists_line_part hn
  rcases Nat.lt_or_eq_of_le (text.lineOf_mono (Nat.le_of_lt hlt)) with hline | hline
  · exact .inl hline
  · refine .inr ⟨hline, ?_⟩
    rw [columnOf_of_slice hbefore, columnOf_of_slice hafter]
    rw [lineStart_eq_of_lineOf_eq hline] at hbefore
    -- on one line the later offset has the earlier part and more in front of it
    obtain ⟨front, rest, htext, hfront, hstop⟩ := slice_eq_ok_iff.1 hbefore
    obtain ⟨front', rest', htext', hfront', hstop'⟩ := slice_eq_ok_iff.1 hafter
    dsimp only at hfront hstop hfront' hstop'
    rw [htext, List.append_assoc, List.append_assoc] at htext'
    obtain ⟨rfl, heq⟩ := append_inj htext' (by omega)
    obtain ⟨more, rfl, -⟩ := append_split heq (by omega)
    have hmore : more ≠ [] := by
      rintro rfl
      rw [List.append_nil] at hstop'
      omega
    have := List.length_pos_of_ne_nil hmore
    rw [List.length_append]
    omega

theorem key_position_lt (hm : text.Boundary m) (hn : text.Boundary n) (hfits : n + 1 < 2 ^ 32)
    (hlt : m < n) : (text.position m).key < (text.position n).key := by
  have hmin : ∀ {k}, text.Boundary k → min k text.byteLength = k := by
    rintro k ⟨front, rest, rfl, rfl⟩
    simp
  have hearlier : min m text.byteLength + 1 < 2 ^ 32 := by
    rw [hmin hm]
    omega
  have hlater : min n text.byteLength + 1 < 2 ^ 32 := by rwa [hmin hn]
  obtain ⟨hline, hcolumn⟩ := toNat_position hearlier
  obtain ⟨hline', hcolumn'⟩ := toNat_position hlater
  rw [Position.key_lt_iff, hline, hline', hcolumn, hcolumn', hmin hm, hmin hn]
  exact line_or_column_grows hm hn hlt

/-- Positions identify offsets.

The starts of lines are those that a scan of the bytes finds, and every line starts where the last
terminator in front of it ends. Up to the offset `2 ^ 32 - 2`, a search among the starts of lines
finds the line of every offset, which is one more than the number of line terminators that end at or
before the offset, and between characters the column counts the characters from the start of the
line on. Between characters later offsets have later positions, so no two offsets share one. -/
theorem positions_identify_offsets (text : Text) :
    text.lineStarts = 0 :: scanLineEnds 0 text.bytes ∧
    (∀ offset,
      IsGreatest (insert 0 {n | n ≤ offset ∧ text.TerminatorEndsAt n}) (text.lineStart offset)) ∧
    (∀ offset, min offset text.byteLength + 1 < 2 ^ 32 →
      text.lineIndex (min offset text.byteLength) =
        .ok ((text.position offset).line.toNat - 1) ∧
      text.lineStarts[(text.position offset).line.toNat - 1]? = some (text.lineStart offset) ∧
      (text.position offset).line.toNat =
        ((Finset.range (min offset text.byteLength + 1)).filter text.TerminatorEndsAt).card + 1 ∧
      (text.Boundary (min offset text.byteLength) →
        ∃ part, text.slice ⟨text.lineStart offset, min offset text.byteLength⟩ = .ok part ∧
          (text.position offset).column.toNat = part.length + 1) ∧
      (text.position offset).line.toNat + (text.position offset).column.toNat ≤
        min offset text.byteLength + 2) ∧
    StrictMonoOn (fun n => (text.position n).key) {n | text.Boundary n ∧ n + 1 < 2 ^ 32} ∧
    Set.InjOn text.position {n | text.Boundary n ∧ n + 1 < 2 ^ 32} := by
  have hmono : StrictMonoOn (fun n => (text.position n).key)
      {n | text.Boundary n ∧ n + 1 < 2 ^ 32} :=
    fun m hm n hn hlt => key_position_lt hm.1 hn.1 hn.2 hlt
  refine ⟨by rw [scanLineEnds_bytes]; rfl, isGreatest_lineStart text, fun offset hfits => ?_, hmono,
    fun m hm n hn heq => hmono.injOn hm hn (congrArg Position.key heq)⟩
  obtain ⟨hline, hcolumn⟩ := toNat_position hfits
  rw [hline, hcolumn]
  refine ⟨lineIndex_eq _ _, ?_, lineOf_eq_card _ _, fun h => ?_, lineOf_add_columnOf_le _ _⟩
  · rw [getElem?_lineStarts, lineStart_min]
  · obtain ⟨part, hpart⟩ := exists_line_part h
    rw [← lineStart_min]
    exact ⟨part, hpart, columnOf_of_slice hpart⟩

/-- A text with each of the three terminators and with characters of two bytes. -/
def mixedBreaks : Text := "é\r\nb\rß\n".toList

theorem mixedBreaks_positions :
    mixedBreaks.Boundary 3 ∧ mixedBreaks.Boundary 8 ∧ mixedBreaks.lineEnds = [4, 6, 9] ∧
      mixedBreaks.position 3 = ⟨1, 3⟩ ∧ mixedBreaks.position 8 = ⟨3, 2⟩ ∧
      (∃ part, mixedBreaks.slice ⟨mixedBreaks.lineStart 8, 8⟩ = .ok part ∧
        (mixedBreaks.position 8).column.toNat = part.length + 1) ∧
      (mixedBreaks.position 3).key < (mixedBreaks.position 8).key := by
  have hinside : mixedBreaks.Boundary 3 := ⟨"é\r".toList, "\nb\rß\n".toList, rfl, rfl⟩
  have hlast : mixedBreaks.Boundary 8 := ⟨"é\r\nb\rß".toList, "\n".toList, rfl, rfl⟩
  obtain ⟨-, -, hposition, hmono, -⟩ := positions_identify_offsets mixedBreaks
  obtain ⟨-, -, -, hcolumn, -⟩ := hposition 8 (by decide)
  exact ⟨hinside, hlast, by decide, by decide, by decide, hcolumn hlast,
    hmono ⟨hinside, by decide⟩ ⟨hlast, by decide⟩ (by decide)⟩

/-! ## The longest line -/

/-- A line of `n` letters without a terminator. -/
def unbroken (n : Nat) : Text := List.replicate n 'a'

theorem unbroken_append (m n : Nat) : unbroken m ++ unbroken n = unbroken (m + n) :=
  List.replicate_append_replicate

theorem byteLength_unbroken (n : Nat) : byteLength (unbroken n) = n := by
  induction n with
  | zero => rfl
  | succ n ih =>
    have hcons : unbroken (n + 1) = 'a' :: unbroken n := rfl
    rw [hcons, byteLength_cons, ih]
    exact Nat.add_comm 1 n

theorem lineEndsFrom_unbroken (i n : Nat) : lineEndsFrom i (unbroken n) = [] := by
  induction n generalizing i with
  | zero => rfl
  | succ n ih =>
    have hcons : unbroken (n + 1) = 'a' :: unbroken n := rfl
    rw [hcons, lineEndsFrom, if_neg (by decide), ih]
    rintro _ ⟨⟩

theorem position_unbroken {m n : Nat} (h : m ≤ n) :
    (unbroken n).position m = ⟨1, UInt32.ofNat (m + 1)⟩ := by
  have hmin : min m (byteLength (unbroken n)) = m := by
    rw [byteLength_unbroken]
    exact Nat.min_eq_left h
  have hends : lineEnds (unbroken n) = [] := lineEndsFrom_unbroken 0 n
  have hstart : lineStart (unbroken n) m = 0 := by
    rw [lineStart, hends]
    rfl
  have hslice : (unbroken n).slice ⟨lineStart (unbroken n) m, m⟩ = .ok (unbroken m) := by
    refine slice_eq_ok_iff.2 ⟨[], unbroken (n - m), ?_, hstart.symm, ?_⟩
    · rw [List.nil_append, unbroken_append, Nat.add_sub_cancel' h]
    · rw [byteLength_unbroken]
      exact Nat.zero_add m
  rw [position, hmin, columnOf_of_slice hslice, lineOf, hends, unbroken, List.length_replicate]
  rfl

/-- In a text of `2 ^ 32 - 1` bytes the column of the end may not fit into 32 bits: it is zero, and
the end comes before the start. -/
theorem column_of_longest_line_wraps :
    (unbroken (2 ^ 32 - 1)).byteLength < 2 ^ 32 ∧
      (unbroken (2 ^ 32 - 1)).Boundary 0 ∧
      (unbroken (2 ^ 32 - 1)).Boundary (2 ^ 32 - 1) ∧
      (unbroken (2 ^ 32 - 1)).position 0 = ⟨1, 1⟩ ∧
      (unbroken (2 ^ 32 - 1)).position (2 ^ 32 - 1) = ⟨1, 0⟩ ∧
      (∀ part, (unbroken (2 ^ 32 - 1)).slice
          ⟨(unbroken (2 ^ 32 - 1)).lineStart (2 ^ 32 - 1), 2 ^ 32 - 1⟩ = .ok part →
        ((unbroken (2 ^ 32 - 1)).position (2 ^ 32 - 1)).column.toNat ≠ part.length + 1) ∧
      ¬ ((unbroken (2 ^ 32 - 1)).position 0).key <
        ((unbroken (2 ^ 32 - 1)).position (2 ^ 32 - 1)).key := by
  have hstart : (unbroken (2 ^ 32 - 1)).position 0 = ⟨1, 1⟩ := position_unbroken (Nat.zero_le _)
  have hend : (unbroken (2 ^ 32 - 1)).position (2 ^ 32 - 1) = ⟨1, 0⟩ :=
    position_unbroken (Nat.le_refl _)
  refine ⟨?_, ⟨[], _, rfl, rfl⟩, ⟨_, [], (List.append_nil _).symm, byteLength_unbroken _⟩, hstart,
    hend, fun part _ => ?_, ?_⟩
  · rw [byteLength_unbroken]
    decide
  · rw [hend]
    exact (Nat.succ_ne_zero _).symm
  · rw [hstart, hend, Position.key_lt_iff]
    decide

end Text

end ImportOrder
