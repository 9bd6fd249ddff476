import ImportOrder.Proofs.AttachedRange
import Mathlib.Data.List.TakeWhile

/-!
# The token probe by offsets

The token probe can also be made without cutting the span out first: an offset moves through the
text, the text is cut anew from the offset on, and the inside of quotes is read byte by byte. Then
an escaped character of several bytes leaves the offset in its middle for a while. All this is
checked here, every cut of the text, every byte that is read and every difference of two offsets.
The probe by offsets and `Text.tokenKind` are the same function, also where they fail: whatever the
text holds, the offset is back between two characters when the text is cut again.

## Main definitions

- `Text.byteAt`, `Text.lengthBetween`: a byte of a text, and the number of bytes between two offsets
- `Text.skipTriviaFrom`, `Text.scanQuotedFrom`, `Text.scanTokenFrom`: the parts of the probe
- `Text.probe`: the probe by offsets

## Main statements

- `Text.probe_eq_tokenKind`
-/

namespace ImportOrder

open Character

namespace Text

/-! ## Searching -/

/-- The offset of the first character with a property. -/
def findChar? (p : Char → Bool) : Text → Option Nat
  | [] => none
  | c :: text => if p c then some 0 else (findChar? p text).map (c.utf8Size + ·)

/-- The number of bytes before the first character with a property, or of the whole text. -/
def lengthUntil (p : Char → Bool) (text : Text) : Nat :=
  (findChar? p text).getD text.byteLength

/-- The number of bytes of a block comment of which only `inner` follows the opening, or else
`total`, if the comment is not closed. -/
def blockLength (inner : Text) (total : Nat) : Nat :=
  ((inner.find? ['*', '/']).map (· + 4)).getD total

theorem findChar?_cases (p : Char → Bool) (text : Text) :
    (findChar? p text = none ∧ ∀ c ∈ text, p c = false) ∨
      ∃ front c rest, text = front ++ c :: rest ∧ (∀ d ∈ front, p d = false) ∧ p c = true ∧
        findChar? p text = some (byteLength front) := by
  induction text with
  | nil => exact .inl ⟨rfl, by simp⟩
  | cons c text ih =>
    rw [findChar?]
    by_cases hc : p c = true
    · exact .inr ⟨[], c, text, rfl, by simp, hc, if_pos hc⟩
    · have hfalse : p c = false := Bool.eq_false_iff.2 hc
      rw [if_neg hc]
      rcases ih with ⟨hfind, hnone⟩ | ⟨front, d, rest, rfl, hfront, hd, hfind⟩
      · exact .inl ⟨by rw [hfind]; rfl, List.forall_mem_cons.2 ⟨hfalse, hnone⟩⟩
      · exact .inr ⟨c :: front, d, rest, rfl, List.forall_mem_cons.2 ⟨hfalse, hfront⟩, hd,
          by rw [hfind]; rfl⟩

theorem lengthUntil_eq (p : Char → Bool) (text : Text) :
    lengthUntil p text = byteLength (text.takeWhile (!p ·)) := by
  rw [lengthUntil]
  rcases findChar?_cases p text with ⟨hfind, hnone⟩ | ⟨front, c, rest, rfl, hfront, hc, hfind⟩
  · rw [hfind, List.takeWhile_eq_self_iff.2 (by simpa using hnone)]
    rfl
  · rw [hfind, List.takeWhile_append_of_pos (by simpa using hfront),
      List.takeWhile_cons_of_neg (by simp [hc]), List.append_nil]
    rfl

theorem lengthUntil_pos {p : Char → Bool} {c : Char} {text : Text} (h : p c = false) :
    0 < lengthUntil p (c :: text) := by
  rw [lengthUntil_eq, List.takeWhile_cons_of_pos (by simp [h]), byteLength_cons]
  exact Nat.lt_of_lt_of_le c.utf8Size_pos (Nat.le_add_right ..)

theorem blockLength_pos {inner : Text} {total : Nat} (h : 0 < total) :
    0 < blockLength inner total := by
  unfold blockLength
  cases inner.find? ['*', '/'] with
  | none => exact h
  | some n => exact Nat.succ_pos _

/-- The end of a line is the first break, and the break is a blank. -/
theorem skipTriviaIn_line (line : Text) :
    Token.skipTriviaIn .line line = Token.skipTrivia (line.dropWhile (!isLineBreak ·)) := by
  induction line with
  | nil => rfl
  | cons c line ih =>
    rw [Token.skipTriviaIn]
    by_cases hc : isLineBreak c
    · have hslash : c ≠ '/' := fun h => absurd (h ▸ hc) (by decide)
      rw [if_pos hc, List.dropWhile_cons_of_neg (by simp [hc]), Token.skipTrivia,
        Token.skipTriviaIn]
      · rw [if_pos (isBlank_of_isLineBreak hc)]
      · exact fun _ h => absurd h hslash
      · exact fun _ h => absurd h hslash
    · rw [if_neg hc, List.dropWhile_cons_of_pos (by simp [hc])]
      exact ih

/-- The end of a block comment is the first `*/`. -/
theorem skipTriviaIn_block (offset : Nat) (block : Text) :
    (findFrom ['*', '/'] offset block = none ∧ Token.skipTriviaIn .block block = []) ∨
      ∃ inside rest, block = inside ++ '*' :: '/' :: rest ∧
        findFrom ['*', '/'] offset block = some (offset + byteLength inside) ∧
        Token.skipTriviaIn .block block = Token.skipTrivia rest := by
  induction block generalizing offset with
  | nil => exact .inl ⟨rfl, rfl⟩
  | cons c block ih =>
    by_cases hclose : ∃ rest, c = '*' ∧ block = '/' :: rest
    · obtain ⟨rest, rfl, rfl⟩ := hclose
      exact .inr ⟨[], rest, rfl, rfl, rfl⟩
    · have hopen : ¬ ['*', '/'].isPrefixOf (c :: block) = true := by
        rw [List.isPrefixOf_iff_prefix]
        rintro ⟨rest, heq⟩
        obtain ⟨rfl, rfl⟩ := List.cons.inj heq
        exact hclose ⟨rest, rfl, rfl⟩
      have hstep : Token.skipTriviaIn .block (c :: block) = Token.skipTriviaIn .block block := by
        rw [Token.skipTriviaIn]
        exact fun rest hc heq => hclose ⟨rest, hc, heq⟩
      rw [findFrom, if_neg hopen, hstep]
      refine (ih (offset + c.utf8Size)).imp id ?_
      rintro ⟨inside, rest, rfl, hfind, hskip⟩
      exact ⟨c :: inside, rest, rfl, by rw [hfind, byteLength_cons, Nat.add_assoc], hskip⟩

/-! ## Bytes -/

/-- The bytes of the UTF-8 form. -/
def bytes (text : Text) : List UInt8 := text.flatMap String.utf8EncodeChar

/-- The byte at an offset. -/
def byteAt (text : Text) (offset : Nat) : Checked UInt8 :=
  match text.bytes[offset]? with
  | some byte => .ok byte
  | none => .error ⟨⟨offset, offset + 1⟩⟩

/-- The number of bytes between two offsets, which must be in order. -/
def lengthBetween (start stop : Nat) : Checked Nat :=
  if start ≤ stop then .ok (stop - start) else .error ⟨⟨start, stop⟩⟩

theorem length_bytes (text : Text) : text.bytes.length = text.byteLength := by
  induction text with
  | nil => rfl
  | cons c text ih => simp [bytes, ← ih]

/-- A character has the byte of its own, or else only bytes beyond the first 128. -/
theorem utf8EncodeChar_cases (c : Char) :
    (c.val.toNat ≤ 127 ∧ String.utf8EncodeChar c = [UInt8.ofNat c.val.toNat]) ∨
      (127 < c.val.toNat ∧ ∀ byte ∈ String.utf8EncodeChar c, 127 < byte.toNat) := by
  by_cases hc : c.val.toNat ≤ 127
  · exact .inl ⟨hc, by rw [String.utf8EncodeChar, if_pos hc]⟩
  · refine .inr ⟨Nat.lt_of_not_le hc, ?_⟩
    have hbyte : ∀ n m : Nat, 128 ≤ m → n + m < 256 → 127 < (UInt8.ofNat (n + m)).toNat := by
      intro n m hm hn
      rw [UInt8.toNat_ofNat', Nat.mod_eq_of_lt hn]
      omega
    simp only [String.utf8EncodeChar, if_neg hc]
    split
    · simp only [List.mem_cons, List.not_mem_nil, or_false, forall_eq_or_imp, forall_eq]
      exact ⟨hbyte _ _ (by omega) (by omega), hbyte _ _ (by omega) (by omega)⟩
    · split
      · simp only [List.mem_cons, List.not_mem_nil, or_false, forall_eq_or_imp, forall_eq]
        exact ⟨hbyte _ _ (by omega) (by omega), hbyte _ _ (by omega) (by omega),
          hbyte _ _ (by omega) (by omega)⟩
      · simp only [List.mem_cons, List.not_mem_nil, or_false, forall_eq_or_imp, forall_eq]
        exact ⟨hbyte _ _ (by omega) (by omega), hbyte _ _ (by omega) (by omega),
          hbyte _ _ (by omega) (by omega), hbyte _ _ (by omega) (by omega)⟩

theorem utf8Size_of_ascii {q : Char} (hq : q.val.toNat ≤ 127) : q.utf8Size = 1 := by
  rw [Char.utf8Size_eq_one_iff, UInt32.le_iff_toNat_le]
  exact hq

theorem byte_eq_iff {c q : Char} {byte : UInt8} (hq : q.val.toNat ≤ 127)
    (hbyte : byte ∈ String.utf8EncodeChar c) : byte = q.toUInt8 ↔ c = q := by
  have hqbyte : q.toUInt8.toNat = q.val.toNat := Nat.mod_eq_of_lt (by omega)
  rw [← UInt8.toNat_inj, hqbyte, Char.ext_iff, ← UInt32.toNat_inj]
  cases utf8EncodeChar_cases c with
  | inl hc =>
    rw [hc.2, List.mem_singleton] at hbyte
    rw [hbyte, UInt8.toNat_ofNat', Nat.mod_eq_of_lt (by omega)]
  | inr hc =>
    have := hc.2 byte hbyte
    omega

theorem isDigit_iff {c : Char} {byte : UInt8} (hbyte : byte ∈ String.utf8EncodeChar c) :
    '0'.toUInt8 ≤ byte ∧ byte ≤ '9'.toUInt8 ↔ c.isDigit = true := by
  have hdigit : c.isDigit = true ↔ 48 ≤ c.val.toNat ∧ c.val.toNat ≤ 57 := by
    simp [Char.isDigit, UInt32.le_iff_toNat_le]
  have hrange : '0'.toUInt8 ≤ byte ∧ byte ≤ '9'.toUInt8 ↔ 48 ≤ byte.toNat ∧ byte.toNat ≤ 57 := by
    simp only [UInt8.le_iff_toNat_le]
    exact Iff.rfl
  rw [hdigit, hrange]
  cases utf8EncodeChar_cases c with
  | inl hc =>
    rw [hc.2, List.mem_singleton] at hbyte
    rw [hbyte, UInt8.toNat_ofNat', Nat.mod_eq_of_lt (by omega)]
  | inr hc =>
    have := hc.2 byte hbyte
    omega

section Cursor

variable {text mid rest : Text} {c : Char} {stop pos : Nat}

theorem slice_advance {a b : Text} (h : text.slice ⟨pos, stop⟩ = .ok (a ++ b)) :
    text.slice ⟨pos + byteLength a, stop⟩ = .ok b := by
  obtain ⟨front, back, rfl, hfront, hstop⟩ := slice_eq_ok_iff.1 h
  refine slice_eq_ok_iff.2 ⟨front ++ a, back, by simp, ?_, ?_⟩
  · simpa using hfront
  · simp only [byteLength_append] at hstop ⊢
    omega

theorem stop_eq_of_slice (h : text.slice ⟨pos, stop⟩ = .ok mid) : stop = pos + byteLength mid := by
  obtain ⟨front, back, rfl, hfront, hstop⟩ := slice_eq_ok_iff.1 h
  simp only at hfront hstop
  omega

/-- The bytes from an offset on are those of the character that stands there. -/
theorem exists_byteAt (h : text.slice ⟨pos, stop⟩ = .ok (c :: rest)) {k : Nat}
    (hk : k < c.utf8Size) :
    ∃ byte ∈ String.utf8EncodeChar c, text.byteAt (pos + k) = .ok byte := by
  obtain ⟨front, back, rfl, rfl, -⟩ := slice_eq_ok_iff.1 h
  have hlt : k < (String.utf8EncodeChar c).length := by rwa [String.length_utf8EncodeChar]
  refine ⟨(String.utf8EncodeChar c)[k], List.getElem_mem hlt, ?_⟩
  have hbytes : (front ++ c :: rest ++ back).bytes[byteLength front + k]? =
      some (String.utf8EncodeChar c)[k] := by
    rw [bytes, List.append_assoc, List.flatMap_append, ← bytes, ← length_bytes,
      List.getElem?_append_right (Nat.le_add_right ..), Nat.add_sub_cancel_left, List.cons_append,
      List.flatMap_cons, List.getElem?_append_left hlt, List.getElem?_eq_getElem hlt]
  rw [byteAt, hbytes]

/-! ## Blanks and comments -/

/-- The offset of what follows the blanks and comments from an offset on. -/
def skipTriviaFrom (text : Text) (stop pos : Nat) : Checked Nat :=
  if pos < stop then
    match text.slice ⟨pos, stop⟩ with
    | .error cut => .error cut
    | .ok [] => .ok pos
    | .ok ('/' :: '/' :: line) =>
      skipTriviaFrom text stop (pos + lengthUntil isLineBreak ('/' :: '/' :: line))
    | .ok ('/' :: '*' :: block) =>
      match sliceFrom ('/' :: '*' :: block) 2 with
      | .error cut => .error cut
      | .ok inner =>
        skipTriviaFrom text stop (pos + blockLength inner (byteLength ('/' :: '*' :: block)))
    | .ok (c :: _) => if isBlank c then skipTriviaFrom text stop (pos + c.utf8Size) else .ok pos
  else .ok pos
termination_by stop - pos
decreasing_by
  · have := @lengthUntil_pos isLineBreak '/' ('/' :: line) (by decide)
    omega
  · have hpos : 0 < byteLength ('/' :: '*' :: block) :=
      Nat.lt_of_lt_of_le ('/').utf8Size_pos (Nat.le_add_right ..)
    have := @blockLength_pos inner _ hpos
    omega
  · have := c.utf8Size_pos
    omega

/-- Skipping by offsets skips what the probe skips. -/
theorem exists_skipTriviaFrom (h : text.slice ⟨pos, stop⟩ = .ok mid) :
    ∃ next, text.skipTriviaFrom stop pos = .ok next ∧
      text.slice ⟨next, stop⟩ = .ok (Token.skipTrivia mid) := by
  fun_induction skipTriviaFrom text stop pos generalizing mid with
  | case1 pos hlt cut hcut => rw [hcut] at h; cases h
  | case2 pos hlt hnil =>
    rw [hnil] at h
    obtain rfl := Except.ok.inj h
    exact ⟨pos, rfl, hnil⟩
  | case3 pos hlt line hline ih =>
    rw [hline] at h
    obtain rfl := Except.ok.inj h
    -- the comment reaches to the end of its line
    have hsplit : '/' :: '/' :: line = ('/' :: '/' :: line).takeWhile (!isLineBreak ·) ++
        line.dropWhile (!isLineBreak ·) := by
      simp [isLineBreak]
    rw [hsplit] at hline
    have hnext := slice_advance hline
    rw [← lengthUntil_eq] at hnext
    have hskip := ih hnext
    rwa [← skipTriviaIn_line] at hskip
  | case4 pos hlt block hblock cut hcut =>
    cases (sliceFrom_append ['/', '*'] block).symm.trans hcut
  | case5 pos hlt block hblock inner hinner ih =>
    rw [hblock] at h
    obtain rfl := Except.ok.inj h
    obtain rfl := Except.ok.inj ((sliceFrom_append ['/', '*'] block).symm.trans hinner)
    cases skipTriviaIn_block 0 block with
    | inl hopen =>
      -- an open comment reaches to the end
      have hnext := @slice_advance text stop pos ('/' :: '*' :: block) [] (by simpa using hblock)
      rw [blockLength, find?, hopen.1] at ih ⊢
      obtain ⟨next, hskip, hslice⟩ := ih hnext
      exact ⟨next, hskip, hslice.trans (congrArg Except.ok hopen.2.symm)⟩
    | inr hclosed =>
      obtain ⟨inside, rest, rfl, hfind, hskip⟩ := hclosed
      have hnext := @slice_advance text stop pos (['/', '*'] ++ inside ++ ['*', '/']) rest
        (by simpa using hblock)
      have hlength : blockLength (inside ++ '*' :: '/' :: rest)
          (byteLength ('/' :: '*' :: (inside ++ '*' :: '/' :: rest))) =
          byteLength (['/', '*'] ++ inside ++ ['*', '/']) := by
        rw [blockLength, find?, hfind]
        simp only [Option.map_some, Option.getD_some, byteLength_append]
        show 0 + byteLength inside + 4 = 2 + byteLength inside + 2
        omega
      rw [hlength] at ih ⊢
      obtain ⟨next, hfrom, hslice⟩ := ih hnext
      exact ⟨next, hfrom, hslice.trans (congrArg Except.ok hskip.symm)⟩
  | case6 pos hlt c tail hline hblock hslice hblank ih =>
    rw [hslice] at h
    obtain rfl := Except.ok.inj h
    have hnext := @slice_advance text stop pos [c] tail hslice
    have hskip : Token.skipTrivia (c :: tail) = Token.skipTrivia tail := by
      rw [Token.skipTrivia, Token.skipTriviaIn, if_pos hblank, Token.skipTrivia]
      · exact hline
      · exact hblock
    rw [hskip]
    exact ih hnext
  | case7 pos hlt c tail hline hblock hslice hblank =>
    rw [hslice] at h
    obtain rfl := Except.ok.inj h
    refine ⟨pos, rfl, hslice.trans ?_⟩
    rw [Token.skipTrivia, Token.skipTriviaIn, if_neg hblank]
    · exact hline
    · exact hblock
  | case8 pos hle =>
    have hstop := stop_eq_of_slice h
    obtain rfl : mid = [] := (byteLength_eq_zero_iff mid).1 (by omega)
    exact ⟨pos, rfl, h⟩

/-! ## Quotes -/

/-- The offset behind the closing quote, from an offset inside the quotes on. -/
def scanQuotedFrom (text : Text) (stop : Nat) (quote : UInt8) (pos : Nat) : Checked Nat :=
  if pos < stop then
    match text.byteAt pos with
    | .error cut => .error cut
    | .ok byte =>
      if byte = '\\'.toUInt8 then scanQuotedFrom text stop quote (pos + 2)
      else if byte = quote then .ok (pos + 1)
      else scanQuotedFrom text stop quote (pos + 1)
  else .ok stop
termination_by stop - pos

variable {quote : UInt8}

/-- Bytes that are neither a backslash nor the quote are passed. -/
theorem scanQuotedFrom_pass {n : Nat} (hle : pos ≤ n) (hstop : n ≤ stop)
    (hbytes : ∀ k, pos ≤ k → k < n →
      ∃ byte, text.byteAt k = .ok byte ∧ byte ≠ '\\'.toUInt8 ∧ byte ≠ quote) :
    text.scanQuotedFrom stop quote pos = text.scanQuotedFrom stop quote n := by
  induction n, hle using Nat.le_induction with
  | base => rfl
  | succ n hn ih =>
    obtain ⟨byte, hbyte, hslash, hquote⟩ := hbytes n hn (Nat.lt_succ_self n)
    rw [ih (by omega) fun k hk hkn => hbytes k hk (by omega), scanQuotedFrom, if_pos (by omega),
      hbyte]
    simp only [if_neg hslash, if_neg hquote]

section Quote

variable {q : Char} (hq : q.val.toNat ≤ 127)

include hq

theorem scanQuotedFrom_cons (h : text.slice ⟨pos, stop⟩ = .ok (c :: rest)) :
    text.scanQuotedFrom stop q.toUInt8 pos =
      if c = '\\' then text.scanQuotedFrom stop q.toUInt8 (pos + 2)
      else if c = q then .ok (pos + 1)
      else text.scanQuotedFrom stop q.toUInt8 (pos + 1) := by
  have hlt : pos < stop := by
    have := stop_eq_of_slice h
    have := c.utf8Size_pos
    simp only [byteLength_cons] at *
    omega
  obtain ⟨byte, hmem, hbyte⟩ := exists_byteAt h c.utf8Size_pos
  rw [Nat.add_zero] at hbyte
  rw [scanQuotedFrom, if_pos hlt, hbyte]
  simp only [byte_eq_iff hq hmem, byte_eq_iff (show ('\\').val.toNat ≤ 127 by decide) hmem]

/-- The second byte of a character and those that follow are passed. -/
theorem scanQuotedFrom_inside (h : text.slice ⟨pos, stop⟩ = .ok (c :: rest)) :
    text.scanQuotedFrom stop q.toUInt8 (pos + 1) =
      text.scanQuotedFrom stop q.toUInt8 (pos + c.utf8Size) := by
  have hstop := stop_eq_of_slice h
  have hpos := c.utf8Size_pos
  rw [byteLength_cons] at hstop
  refine scanQuotedFrom_pass (by omega) (by omega) fun k hk hkn => ?_
  obtain ⟨byte, hmem, hbyte⟩ := exists_byteAt h (show k - pos < c.utf8Size by omega)
  rw [show pos + (k - pos) = k by omega] at hbyte
  refine ⟨byte, hbyte, ?_⟩
  have hqbyte : q.toUInt8.toNat = q.val.toNat := Nat.mod_eq_of_lt (by omega)
  cases utf8EncodeChar_cases c with
  | inl hc =>
    -- such a character has no second byte
    have hsize := String.length_utf8EncodeChar c
    rw [hc.2, List.length_singleton] at hsize
    omega
  | inr hc =>
    have hbig := hc.2 byte hmem
    refine ⟨fun heq => ?_, fun heq => ?_⟩
    · rw [heq] at hbig
      exact absurd hbig (by decide)
    · rw [heq, hqbyte] at hbig
      omega

/-- Reading the inside of quotes byte by byte ends where reading it by characters does. -/
theorem exists_scanQuotedFrom (hne : q ≠ '\\') (h : text.slice ⟨pos, stop⟩ = .ok mid) :
    ∃ next, text.scanQuotedFrom stop q.toUInt8 pos = .ok next ∧
      text.slice ⟨next, stop⟩ = .ok (Token.afterQuoted q mid) := by
  -- an offset at or behind the end is not read any more
  have hover : ∀ {n : Nat}, stop ≤ n → text.scanQuotedFrom stop q.toUInt8 n = .ok stop := by
    intro n hn
    rw [scanQuotedFrom, if_neg (by omega)]
  fun_induction Token.afterQuoted q mid generalizing pos with
  | case1 =>
    obtain rfl : stop = pos := stop_eq_of_slice h
    exact ⟨stop, hover (Nat.le_refl stop), h⟩
  | case2 d rest ih =>
    have hsecond : text.slice ⟨pos + 1, stop⟩ = .ok (d :: rest) :=
      @slice_advance text stop pos ['\\'] (d :: rest) h
    rw [scanQuotedFrom_cons hq h, if_pos rfl, scanQuotedFrom_inside hq hsecond]
    exact ih (@slice_advance text stop _ [d] rest hsecond)
  | case3 rest hlone =>
    have hnext := @slice_advance text stop pos [q] rest h
    rw [byteLength_cons, byteLength_nil, utf8Size_of_ascii hq] at hnext
    rw [scanQuotedFrom_cons hq h, if_neg hne, if_pos rfl]
    exact ⟨pos + 1, rfl, hnext⟩
  | case4 c rest hesc hc ih =>
    rw [scanQuotedFrom_cons hq h]
    by_cases hslash : c = '\\'
    · -- a backslash at the end hides nothing
      subst hslash
      obtain rfl : rest = [] := by
        cases rest with
        | nil => rfl
        | cons d rest => exact absurd rfl (hesc d rest rfl)
      have hstop : stop = pos + 1 := stop_eq_of_slice h
      have hnext : text.slice ⟨pos + 1, stop⟩ = .ok [] :=
        @slice_advance text stop pos ['\\'] [] h
      rw [if_pos rfl, hover (by omega)]
      exact ⟨stop, rfl, by rw [← hstop] at hnext; exact hnext⟩
    · rw [if_neg hslash, if_neg hc, scanQuotedFrom_inside hq h]
      exact ih (@slice_advance text stop pos [c] rest h)

theorem exists_scanQuoted_of_cons (hne : q ≠ '\\') (h : text.slice ⟨pos, stop⟩ = .ok (q :: rest)) :
    ∃ next, text.scanQuotedFrom stop q.toUInt8 (pos + 1) = .ok next ∧
      text.slice ⟨next, stop⟩ = .ok (Token.afterQuoted q rest) := by
  have hnext := @slice_advance text stop pos [q] rest h
  rw [byteLength_cons, byteLength_nil, utf8Size_of_ascii hq] at hnext
  exact exists_scanQuotedFrom hq hne hnext

end Quote

/-! ## Tokens -/

theorem lengthBetween_of_slice (h : text.slice ⟨pos, stop⟩ = .ok mid) :
    lengthBetween pos stop = .ok (byteLength mid) := by
  rw [stop_eq_of_slice h, lengthBetween, if_pos (Nat.le_add_right ..), Nat.add_sub_cancel_left]

theorem slice_lengthUntil (h : text.slice ⟨pos, stop⟩ = .ok mid) (p : Char → Bool) :
    text.slice ⟨pos + lengthUntil (!p ·) mid, stop⟩ = .ok (mid.dropWhile p) := by
  rw [lengthUntil_eq]
  simp only [Bool.not_not]
  refine slice_advance (h.trans (congrArg Except.ok ?_))
  exact List.takeWhile_append_dropWhile.symm

/-- The kind of the token that starts at an offset, and the offset behind it. -/
def scanTokenFrom (text : Text) (stop pos : Nat) : Checked (TokenKind × Nat) := do
  let first ← text.byteAt pos
  if first = '\''.toUInt8 ∨ first = '"'.toUInt8 then
    let next ← text.scanQuotedFrom stop first (pos + 1)
    return (.string, next)
  else if first = '`'.toUInt8 then
    let next ← text.scanQuotedFrom stop '`'.toUInt8 (pos + 1)
    return (.template, next)
  else if '0'.toUInt8 ≤ first ∧ first ≤ '9'.toUInt8 then
    let rest ← text.slice ⟨pos, stop⟩
    let length ← lengthBetween pos stop
    return (.numeric, pos + (findChar? (!Token.isNumberPart ·) rest).getD length)
  else
    let rest ← text.slice ⟨pos, stop⟩
    let c := rest.head?.getD ' '
    if Token.isNameStart c then
      let length ← lengthBetween pos stop
      return (.identifier, pos + (findChar? (!Token.isNamePart ·) rest).getD length)
    else return (.punctuator, pos + c.utf8Size)

theorem exists_scanTokenFrom (h : text.slice ⟨pos, stop⟩ = .ok (c :: rest)) :
    ∃ next, text.scanTokenFrom stop pos = .ok (Token.kindOf c, next) ∧
      text.slice ⟨next, stop⟩ = .ok (Token.afterToken c rest) := by
  obtain ⟨first, hmem, hfirst⟩ := exists_byteAt h c.utf8Size_pos
  rw [Nat.add_zero] at hfirst
  rw [scanTokenFrom, hfirst, Checked.ok_bind]
  simp only [byte_eq_iff (show ('\'').val.toNat ≤ 127 by decide) hmem,
    byte_eq_iff (show ('"').val.toNat ≤ 127 by decide) hmem,
    byte_eq_iff (show ('`').val.toNat ≤ 127 by decide) hmem, isDigit_iff hmem, h,
    lengthBetween_of_slice h, Checked.ok_bind, List.head?_cons, Option.getD_some]
  -- the byte that is read first gives the kind of the token away
  by_cases hquote : c = '\'' ∨ c = '"'
  · have hascii : c.val.toNat ≤ 127 := by rcases hquote with rfl | rfl <;> decide
    have hkind : Token.kindOf c = .string := by simp [Token.kindOf, hquote]
    obtain ⟨next, hscan, hnext⟩ := exists_scanQuoted_of_cons hascii
      (by rcases hquote with rfl | rfl <;> decide) h
    rw [if_pos hquote, (byte_eq_iff hascii hmem).2 rfl, hscan, hkind]
    exact ⟨next, rfl, by rw [Token.afterToken, hkind]; exact hnext⟩
  · rw [if_neg hquote]
    by_cases hback : c = '`'
    · have hkind : Token.kindOf c = .template := by simp [hback, Token.kindOf]
      obtain ⟨next, hscan, hnext⟩ := exists_scanQuoted_of_cons (by rw [hback]; decide)
        (by rw [hback]; decide) h
      rw [if_pos hback, ← hback, hscan, hkind]
      exact ⟨next, rfl, by rw [Token.afterToken, hkind]; exact hnext⟩
    · rw [if_neg hback]
      by_cases hdigit : c.isDigit = true
      · have hkind : Token.kindOf c = .numeric := by
          simp_all [Token.kindOf]
        have hpart : Token.isNumberPart c = true := by
          simp [Token.isNumberPart, Char.isAlphanum, hdigit]
        have hnext := slice_lengthUntil h Token.isNumberPart
        rw [List.dropWhile_cons_of_pos hpart] at hnext
        rw [if_pos hdigit, hkind]
        exact ⟨_, rfl, by rw [Token.afterToken, hkind]; exact hnext⟩
      · rw [if_neg hdigit]
        by_cases hname : Token.isNameStart c = true
        · have hkind : Token.kindOf c = .identifier := by
            simp_all [Token.kindOf]
          have hpart : Token.isNamePart c = true := by
            simp [Token.isNamePart, hname]
          have hnext := slice_lengthUntil h Token.isNamePart
          rw [List.dropWhile_cons_of_pos hpart] at hnext
          simp only [hname, if_true, hkind]
          exact ⟨_, rfl, by rw [Token.afterToken, hkind]; exact hnext⟩
        · have hkind : Token.kindOf c = .punctuator := by
            simp_all [Token.kindOf]
          have hnext := @slice_advance text stop pos [c] rest h
          simp only [hname, if_false, hkind, Bool.false_eq_true]
          exact ⟨_, rfl, by rw [Token.afterToken, hkind]; exact hnext⟩

/-- The first token from an offset on, if there is one. -/
def nextTokenFrom (text : Text) (stop pos : Nat) : Checked (Option (TokenKind × Nat)) := do
  let start ← text.skipTriviaFrom stop pos
  if stop ≤ start then return none
  else
    let token ← text.scanTokenFrom stop start
    return some token

/-- The kind of the token with the given index from an offset on. -/
def tokenFrom (text : Text) (stop : Nat) : (index pos : Nat) → Checked (Option TokenKind)
  | 0, pos => (Option.map Prod.fst) <$> text.nextTokenFrom stop pos
  | index + 1, pos => do
    match ← text.nextTokenFrom stop pos with
    | none => return none
    | some (_, next) => tokenFrom text stop index next

theorem nextTokenFrom_of_nil (h : text.slice ⟨pos, stop⟩ = .ok mid)
    (hnil : Token.skipTrivia mid = []) : text.nextTokenFrom stop pos = .ok none := by
  obtain ⟨start, hskip, hstart⟩ := exists_skipTriviaFrom h
  rw [hnil] at hstart
  have hstop : stop = start := stop_eq_of_slice hstart
  rw [nextTokenFrom, hskip, Checked.ok_bind, if_pos (Nat.le_of_eq hstop)]
  rfl

theorem exists_nextTokenFrom (h : text.slice ⟨pos, stop⟩ = .ok mid)
    (hcons : Token.skipTrivia mid = c :: rest) :
    ∃ next, text.nextTokenFrom stop pos = .ok (some (Token.kindOf c, next)) ∧
      text.slice ⟨next, stop⟩ = .ok (Token.afterToken c rest) := by
  obtain ⟨start, hskip, hstart⟩ := exists_skipTriviaFrom h
  rw [hcons] at hstart
  obtain ⟨next, hscan, hnext⟩ := exists_scanTokenFrom hstart
  have hlt : ¬ stop ≤ start := by
    have := stop_eq_of_slice hstart
    have := c.utf8Size_pos
    rw [byteLength_cons] at *
    omega
  refine ⟨next, ?_, hnext⟩
  rw [nextTokenFrom, hskip, Checked.ok_bind, if_neg hlt, hscan]
  rfl

theorem tokenFrom_eq (h : text.slice ⟨pos, stop⟩ = .ok mid) (index : Nat) :
    text.tokenFrom stop index pos = .ok (Token.kindAt index mid) := by
  induction index generalizing pos mid with
  | zero =>
    rw [tokenFrom, Token.kindAt]
    cases hskip : Token.skipTrivia mid with
    | nil => rw [nextTokenFrom_of_nil h hskip]; rfl
    | cons c rest =>
      obtain ⟨next, htoken, -⟩ := exists_nextTokenFrom h hskip
      rw [htoken]
      rfl
  | succ index ih =>
    rw [tokenFrom, Token.kindAt]
    cases hskip : Token.skipTrivia mid with
    | nil => rw [nextTokenFrom_of_nil h hskip]; rfl
    | cons c rest =>
      obtain ⟨next, htoken, hnext⟩ := exists_nextTokenFrom h hskip
      rw [htoken]
      exact ih hnext

end Cursor

/-- The kind of the token with the given index among the tokens of a span, read by offsets. -/
def probe (text : Text) (span : Span) (index : Nat) : Checked (Option TokenKind) :=
  text.tokenFrom (min span.stop text.byteLength) index span.start

/-- The probe by offsets finds what the probe of the span finds, and fails where that fails. -/
theorem probe_eq_tokenKind (text : Text) (span : Span) (index : Nat) :
    text.probe span index = text.tokenKind span index := by
  rw [probe, tokenKind]
  generalize min span.stop text.byteLength = stop
  by_cases hlt : span.start < stop
  · rw [if_pos hlt]
    cases h : text.slice ⟨span.start, stop⟩ with
    | ok mid => exact tokenFrom_eq h index
    | error cut =>
      have hskip : text.skipTriviaFrom stop span.start = .error cut := by
        rw [skipTriviaFrom, if_pos hlt, h]
      cases index <;> rw [tokenFrom, nextTokenFrom, hskip] <;> rfl
  · have hskip : text.skipTriviaFrom stop span.start = .ok span.start := by
      rw [skipTriviaFrom, if_neg hlt]
    have hnone : text.nextTokenFrom stop span.start = .ok none := by
      rw [nextTokenFrom, hskip, Checked.ok_bind, if_pos (Nat.le_of_not_lt hlt)]
      rfl
    rw [if_neg hlt]
    cases index <;> rw [tokenFrom, hnone] <;> rfl

end Text

end ImportOrder
