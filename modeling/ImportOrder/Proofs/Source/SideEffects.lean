import ImportOrder.Proofs.Source.Passage
import ImportOrder.Proofs.Text.Probe

/-!
# Side effects and empty braces

An import that binds no names is made for its side effects, `import 'a'`, or has empty braces,
`import {} from 'a'` and `import type {} from 'a'`. Only the token behind the keywords tells which,
and any blanks and comments may stand in front of it: comments that hold quotes, braces or the
opening of another comment, line comments up to either line terminator, spaces of several bytes. The
probe skips them all and arrives at that token.

## Main definitions

- `Token.IsTrivia`: the texts that are made of blanks and closed comments
- `ImportForm`, `ImportForm.Opens`: how the text of an import without names starts

## Main statements

- `Token.kindAt_trivia`, `Token.kindAt_name`: the probe behind trivia and behind a name
- `Source.classify_tells_empty_braces`
-/

namespace ImportOrder

namespace Token

open Character

variable {t rest : Text} {c : Char}

/-! ## Trivia -/

/-- Blanks, closed block comments and ended line comments, one behind the other. -/
inductive IsTrivia : Text → Prop where
  | nil : IsTrivia []
  | blank {c : Char} {t : Text} (hc : isBlank c = true) (ht : IsTrivia t) : IsTrivia (c :: t)
  | block {body t : Text} (hbody : ¬ ['*', '/'] <:+: body) (ht : IsTrivia t) :
      IsTrivia ('/' :: '*' :: (body ++ '*' :: '/' :: t))
  | line {body t : Text} {c : Char} (hbody : body.any isLineBreak = false)
      (hc : isLineBreak c = true) (ht : IsTrivia t) : IsTrivia ('/' :: '/' :: (body ++ c :: t))

theorem skipTrivia_blank (hc : isBlank c = true) (text : Text) :
    skipTrivia (c :: text) = skipTrivia text := by
  have hslash : c ≠ '/' := fun h => absurd (h ▸ hc) (by decide)
  rw [skipTrivia, skipTriviaIn, if_pos hc]
  · rfl
  · exact fun _ h => absurd h hslash
  · exact fun _ h => absurd h hslash

theorem skipTrivia_line {body : Text} (hbody : body.any isLineBreak = false)
    (hc : isLineBreak c = true) (rest : Text) :
    skipTrivia ('/' :: '/' :: (body ++ c :: rest)) = skipTrivia rest := by
  rw [skipTrivia, skipTriviaIn, Text.skipTriviaIn_line,
    List.dropWhile_append_of_pos (by simpa using hbody), List.dropWhile_cons_of_neg (by simp [hc]),
    skipTrivia_blank (isBlank_of_isLineBreak hc)]

theorem skipTrivia_block {body : Text} (hbody : ¬ ['*', '/'] <:+: body) (rest : Text) :
    skipTrivia ('/' :: '*' :: (body ++ '*' :: '/' :: rest)) = skipTrivia rest := by
  rw [skipTrivia, skipTriviaIn]
  induction body with
  | nil => rfl
  | cons c body ih =>
    -- the comment does not end at its first character, not even with the `*` of its end
    have hopen : ∀ text, c = '*' → body ++ '*' :: '/' :: rest = '/' :: text → False := by
      rintro text rfl heq
      cases body with
      | nil => exact absurd (List.cons.inj heq).1 (by decide)
      | cons d body =>
        obtain ⟨rfl, -⟩ := List.cons.inj heq
        exact hbody ⟨[], body, rfl⟩
    have hstep : skipTriviaIn .block (c :: (body ++ '*' :: '/' :: rest)) =
        skipTriviaIn .block (body ++ '*' :: '/' :: rest) := by
      rw [skipTriviaIn]
      exact hopen
    rw [List.cons_append, hstep]
    exact ih fun h => hbody (h.trans (List.suffix_cons c body).isInfix)

theorem skipTrivia_trivia (h : IsTrivia t) (rest : Text) :
    skipTrivia (t ++ rest) = skipTrivia rest := by
  induction h with
  | nil => rfl
  | blank hc _ ih => rw [List.cons_append, skipTrivia_blank hc, ih]
  | block hbody _ ih =>
    rw [List.cons_append, List.cons_append, List.append_assoc, List.cons_append, List.cons_append,
      skipTrivia_block hbody, ih]
  | line hbody hc _ ih =>
    rw [List.cons_append, List.cons_append, List.append_assoc, List.cons_append,
      skipTrivia_line hbody hc, ih]

/-- No blank is part of a name. -/
theorem isNamePart_of_isBlank (hc : isBlank c = true) : isNamePart c = false := by
  have hall : ∀ n ∈ [9, 10, 11, 12, 13, 0x20, 0x85, 0xA0, 0x1680, 0x2000, 0x2001, 0x2002, 0x2003,
      0x2004, 0x2005, 0x2006, 0x2007, 0x2008, 0x2009, 0x200A, 0x2028, 0x2029, 0x202F, 0x205F,
      0x3000, 0xFEFF], isNamePart (Char.ofNat n) = false := by decide +kernel
  rw [← Char.ofNat_toNat c]
  apply hall
  rw [isBlank, Bool.or_eq_true, beq_iff_eq] at hc
  rcases hc with hc | rfl
  · simp only [isWhiteSpace] at hc
    simp only [List.mem_cons, List.not_mem_nil, or_false]
    split at hc <;> simp only [Bool.or_eq_true, Bool.and_eq_true, beq_iff_eq,
      decide_eq_true_eq] at hc <;> omega
  · decide

theorem IsTrivia.isNamePart_head_of_ne_nil (h : IsTrivia t) (hne : t ≠ []) (rest : Text) :
    (t ++ rest).head?.any isNamePart = false := by
  have hslash : isNamePart '/' = false := by decide
  cases h with
  | nil => exact absurd rfl hne
  | blank hc _ => exact isNamePart_of_isBlank hc
  | block _ _ => exact hslash
  | line _ _ _ => exact hslash

theorem IsTrivia.isNamePart_head (h : IsTrivia t) (hc : isNamePart c = false) (rest : Text) :
    (t ++ c :: rest).head?.any isNamePart = false := by
  by_cases hne : t = []
  · rw [hne]
    exact hc
  · exact h.isNamePart_head_of_ne_nil hne _

/-! ## The probe -/

theorem kindAt_trivia (h : IsTrivia t) (index : Nat) (rest : Text) :
    kindAt index (t ++ rest) = kindAt index rest := by
  cases index <;> rw [kindAt, kindAt, skipTrivia_trivia h]

theorem skipTrivia_of_solid (hc : isBlank c = false) (hslash : c ≠ '/') (text : Text) :
    skipTrivia (c :: text) = c :: text := by
  rw [skipTrivia, skipTriviaIn, if_neg (Bool.eq_false_iff.1 hc)]
  · exact fun _ h => absurd h hslash
  · exact fun _ h => absurd h hslash

/-- The first token starts where the trivia end. -/
theorem kindAt_zero (ht : IsTrivia t) (hc : isBlank c = false) (hslash : c ≠ '/') (text : Text) :
    kindAt 0 (t ++ c :: text) = some (kindOf c) := by
  rw [kindAt_trivia ht, kindAt, skipTrivia_of_solid hc hslash]

theorem isNamePart_of_kindOf (h : kindOf c = .identifier) : isNamePart c = true := by
  have hstart : isNameStart c = true := by
    unfold kindOf at h
    split_ifs at h
    assumption
  rw [isNamePart, hstart, Bool.true_or, Bool.true_or, Bool.true_or]

/-- A name is one token, if what follows does not continue it. -/
theorem kindAt_name (c : Char) (name : Text) (hc : kindOf c = .identifier)
    (hname : name.all isNamePart = true) (hrest : rest.head?.any isNamePart = false)
    (index : Nat) : kindAt (index + 1) (c :: (name ++ rest)) = kindAt index rest := by
  have hpart := isNamePart_of_kindOf hc
  have hblank : isBlank c = false := by
    rw [Bool.eq_false_iff]
    intro hblank
    exact absurd (isNamePart_of_isBlank hblank) (by simp [hpart])
  have hslash : c ≠ '/' := fun h => absurd (h ▸ hpart) (by decide)
  have hafter : (name ++ rest).dropWhile isNamePart = rest := by
    rw [List.dropWhile_append_of_pos (List.all_eq_true.1 hname)]
    cases rest with
    | nil => rfl
    | cons d rest => exact List.dropWhile_cons_of_neg (by simpa using hrest)
  rw [kindAt, skipTrivia_of_solid hblank hslash]
  simp only [afterToken, hc, hafter]

end Token

/-- How the text of an import without names starts. -/
inductive ImportForm where
  /-- With `import` and a quote. -/
  | quote
  /-- With `import` and a brace. -/
  | brace
  /-- With `import type` and a brace. -/
  | typeBrace
deriving DecidableEq, Repr

namespace ImportForm

open Token

/-- The category of such an import. -/
def category : ImportForm → Category
  | quote => .moduleImport
  | brace => .valueImport
  | typeBrace => .typeImport

/-- Whether it is an import of types. -/
def typeOnly : ImportForm → Bool
  | typeBrace => true
  | _ => false

/-- The texts of imports of each form: trivia may stand behind each keyword, and must stand between
the two. -/
inductive Opens : ImportForm → Text → Prop where
  | quote {t : Text} {q : Char} (ht : IsTrivia t) (hq : q = '\'' ∨ q = '"') (rest : Text) :
      Opens quote ("import".toList ++ (t ++ q :: rest))
  | brace {t : Text} (ht : IsTrivia t) (rest : Text) :
      Opens brace ("import".toList ++ (t ++ '{' :: rest))
  | typeBrace {t u : Text} (ht : IsTrivia t) (hne : t ≠ []) (hu : IsTrivia u) (rest : Text) :
      Opens typeBrace ("import".toList ++ (t ++ ("type".toList ++ (u ++ '{' :: rest))))

theorem kindAt_import {rest : Text} (h : rest.head?.any isNamePart = false) (index : Nat) :
    kindAt (index + 1) ("import".toList ++ rest) = kindAt index rest :=
  kindAt_name 'i' "mport".toList (by decide) (by decide) h index

theorem kindAt_type {rest : Text} (h : rest.head?.any isNamePart = false) (index : Nat) :
    kindAt (index + 1) ("type".toList ++ rest) = kindAt index rest :=
  kindAt_name 't' "ype".toList (by decide) (by decide) h index

/-- The token behind the keywords is a brace exactly if the import has braces. -/
theorem Opens.kindAt_eq {form : ImportForm} {part : Text} (h : form.Opens part) :
    kindAt (if form.typeOnly then 2 else 1) part =
      some (if form = .quote then .string else .punctuator) := by
  cases h with
  | @quote t q ht hq rest =>
    have hplain : isNamePart q = false ∧ Character.isBlank q = false ∧ q ≠ '/' ∧
        kindOf q = .string := by
      rcases hq with rfl | rfl <;> decide
    obtain ⟨hname, hblank, hslash, hkind⟩ := hplain
    rw [← hkind]
    exact (kindAt_import (ht.isNamePart_head hname rest) 0).trans
      (kindAt_zero ht hblank hslash rest)
  | @brace t ht rest =>
    exact (kindAt_import (ht.isNamePart_head (by decide) rest) 0).trans
      (kindAt_zero ht (by decide) (by decide) rest)
  | @typeBrace t u ht hne hu rest =>
    calc kindAt 2 ("import".toList ++ (t ++ ("type".toList ++ (u ++ '{' :: rest))))
        = kindAt 1 (t ++ ("type".toList ++ (u ++ '{' :: rest))) :=
          kindAt_import (ht.isNamePart_head_of_ne_nil hne _) 1
      _ = kindAt 1 ("type".toList ++ (u ++ '{' :: rest)) := kindAt_trivia ht 1 _
      _ = kindAt 0 (u ++ '{' :: rest) := kindAt_type (hu.isNamePart_head (by decide) rest) 0
      _ = some .punctuator := kindAt_zero hu (by decide) (by decide) rest

end ImportForm

namespace Source

open Token ImportForm

variable {source : Source} {s : Statement} {front part back : Text} {form : ImportForm}

/-- An import without names is made for its side effects if a quote comes first, and imports values
or types if braces come first, whatever blanks and comments stand in between and wherever in a text
the import stands. -/
theorem classify_tells_empty_braces (hkind : s.kind = .importDecl) (hnames : s.specifiers = 0)
    (htype : s.typeOnly = form.typeOnly) (htext : source.text = front ++ part ++ back)
    (hspan : s.span = ⟨Text.byteLength front, Text.byteLength front + Text.byteLength part⟩)
    (hopens : form.Opens part) :
    source.classify s = .ok form.category ∧
      (source.classify s = .ok .moduleImport ↔ form = .quote) := by
  have hslice : source.text.slice? s.span = some part := by
    rw [htext, hspan]
    exact Text.slice?_append front part back
  have hmodule : source.isModuleImport s = .ok (form == .quote) := by
    rw [isModuleImport_of_slice? hslice, hnames, htype, hopens.kindAt_eq]
    cases form <;> rfl
  have hclassify : source.classify s = .ok form.category := by
    rw [classify, hkind]
    simp only [hmodule, Checked.ok_bind, htype]
    cases form <;> rfl
  refine ⟨hclassify, ?_⟩
  rw [hclassify]
  cases form <;> decide

/-- An import whose comments hold a brace, quotes and the openings of further comments. -/
def disguised : Text := "import/*/ \x7b\" // */\u3000// \x7b\r'a';".toList

theorem disguised_is_module_import :
    ImportForm.quote.Opens disguised ∧
      Source.classify ⟨"é;".toList ++ disguised ++ "\n".toList, [], []⟩
        ⟨.importDecl, 0, false, some "a", ⟨3, 33⟩⟩ = .ok .moduleImport := by
  have hbody : " \x7b".toList.any Character.isLineBreak = false := by decide
  have hline := IsTrivia.line hbody (by decide : Character.isLineBreak '\r' = true) .nil
  have hblock : ¬ ['*', '/'] <:+: "/ \x7b\" // ".toList := by decide +kernel
  have hspace : Character.isBlank '\u3000' = true := by decide
  have htrivia := IsTrivia.block hblock (.blank hspace hline)
  have hopens : ImportForm.quote.Opens disguised := .quote htrivia (.inl rfl) "a';".toList
  have hlength : disguised.byteLength = 30 := by decide
  refine ⟨hopens, ?_⟩
  exact (classify_tells_empty_braces rfl rfl rfl rfl (by rw [hlength]; rfl) hopens).1

end Source

end ImportOrder
