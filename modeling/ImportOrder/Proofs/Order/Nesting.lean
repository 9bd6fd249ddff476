import ImportOrder.ModulePath
import Mathlib.Data.List.Infix

/-!
# How far a path climbs

The nesting of a relative path is read off its cleaned form. Here it is told by a walk: a name leads
one step down, `..` leads one step up, and the path climbs as high as the walk gets above its start.
The two agree because the cleaned path is at every moment of the walk as many `..` as the walk has
climbed so far, followed by as many names as it has come down again.

## Main definitions

- `ModulePath.depths`, `ModulePath.finalDepth`, `ModulePath.highest`: the walk
- `ModulePath.normalized`, `ModulePath.leadingParents`: the cleaned path as a text
- `ModulePath.Stands`: the cleaned path at a moment of the walk

## Main statements

- `ModulePath.Stands.push`, `ModulePath.Stands.foldl_push`: a step and a run of the walk
- `ModulePath.climb_eq_leadingParents`: the climb is the number of `../` of the cleaned text
- `ModulePath.nesting_measures_climb`
-/

namespace ImportOrder

namespace Text

variable {separator : Char} {text piece : Text} {pieces : List Text}

theorem notMem_of_mem_splitAt (h : piece ∈ splitAt separator text) : separator ∉ piece := by
  induction text generalizing piece with
  | nil =>
    obtain rfl : piece = [] := by simpa [splitAt] using h
    exact List.not_mem_nil
  | cons c text ih =>
    rw [splitAt] at h
    by_cases hc : c = separator
    · rw [if_pos hc] at h
      cases List.mem_cons.1 h with
      | inl hnil => exact hnil ▸ List.not_mem_nil
      | inr hmem => exact ih hmem
    · rw [if_neg hc] at h
      cases hsplit : splitAt separator text with
      | nil => exact absurd hsplit (splitAt_ne_nil separator text)
      | cons first rest =>
        rw [hsplit] at ih h
        cases List.mem_cons.1 h with
        | inl hfirst =>
          rw [hfirst, List.mem_cons, not_or]
          exact ⟨fun heq => hc heq.symm, ih List.mem_cons_self⟩
        | inr hmem => exact ih (List.mem_cons_of_mem first hmem)

theorem joinWith_append_nil (hne : pieces ≠ []) :
    joinWith separator (pieces ++ [[]]) = joinWith separator pieces ++ [separator] := by
  induction pieces with
  | nil => exact absurd rfl hne
  | cons piece pieces ih =>
    cases pieces with
    | nil => rfl
    | cons next pieces =>
      have ih := ih (List.cons_ne_nil next pieces)
      simp only [List.cons_append, joinWith] at ih ⊢
      rw [ih, List.append_assoc, List.cons_append]

theorem joinWith_ne_nil (hne : pieces ≠ []) (h : ∀ piece ∈ pieces, piece ≠ []) :
    joinWith separator pieces ≠ [] := by
  fun_cases joinWith separator pieces with
  | case1 => exact absurd rfl hne
  | case2 piece => exact h piece List.mem_cons_self
  | case3 piece next pieces => simp

/-- A text made of pieces that are not empty does not end with the separator. -/
theorem getLast?_joinWith_ne (h : ∀ piece ∈ pieces, piece ≠ [] ∧ separator ∉ piece) :
    (joinWith separator pieces).getLast? ≠ some separator := by
  fun_induction joinWith separator pieces with
  | case1 => exact nofun
  | case2 piece =>
    intro hlast
    exact (h piece List.mem_cons_self).2 (List.mem_of_getLast? hlast)
  | case3 piece next pieces ih =>
    have h' := fun p hp => h p (List.mem_cons_of_mem piece hp)
    have hrest : joinWith separator (next :: pieces) ≠ [] :=
      joinWith_ne_nil (List.cons_ne_nil next pieces) fun p hp => (h' p hp).1
    rw [List.getLast?_append_of_ne_nil _ (List.cons_ne_nil separator _),
      ← List.singleton_append, List.getLast?_append_of_ne_nil _ hrest]
    exact ih h'

end Text

namespace ModulePath

/-- The segment that leads to the directory above. -/
def parent : Text := ['.', '.']

/-- The segments of a path other than the empty ones and `.`. -/
def segments (path : Text) : List Text :=
  (Text.splitAt '/' path).filter fun segment => segment ≠ [] ∧ segment ≠ ['.']

/-- The step that a segment makes: up for `..`, down for a name. -/
def stride (segment : Text) : Int := if segment = parent then -1 else 1

/-- The depths that are reached on the way along segments. -/
def depthsFrom : (depth : Int) → List Text → List Int
  | _, [] => []
  | depth, segment :: rest =>
    (depth + stride segment) :: depthsFrom (depth + stride segment) rest

/-- The depths that a path reaches, starting from zero. -/
def depths (path : Text) : List Int := depthsFrom 0 (segments path)

/-- The depth at which a path ends. -/
def finalDepth (path : Text) : Int := (depths path).getLastD 0

/-- How far a path gets above its start. -/
def highest (path : Text) : Int := -(depths path).foldl min 0

/-- The cleaned path as a text, with a dot if nothing is left of it and with the slash at its end if
the path ends in one. -/
def normalized (path : Text) : Text :=
  let text := if clean path = [] then ['.'] else Text.joinWith '/' (clean path)
  if path.getLast? = some '/' ∧ text.getLast? ≠ some '/' then text ++ ['/'] else text

/-- The number of `../` with which a text starts. -/
def leadingParents : Text → Nat
  | '.' :: '.' :: '/' :: rest => leadingParents rest + 1
  | _ => 0

/-- A cleaned path, last segment first, after a walk that is at a depth now and was never at one
less than `least`: names on top of as many `..` as the walk has climbed. -/
def Stands (cleaned : List Text) (depth least : Int) : Prop :=
  ∃ (names : List Text) (ups : Nat), parent ∉ names ∧
    cleaned = names ++ List.replicate ups parent ∧ depth = names.length - ups ∧ least = -ups

variable {cleaned : List Text} {depth least : Int} {path : Text}

theorem push_parent (cleaned : List Text) : push cleaned parent =
    match cleaned with
    | [] => [parent]
    | last :: rest => if last = parent then parent :: cleaned else rest :=
  rfl

theorem push_name {segment : Text} (hne : segment ≠ []) (hdot : segment ≠ ['.'])
    (hup : segment ≠ parent) : push cleaned segment = segment :: cleaned := by
  rw [push.eq_def, if_neg (not_or.2 ⟨hne, hdot⟩)]
  exact if_neg hup

theorem Stands.push (h : Stands cleaned depth least) {segment : Text} (hne : segment ≠ [])
    (hdot : segment ≠ ['.']) :
    Stands (push cleaned segment) (depth + stride segment)
      (min least (depth + stride segment)) := by
  obtain ⟨names, ups, hnames, rfl, rfl, rfl⟩ := h
  rw [stride]
  by_cases hup : segment = parent
  · rw [hup, if_pos rfl, push_parent]
    cases names with
    | nil =>
      refine ⟨[], ups + 1, List.not_mem_nil, ?_, ?_, ?_⟩
      · cases ups with
        | zero => rfl
        | succ ups => exact if_pos rfl
      · simp only [List.length_nil]
        omega
      · simp only [List.length_nil]
        omega
    | cons name names =>
      -- the name is cancelled, and the walk gets no higher than it has been
      rw [List.mem_cons, not_or] at hnames
      refine ⟨names, ups, hnames.2, if_neg (Ne.symm hnames.1), ?_, ?_⟩
      · simp only [List.length_cons]
        omega
      · simp only [List.length_cons]
        omega
  · rw [if_neg hup, push_name hne hdot hup]
    refine ⟨segment :: names, ups, ?_, rfl, ?_, ?_⟩
    · rw [List.mem_cons, not_or]
      exact ⟨Ne.symm hup, hnames⟩
    · simp only [List.length_cons]
      omega
    · omega

/-- The cleaned path after a walk along segments. -/
theorem Stands.foldl_push {rest : List Text} (h : Stands cleaned depth least)
    (hrest : ∀ segment ∈ rest, segment ≠ [] ∧ segment ≠ ['.']) :
    Stands (rest.foldl ModulePath.push cleaned) ((depthsFrom depth rest).getLastD depth)
      ((depthsFrom depth rest).foldl min least) := by
  induction rest generalizing cleaned depth least with
  | nil => exact h
  | cons segment rest ih =>
    obtain ⟨hne, hdot⟩ := hrest segment List.mem_cons_self
    rw [depthsFrom, List.getLastD_cons]
    exact ih (h.push hne hdot) fun s hs => hrest s (List.mem_cons_of_mem segment hs)

theorem foldl_push_filter (cleaned pieces : List Text) :
    (pieces.filter fun s => s ≠ [] ∧ s ≠ ['.']).foldl push cleaned = pieces.foldl push cleaned := by
  induction pieces generalizing cleaned with
  | nil => rfl
  | cons piece pieces ih =>
    by_cases hpiece : piece = [] ∨ piece = ['.']
    · have hskip : push cleaned piece = cleaned := if_pos hpiece
      rw [List.filter_cons_of_neg (by simpa [or_iff_not_imp_left] using hpiece), ih, List.foldl_cons,
        hskip]
    · rw [List.filter_cons_of_pos (by simpa using hpiece), List.foldl_cons, ih, List.foldl_cons]

/-- The cleaned path is as many `..` as the path climbs, followed by names. -/
theorem exists_clean (path : Text) : ∃ (names : List Text) (ups : Nat), parent ∉ names ∧
    clean path = List.replicate ups parent ++ names ∧ highest path = ups ∧
    finalDepth path = names.length - ups := by
  have hstart : Stands [] 0 0 := ⟨[], 0, List.not_mem_nil, rfl, rfl, rfl⟩
  have hsegments : ∀ segment ∈ segments path, segment ≠ [] ∧ segment ≠ ['.'] := fun s hs => by
    simpa using (List.mem_filter.1 hs).2
  obtain ⟨names, ups, hnames, hcleaned, hdepth, hleast⟩ := hstart.foldl_push hsegments
  rw [segments, foldl_push_filter] at hcleaned
  refine ⟨names.reverse, ups, by simpa using hnames, ?_, ?_, ?_⟩
  · rw [clean, hcleaned, List.reverse_append, List.reverse_replicate]
  · rw [highest, depths, hleast, Int.neg_neg]
  · rw [finalDepth, depths, hdepth, List.length_reverse]

theorem takeWhile_parents {names : List Text} (h : parent ∉ names) (ups : Nat) :
    (List.replicate ups parent ++ names).takeWhile (· = parent) = List.replicate ups parent := by
  have hnames : names.takeWhile (· = parent) = [] := by
    cases names with
    | nil => rfl
    | cons name names =>
      apply List.takeWhile_cons_of_neg
      intro heq
      have heq : name = parent := by simpa using heq
      exact h (heq ▸ List.mem_cons_self)
  rw [List.takeWhile_append_of_pos fun s hs => by simpa using List.eq_of_mem_replicate hs, hnames,
    List.append_nil]

/-! ## The cleaned path as a text -/

theorem leadingParents_of_notMem {piece : Text} (h : '/' ∉ piece) : leadingParents piece = 0 := by
  fun_cases leadingParents piece with
  | case1 rest => simp at h
  | case2 => rfl

theorem leadingParents_append {piece : Text} (h : '/' ∉ piece) (rest : Text) :
    leadingParents (piece ++ '/' :: rest) =
      if piece = parent then leadingParents rest + 1 else 0 := by
  by_cases hup : piece = parent
  · rw [if_pos hup, hup]
    rfl
  · rw [if_neg hup]
    -- a slash further in front would be one of the piece
    match piece with
    | [] => rfl
    | [_] => simp [leadingParents]
    | [a, b] =>
      have hab : ¬ (a = '.' ∧ b = '.') := fun ⟨ha, hb⟩ => hup (by rw [ha, hb]; rfl)
      simp only [List.cons_append, List.nil_append]
      rw [leadingParents]
      rintro tail htail
      simp only [List.cons.injEq] at htail
      exact hab ⟨htail.1, htail.2.1⟩
    | a :: b :: c :: tail =>
      have hc : c ≠ '/' := fun heq => h (by simp [heq])
      simp only [List.cons_append]
      rw [leadingParents]
      rintro tail' htail
      simp only [List.cons.injEq] at htail
      exact hc htail.2.2.1

/-- Of the pieces of a text all but the last are followed by a slash. -/
theorem leadingParents_joinWith {pieces : List Text} (h : ∀ piece ∈ pieces, '/' ∉ piece) :
    leadingParents (Text.joinWith '/' pieces) =
      (pieces.dropLast.takeWhile (· = parent)).length := by
  fun_induction Text.joinWith '/' pieces with
  | case1 => rfl
  | case2 piece => exact leadingParents_of_notMem (h piece List.mem_cons_self)
  | case3 piece next pieces ih =>
    have ih := ih fun p hp => h p (List.mem_cons_of_mem piece hp)
    rw [leadingParents_append (h piece List.mem_cons_self), List.dropLast_cons_cons]
    by_cases hup : piece = parent
    · rw [if_pos hup, ih, List.takeWhile_cons_of_pos (by simpa using hup), List.length_cons]
    · rw [if_neg hup, List.takeWhile_cons_of_neg (by simpa using hup), List.length_nil]

theorem mem_push {segment s : Text} (h : s ∈ push cleaned segment) :
    s ∈ cleaned ∨ s = segment ∧ segment ≠ [] := by
  by_cases hskip : segment = [] ∨ segment = ['.']
  · have hpush : push cleaned segment = cleaned := if_pos hskip
    exact .inl (hpush ▸ h)
  obtain ⟨hne, hdot⟩ := not_or.1 hskip
  by_cases hup : segment = parent
  · rw [hup, push_parent] at h
    cases cleaned with
    | nil => exact .inr ⟨(List.mem_singleton.1 h).trans hup.symm, hne⟩
    | cons last rest =>
      simp only at h
      by_cases hlast : last = parent
      · rw [if_pos hlast, ← hup] at h
        exact (List.mem_cons.1 h).elim (fun heq => .inr ⟨heq, hne⟩) .inl
      · rw [if_neg hlast] at h
        exact .inl (List.mem_cons_of_mem last h)
  · rw [push_name hne hdot hup] at h
    exact (List.mem_cons.1 h).elim (fun heq => .inr ⟨heq, hne⟩) .inl

theorem mem_foldl_push {pieces : List Text} {s : Text} (h : s ∈ pieces.foldl push cleaned) :
    s ∈ cleaned ∨ s ∈ pieces ∧ s ≠ [] := by
  induction pieces generalizing cleaned with
  | nil => exact .inl h
  | cons piece pieces ih =>
    cases ih h with
    | inl hpush =>
      cases mem_push hpush with
      | inl hold => exact .inl hold
      | inr hnew => exact .inr ⟨hnew.1 ▸ List.mem_cons_self, hnew.1 ▸ hnew.2⟩
    | inr hlater => exact .inr ⟨List.mem_cons_of_mem piece hlater.1, hlater.2⟩

theorem mem_clean {s : Text} (h : s ∈ clean path) : s ≠ [] ∧ '/' ∉ s := by
  cases mem_foldl_push (List.mem_reverse.1 h) with
  | inl hnil => exact absurd hnil List.not_mem_nil
  | inr hpiece => exact ⟨hpiece.2, Text.notMem_of_mem_splitAt hpiece.1⟩

theorem length_takeWhile_dropLast {names : List Text} (h : parent ∉ names) (ups : Nat) :
    ((List.replicate ups parent ++ names).dropLast.takeWhile (· = parent)).length =
      if names = [] then ups - 1 else ups := by
  by_cases hnames : names = []
  · have hups := takeWhile_parents List.not_mem_nil (ups - 1)
    rw [List.append_nil] at hups
    rw [if_pos hnames, hnames, List.append_nil, List.dropLast_replicate, hups,
      List.length_replicate]
  · have hdrop : parent ∉ names.dropLast := fun hmem => h (List.mem_of_mem_dropLast hmem)
    rw [if_neg hnames, List.dropLast_append_of_ne_nil hnames, takeWhile_parents hdrop,
      List.length_replicate]

theorem climb_eq {names : List Text} {ups : Nat} (hnames : parent ∉ names)
    (hclean : clean path = List.replicate ups parent ++ names) :
    climb path = if names = [] ∧ path.getLast? ≠ some '/' then ups - 1 else ups := by
  have hups : ((clean path).takeWhile (· = parent)).length = ups := by
    rw [hclean, takeWhile_parents hnames, List.length_replicate]
  have hall : ups = (clean path).length ↔ names = [] := by
    rw [hclean, List.length_append, List.length_replicate, ← List.length_eq_zero_iff]
    omega
  have hclimb : climb path =
      if ((clean path).takeWhile (· = parent)).length = (clean path).length ∧
          path.getLast? ≠ some '/' then ((clean path).takeWhile (· = parent)).length - 1
      else ((clean path).takeWhile (· = parent)).length := rfl
  simp only [hclimb, hups, hall]

/-- The climb is the number of `../` with which the text of the cleaned path starts. -/
theorem climb_eq_leadingParents (path : Text) : climb path = leadingParents (normalized path) := by
  obtain ⟨names, ups, hnames, hclean, -, -⟩ := exists_clean path
  have hslash : ∀ s ∈ clean path, '/' ∉ s := fun s hs => (mem_clean hs).2
  rw [climb_eq hnames hclean, normalized]
  by_cases hnil : clean path = []
  · -- a dot, with or without a slash, starts with no `../`
    have hups : ups = 0 := by
      have := congrArg List.length (hclean.symm.trans hnil)
      rw [List.length_append, List.length_replicate, List.length_nil] at this
      omega
    rw [if_pos hnil, hups, Nat.zero_sub, ite_self]
    split <;> rfl
  · have hlast := Text.getLast?_joinWith_ne fun s (hs : s ∈ clean path) => mem_clean hs
    rw [if_neg hnil]
    by_cases hend : path.getLast? = some '/'
    · have hslash' : ∀ s ∈ clean path ++ [[]], '/' ∉ s := fun s hs =>
        (List.mem_append.1 hs).elim (hslash s) fun h => List.mem_singleton.1 h ▸ List.not_mem_nil
      rw [if_neg fun h => h.2 hend, if_pos ⟨hend, hlast⟩, ← Text.joinWith_append_nil hnil,
        leadingParents_joinWith hslash', List.dropLast_concat, hclean, takeWhile_parents hnames,
        List.length_replicate]
    · simp only [hend, false_and, if_false, ne_eq, not_false_eq_true, and_true]
      rw [leadingParents_joinWith hslash, hclean, length_takeWhile_dropLast hnames]

/-- The nesting of a path that starts with a dot is minus the height of its walk minus one, where a
walk that ends at its highest place counts as one less high unless the path ends in a slash. -/
theorem nesting_measures_climb (path : String) :
    nesting path =
      (if path.toList.head? = some '.' then
        if 1 ≤ highest path.toList ∧ finalDepth path.toList = -highest path.toList ∧
            path.toList.getLast? ≠ some '/' then -highest path.toList
        else -highest path.toList - 1
      else 0) ∧
    (finalDepth path.toList = -highest path.toList ↔ ∀ s ∈ clean path.toList, s = parent) ∧
    climb path.toList = leadingParents (normalized path.toList) := by
  obtain ⟨names, ups, hnames, hclean, hhighest, hfinal⟩ := exists_clean path.toList
  have hdown : finalDepth path.toList = -highest path.toList ↔ names = [] := by
    rw [hfinal, hhighest, ← List.length_eq_zero_iff]
    omega
  refine ⟨?_, ?_, climb_eq_leadingParents path.toList⟩
  · by_cases hdot : path.toList.head? = some '.'
    · rw [nesting, if_pos hdot, if_pos hdot, climb_eq hnames hclean]
      simp only [hdown]
      rw [hhighest]
      by_cases hlast : names = [] ∧ path.toList.getLast? ≠ some '/'
      · -- where there is no climb nothing is taken off: both sides are minus one
        rw [if_pos hlast]
        by_cases hups : 1 ≤ (ups : Int)
        · rw [if_pos ⟨hups, hlast⟩]
          omega
        · rw [if_neg fun h => hups h.1]
          omega
      · rw [if_neg hlast, if_neg fun h => hlast h.2]
    · rw [nesting, if_neg hdot, if_neg hdot]
  · rw [hdown, hclean]
    constructor
    · rintro rfl s hs
      rw [List.append_nil] at hs
      exact List.eq_of_mem_replicate hs
    · intro hall
      refine List.eq_nil_iff_forall_not_mem.2 fun name hname => ?_
      exact hnames (hall name (List.mem_append_right _ hname) ▸ hname)

example : nesting "./a/../../b/.." = -1 := by decide

end ModulePath

end ImportOrder
