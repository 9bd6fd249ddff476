import ImportOrder.Proofs.Order.Nesting
import ImportOrder.Proofs.Project.FileReport
import ImportOrder.Report

/-!
# Paths seen from a directory

The way from a directory to a target goes up out of the part of the directory that the two do not
share, and then down. Followed from the directory it leads to the place of the target, wherever the
two stand to each other and even if the target itself goes up: the names that are left behind cancel
against the `..` in front of the way, and what remains is the target's own path. The text of the way
reads back as the way, so the same holds of the texts.

## Main definitions

- `Path.resolved`: the plain path to the place that a path from the root leads to
- `PathPart.Legible`: the parts that read back from their texts

## Main statements

- `Path.foldl_followed_names`: names cancel against as many `..`
- `Path.exists_way`: the way between two paths of parts
- `Path.ofText_toText`, `Path.ofText_joinText`: paths and their texts
- `Path.relative_path_leads_back`
-/

namespace ImportOrder

namespace Text

variable {separator : Char}

theorem splitAt_of_notMem {text : Text} (h : separator ∉ text) :
    splitAt separator text = [text] := by
  induction text with
  | nil => rfl
  | cons c text ih =>
    rw [List.mem_cons, not_or] at h
    rw [splitAt, if_neg (Ne.symm h.1), ih h.2]

theorem splitAt_append (separator : Char) (front rest : Text) :
    splitAt separator (front ++ separator :: rest) =
      splitAt separator front ++ splitAt separator rest := by
  induction front with
  | nil => simp [splitAt]
  | cons c front ih =>
    rw [List.cons_append, splitAt, splitAt, ih]
    by_cases hc : c = separator
    · rw [if_pos hc, if_pos hc, List.cons_append]
    · rw [if_neg hc, if_neg hc]
      cases hsplit : splitAt separator front with
      | nil => exact absurd hsplit (splitAt_ne_nil separator front)
      | cons piece pieces => rfl

theorem splitAt_intercalate {pieces : List Text} (hne : pieces ≠ [])
    (h : ∀ piece ∈ pieces, separator ∉ piece) :
    splitAt separator (List.intercalate [separator] pieces) = pieces := by
  induction pieces with
  | nil => exact absurd rfl hne
  | cons piece pieces ih =>
    obtain ⟨hpiece, hpieces⟩ := List.forall_mem_cons.1 h
    cases pieces with
    | nil =>
      rw [List.intercalate_singleton, splitAt_of_notMem hpiece]
    | cons next pieces =>
      have hsplit := splitAt_append separator piece (List.intercalate [separator] (next :: pieces))
      rw [splitAt_of_notMem hpiece, ih (List.cons_ne_nil next pieces) hpieces] at hsplit
      rw [List.intercalate_cons_cons, List.append_assoc]
      exact hsplit

end Text

namespace PathPart

/-- The text of the part, between slashes, stands for the part. -/
def Legible (part : PathPart) : Prop :=
  ofPiece? part.toText.toList = some part ∧ '/' ∉ part.toText.toList

instance (part : PathPart) : Decidable part.Legible := inferInstanceAs (Decidable (_ ∧ _))

theorem toText_of_ofPiece? {piece : List Char} {part : PathPart} (h : ofPiece? piece = some part) :
    part.toText.toList = piece := by
  unfold ofPiece? at h
  split_ifs at h with hnone hup
  · rw [← Option.some.inj h, hup]
    rfl
  · rw [← Option.some.inj h, toText, String.toList_ofList]

theorem ofPiece?_ne {piece : List Char} {part : PathPart} (h : ofPiece? piece = some part) :
    part ≠ .root ∧ part ≠ .current := by
  unfold ofPiece? at h
  split_ifs at h
  · rw [← Option.some.inj h]
    exact ⟨nofun, nofun⟩
  · rw [← Option.some.inj h]
    exact ⟨nofun, nofun⟩

end PathPart

namespace Path

open FileTree (Location)

/-! ## The parts of texts -/

/-- The parts that the pieces between the slashes stand for. -/
def partsOf (text : List Char) : List PathPart :=
  (Text.splitAt '/' text).filterMap PathPart.ofPiece?

theorem legible_of_mem_partsOf {text : List Char} {part : PathPart} (h : part ∈ partsOf text) :
    part.Legible ∧ part ≠ .root ∧ part ≠ .current := by
  obtain ⟨piece, hpiece, hpart⟩ := List.mem_filterMap.1 h
  have htext := PathPart.toText_of_ofPiece? hpart
  refine ⟨⟨by rw [htext, hpart], ?_⟩, PathPart.ofPiece?_ne hpart⟩
  rw [htext]
  exact Text.notMem_of_mem_splitAt hpiece

theorem ofText_of_head? {text : String} (h : text.toList.head? = some '/') :
    ofText text = ⟨.root :: partsOf text.toList⟩ := by
  obtain ⟨rest, hrest⟩ := List.head?_eq_some_iff.1 h
  simp only [ofText, partsOf, hrest]

theorem parts_ofText_of_head?_ne {text : String} (h : text.toList.head? ≠ some '/') :
    (ofText text).parts = partsOf text.toList ∨
      (ofText text).parts = .current :: partsOf text.toList := by
  unfold ofText
  dsimp only
  split
  · next hslash => exact absurd (by rw [hslash]; rfl) h
  · exact .inr rfl
  · exact .inl rfl

theorem isAbsolute_ofText_iff {text : String} :
    (ofText text).isAbsolute = true ↔ text.toList.head? = some '/' := by
  constructor
  · intro h
    by_contra hslash
    have hroot : (ofText text).parts.head? = some .root := by simpa [isAbsolute] using h
    rcases parts_ofText_of_head?_ne hslash with hparts | hparts
    · rw [hparts] at hroot
      exact (legible_of_mem_partsOf (List.mem_of_mem_head? hroot)).2.1 rfl
    · rw [hparts] at hroot
      exact absurd hroot (by simp)
  · exact isAbsolute_ofText

theorem filter_parts_ofText {text : String} (h : text.toList.head? ≠ some '/') :
    (ofText text).parts.filter (· ≠ .current) = partsOf text.toList := by
  have hself : (partsOf text.toList).filter (· ≠ .current) = partsOf text.toList :=
    List.filter_eq_self.2 fun p hp => decide_eq_true (legible_of_mem_partsOf hp).2.2
  rcases parts_ofText_of_head?_ne h with hparts | hparts
  · rw [hparts, hself]
  · rw [hparts, List.filter_cons_of_neg (by simp), hself]

/-- A path of legible parts reads back from its text. -/
theorem ofText_toText {parts : List PathPart} (hne : parts ≠ []) (h : ∀ p ∈ parts, p.Legible) :
    ofText (toText ⟨parts⟩) = ⟨parts⟩ := by
  have hpiece : ∀ piece ∈ parts.map (·.toText.toList),
      piece ≠ [] ∧ piece ≠ ['.'] ∧ '/' ∉ piece := by
    intro piece hmem
    obtain ⟨p, hp, rfl⟩ := List.mem_map.1 hmem
    obtain ⟨hread, hslash⟩ := h p hp
    refine ⟨fun hnil => ?_, fun hdot => ?_, hslash⟩
    · rw [hnil] at hread
      exact absurd hread nofun
    · rw [hdot] at hread
      exact absurd hread nofun
  have hne' : parts.map (·.toText.toList) ≠ [] := by simpa using hne
  have htext : (toText ⟨parts⟩).toList = List.intercalate ['/'] (parts.map (·.toText.toList)) := by
    rw [toText]
    split
    · next hroot =>
      have hroot : parts = [.root] := hroot
      exact absurd (h .root (by simp [hroot])).1 (by decide)
    · rw [String.toList_intercalate, List.map_map]
      rfl
  have hsplit : Text.splitAt '/' (toText ⟨parts⟩).toList = parts.map (·.toText.toList) := by
    rw [htext]
    exact Text.splitAt_intercalate hne' fun piece hp => (hpiece piece hp).2.2
  have hparts : partsOf (toText ⟨parts⟩).toList = parts := by
    rw [partsOf, hsplit, List.filterMap_map]
    exact (List.filterMap_congr fun p hp => (h p hp).1).trans List.filterMap_some
  -- a slash or a `.` in front would leave a piece that no legible part has
  unfold ofText
  dsimp only
  split
  · next rest hslash =>
    rw [hslash, Text.splitAt, if_pos rfl] at hsplit
    exact absurd rfl (hpiece [] (hsplit ▸ List.mem_cons_self)).1
  · next hdot _ =>
    rw [hdot] at hsplit
    exact absurd rfl (hpiece ['.'] (hsplit ▸ List.mem_cons_self)).2.1
  · exact congrArg Path.mk hparts

theorem partsOf_append (front rest : List Char) :
    partsOf (front ++ '/' :: rest) = partsOf front ++ partsOf rest := by
  rw [partsOf, Text.splitAt_append, List.filterMap_append]
  rfl

theorem isEmpty_of_head? {text : String} (h : text.toList.head? = some '/') :
    text.isEmpty = false := by
  rw [Bool.eq_false_iff]
  intro hempty
  rw [String.isEmpty_iff.1 hempty] at h
  exact absurd h nofun

/-- The slash between two texts, wherever it comes from, parts their parts. -/
theorem partsOf_joinText {base text : String} (hbase : base.toList.head? = some '/')
    (htext : text.toList.head? ≠ some '/') :
    partsOf (joinText base text).toList = partsOf base.toList ++ partsOf text.toList := by
  rw [joinText, if_neg (by simp [htext, isEmpty_of_head? hbase])]
  by_cases hlast : base.toList.getLast? = some '/'
  · obtain ⟨front, hfront⟩ := List.getLast?_eq_some_iff.1 hlast
    have hnil : partsOf [] = [] := rfl
    rw [if_pos hlast, String.toList_append, hfront, List.append_assoc, List.singleton_append,
      partsOf_append, partsOf_append, hnil, List.append_nil]
  · rw [if_neg hlast, String.toList_append, String.toList_append, List.append_assoc]
    exact partsOf_append base.toList text.toList

theorem head?_joinText {base text : String} (hbase : base.toList.head? = some '/') :
    (joinText base text).toList.head? = some '/' := by
  rw [joinText]
  split_ifs with hslash hlast
  · exact hslash.resolve_right (by simp [isEmpty_of_head? hbase])
  · rw [String.toList_append, List.head?_append, hbase, Option.some_or]
  · rw [String.toList_append, String.toList_append, List.append_assoc, List.head?_append, hbase,
      Option.some_or]

/-- Following a text from another one is following the path that it stands for. -/
theorem ofText_joinText {base : String} (h : (ofText base).isAbsolute = true) (text : String) :
    ofText (joinText base text) = (ofText base).join (ofText text) := by
  have hbase := isAbsolute_ofText_iff.1 h
  by_cases hslash : text.toList.head? = some '/'
  · rw [joinText, if_pos (.inl hslash), join, isAbsolute_ofText hslash]
    rfl
  · have hrelative : (ofText text).isAbsolute = false :=
      Bool.eq_false_iff.2 fun habsolute => hslash (isAbsolute_ofText_iff.1 habsolute)
    rw [ofText_of_head? (head?_joinText hbase), partsOf_joinText hbase hslash, join, hrelative,
      ofText_of_head? hbase, filter_parts_ofText hslash]
    rfl

/-! ## The way from a directory -/

/-- The plain path to the place that a path from the root leads to, read off its parts alone: `.`
stays where it is, `..` takes back the name in front of it, and at the root it stays there. -/
def resolved (path : Path) : Path :=
  (path.parts.foldl Location.followed []).path

/-- The way that some parts make up, which is `.` if there are none. -/
def wayOf (parts : List PathPart) : Path :=
  ⟨if parts.isEmpty then [.current] else parts⟩

theorem exists_common (ps qs : List PathPart) :
    ∃ front ps' qs', ps = front ++ ps' ∧ qs = front ++ qs' ∧
      commonLength ps qs = front.length := by
  fun_induction commonLength ps qs with
  | case1 ps p qs ih =>
    obtain ⟨front, ps', qs', rfl, rfl, hlength⟩ := ih
    exact ⟨p :: front, ps', qs', rfl, rfl, congrArg Nat.succ hlength⟩
  | case2 p ps q qs hne => exact ⟨[], p :: ps, q :: qs, rfl, rfl, rfl⟩
  | case3 ps qs => exact ⟨[], ps, qs, rfl, rfl, rfl⟩

/-- Names are taken back by as many `..`. -/
theorem foldl_followed_names {names : List PathPart} (h : ∀ p ∈ names, ∃ text, p = .name text)
    (location : Location) :
    (names ++ names.map fun _ => PathPart.up).foldl Location.followed location = location := by
  induction names generalizing location with
  | nil => rfl
  | cons p names ih =>
    obtain ⟨⟨text, rfl⟩, hnames⟩ := List.forall_mem_cons.1 h
    -- the first name is taken back by the last `..`
    have hups : (PathPart.up :: names.map fun _ => PathPart.up) =
        (names.map fun _ => PathPart.up) ++ [.up] := by
      rw [List.map_const', ← List.replicate_succ, List.replicate_succ']
    rw [List.map_cons, hups, ← List.append_assoc, List.cons_append, List.cons_append,
      List.foldl_cons, List.foldl_append, ih hnames]
    exact List.dropLast_concat

theorem foldl_followed_filter {parts : List PathPart} (h : .root ∉ parts) (location : Location) :
    (parts.filter fun p => p ≠ .current ∧ p ≠ .root).foldl Location.followed location =
      parts.foldl Location.followed location := by
  induction parts generalizing location with
  | nil => rfl
  | cons p parts ih =>
    rw [List.mem_cons, not_or] at h
    by_cases hp : p = .current
    · rw [List.filter_cons_of_neg (by simp [hp]), ih h.2, hp]
      rfl
    · rw [List.filter_cons_of_pos (by simp [hp, Ne.symm h.1]), List.foldl_cons, ih h.2,
        List.foldl_cons]

/-- The way from a directory without `..` to a path leads there. -/
theorem exists_way {bases targets : List PathPart} (hbases : ∀ p ∈ bases, ∃ text, p = .name text)
    (htargets : .root ∉ targets) :
    ∃ parts, relativeTo? ⟨.root :: targets⟩ ⟨.root :: bases⟩ = some (wayOf parts) ∧
      (∀ p ∈ parts, p = .up ∨ p ∈ targets) ∧
      resolved ⟨.root :: bases ++ parts⟩ = resolved ⟨.root :: targets⟩ := by
  obtain ⟨front, downs, names, rfl, rfl, hlength⟩ := exists_common targets bases
  have hcommon : commonLength (.root :: (front ++ downs)) (.root :: (front ++ names)) =
      front.length + 1 := by
    rw [commonLength, if_pos rfl, hlength]
  have hdowns : .root ∉ downs := fun h => htargets (List.mem_append_right front h)
  have hnames : ∀ p ∈ names, ∃ text, p = .name text :=
    fun p hp => hbases p (List.mem_append_right front hp)
  set ups := names.map fun _ => PathPart.up with hups
  set kept := downs.filter fun p => p ≠ .current ∧ p ≠ .root with hkept
  refine ⟨ups ++ kept, ?_, fun p hp => ?_, congrArg Location.path ?_⟩
  · simp only [relativeTo?, wayOf, hcommon, List.head?_cons, if_true, List.drop_succ_cons,
      List.drop_left, ← hups, ← hkept]
  · rcases List.mem_append.1 hp with hp | hp
    · obtain ⟨_, -, rfl⟩ := List.mem_map.1 hp
      exact .inl rfl
    · exact .inr (List.mem_append_right front (List.mem_of_mem_filter hp))
  · -- along the shared parts both go the same way, and then the names are taken back
    calc (.root :: (front ++ names) ++ (ups ++ kept)).foldl Location.followed []
        = kept.foldl Location.followed
            ((names ++ ups).foldl Location.followed (front.foldl Location.followed [])) := by
          simp only [List.cons_append, List.foldl_cons, List.foldl_append]
          rfl
      _ = kept.foldl Location.followed (front.foldl Location.followed []) := by
          rw [foldl_followed_names hnames]
      _ = downs.foldl Location.followed (front.foldl Location.followed []) :=
          foldl_followed_filter hdowns _
      _ = (.root :: (front ++ downs)).foldl Location.followed [] := List.foldl_append.symm

/-- A way of legible parts is relative and reads back from its text. -/
theorem reads_back {parts : List PathPart}
    (h : ∀ p ∈ parts, p.Legible ∧ p ≠ .root ∧ p ≠ .current) :
    (wayOf parts).isAbsolute = false ∧ ofText (wayOf parts).toText = wayOf parts ∧
      (wayOf parts).parts.filter (· ≠ .current) = parts := by
  by_cases hnil : parts = []
  · rw [hnil]
    exact ⟨rfl, by decide, rfl⟩
  · have hway : wayOf parts = ⟨parts⟩ := by rw [wayOf, if_neg (by simpa using hnil)]
    rw [hway]
    refine ⟨?_, ofText_toText hnil fun p hp => (h p hp).1,
      List.filter_eq_self.2 fun p hp => decide_eq_true (h p hp).2.2⟩
    rw [isAbsolute, beq_eq_false_iff_ne]
    exact fun hroot => (h .root (List.mem_of_mem_head? hroot)).2.1 rfl

/-- The way from a directory to a path leads back to it.

Let the directory and the target be given from the root, the directory without `..`. Then there is a
relative way from one to the other, its text reads back as the way, and followed from the directory,
part by part or as a text, it leads where the target leads. It is what is shown of a file with that
target. -/
theorem relative_path_leads_back {base target : String} (hbase : (ofText base).isAbsolute = true)
    (hplain : .up ∉ (ofText base).parts) (htarget : (ofText target).isAbsolute = true) :
    ∃ way, (ofText target).relativeTo? (ofText base) = some way ∧
      way.isAbsolute = false ∧ ofText way.toText = way ∧
      ((ofText base).join way).resolved = (ofText target).resolved ∧
      (ofText (joinText base way.toText)).resolved = (ofText target).resolved ∧
      ∀ root path, joinText root path = target →
        Report.shownPath root path (ofText base) = way.toText := by
  have hbases := ofText_of_head? (isAbsolute_ofText_iff.1 hbase)
  have htargets := ofText_of_head? (isAbsolute_ofText_iff.1 htarget)
  have hnames : ∀ p ∈ partsOf base.toList, ∃ text, p = .name text := by
    intro p hp
    obtain ⟨-, hroot, hcurrent⟩ := legible_of_mem_partsOf hp
    cases p with
    | root => exact absurd rfl hroot
    | current => exact absurd rfl hcurrent
    | up => exact absurd (hbases ▸ List.mem_cons_of_mem _ hp) hplain
    | name text => exact ⟨text, rfl⟩
  have hdowns : .root ∉ partsOf target.toList := fun h => (legible_of_mem_partsOf h).2.1 rfl
  obtain ⟨parts, hway, hparts, hresolved⟩ := exists_way hnames hdowns
  rw [← htargets] at hway hresolved
  rw [← hbases] at hway
  have hlegible : ∀ p ∈ parts, p.Legible ∧ p ≠ .root ∧ p ≠ .current := by
    intro p hp
    rcases hparts p hp with rfl | hp
    · decide
    · exact legible_of_mem_partsOf hp
  obtain ⟨hrelative, hread, hfilter⟩ := reads_back hlegible
  have hjoin : ((ofText base).join (wayOf parts)).resolved = (ofText target).resolved := by
    rw [join, hrelative, hfilter, hbases]
    exact hresolved
  refine ⟨wayOf parts, hway, hrelative, hread, hjoin, ?_, fun root path hpath => ?_⟩
  · rw [ofText_joinText hbase, hread, hjoin]
  · unfold Report.shownPath
    rw [hpath, hway]

theorem aside_leads_back :
    ∃ way, (ofText "/p//a/b/./../../../c.ts").relativeTo? (ofText "/p/a/x/") = some way ∧
      way.toText = "../b/../../../c.ts" ∧
      (ofText (joinText "/p/a/x/" way.toText)).resolved = ofText "/c.ts" := by
  obtain ⟨way, hway, -, -, -, hresolved, -⟩ := relative_path_leads_back
    (by decide : (ofText "/p/a/x/").isAbsolute = true) (by decide)
    (by decide : (ofText "/p//a/b/./../../../c.ts").isAbsolute = true)
  have hshown : (ofText "/p//a/b/./../../../c.ts").relativeTo? (ofText "/p/a/x/") =
      some ⟨[.up, .name "b", .up, .up, .up, .name "c.ts"]⟩ := by decide
  have hplace : (ofText "/p//a/b/./../../../c.ts").resolved = ofText "/c.ts" := by decide
  obtain rfl := Option.some.inj (hway.symm.trans hshown)
  exact ⟨_, hway, by decide, hresolved.trans hplace⟩

end Path

end ImportOrder
