import ImportOrder.Character.Ranges
import ImportOrder.Text.Split

/-!
# Ignore patterns

The lines of an ignore file. A pattern without a slash matches entries at any depth, one with a
slash only from the directory of the file on; a trailing slash restricts it to directories, and a
leading exclamation mark takes an entry back in. The last pattern that matches an entry decides.

Besides asterisks and question marks, a pattern may hold character classes in square brackets and
alternatives in braces. A line whose pattern is not well formed does not count.

## Main definitions

- `Wildcard`, `Wildcard.tokens?`, `Wildcard.expand?`: the patterns that a text stands for
- `IgnorePattern`, `IgnorePattern.ofLine?`, `IgnorePattern.ofText`
- `IgnorePattern.Verdict`, `IgnorePattern.verdict`
-/

namespace ImportOrder

/-- One character of a pattern. -/
inductive Wildcard where
  /-- The character itself. -/
  | exactly (c : Char)
  /-- Any one character. -/
  | one
  /-- Any number of characters. -/
  | many
  /-- One character in some of the ranges or, negated, in none of them. -/
  | oneOf (negated : Bool) (ranges : List (Char × Char))
deriving DecidableEq, Repr, Inhabited

/-- A token of the text of a pattern. -/
inductive PatternToken where
  | wildcard (wildcard : Wildcard)
  | openBrace
  | comma
  | closeBrace
deriving DecidableEq, Repr, Inhabited

/-- A brace that is open. -/
structure PatternBrace where
  /-- The patterns in front of it. -/
  front : List (List Wildcard)
  /-- The alternatives read behind it. -/
  read : List (List Wildcard)
deriving DecidableEq, Repr, Inhabited

/-- One piece of a pattern between its slashes. -/
inductive PatternSegment where
  /-- Any number of names. -/
  | anyDepth
  /-- One name. -/
  | name (pattern : List Wildcard)
deriving DecidableEq, Repr, Inhabited

/-- A line of an ignore file. -/
structure IgnorePattern where
  /-- The pieces between slashes, of each pattern that the line stands for. -/
  alternatives : List (List PatternSegment)
  /-- Does it take entries back in? -/
  takesBack : Bool
  /-- Does it match directories only? -/
  directoriesOnly : Bool
deriving DecidableEq, Repr, Inhabited

/-- The tails of a list, from the list itself to the empty one. -/
def tailsOf : List α → List (List α)
  | [] => [[]]
  | a :: as => (a :: as) :: tailsOf as

namespace Wildcard

/-- The ranges of a class from one range on. A character behind a dash moves the end of the range,
and a dash at the end is a member. A range must not run backwards. -/
def rangesFrom? (first last : Char) : Text → Option (List (Char × Char))
  | [] => some [(first, last)]
  | ['-'] => some [(first, last), ('-', '-')]
  | '-' :: c :: members => if c < first then none else rangesFrom? first c members
  | c :: members => (rangesFrom? c c members).map ((first, last) :: ·)

/-- The ranges of a class; the first character is a member, whatever it is. -/
def ranges? : Text → Option (List (Char × Char))
  | [] => some []
  | c :: members => rangesFrom? c c members

/-- The class behind an opening bracket, if it is closed: whether it is negated, and the text of its
members. A closing bracket in the first place is a member. -/
def class? (text : Text) : Option (Bool × Text) :=
  let negated := text.head? == some '!' || text.head? == some '^'
  match if negated then text.tail else text with
  | [] => none
  | c :: rest =>
    if rest.contains ']' then some (negated, c :: rest.takeWhile (· != ']')) else none

/-- The tokens of a pattern, of which some characters were read already as those of a class. A
backslash takes the special meaning of the character after it and must not be the last character,
and a bracket that is not closed has no special meaning. -/
def tokens? : (skipped : Nat) → Text → Option (List PatternToken)
  | _, [] => some []
  | skipped + 1, _ :: text => tokens? skipped text
  | 0, ['\\'] => none
  | 0, '\\' :: c :: text => (tokens? 0 text).map (.wildcard (exactly c) :: ·)
  | 0, '[' :: text => match class? text with
    | none => (tokens? 0 text).map (.wildcard (exactly '[') :: ·)
    | some (negated, members) => do
      let ranges ← ranges? members
      let tokens ← tokens? (negated.toNat + members.length + 1) text
      return .wildcard (oneOf negated ranges) :: tokens
  | 0, '*' :: text => (tokens? 0 text).map (.wildcard many :: ·)
  | 0, '?' :: text => (tokens? 0 text).map (.wildcard one :: ·)
  | 0, '{' :: text => (tokens? 0 text).map (.openBrace :: ·)
  | 0, ',' :: text => (tokens? 0 text).map (.comma :: ·)
  | 0, '}' :: text => (tokens? 0 text).map (.closeBrace :: ·)
  | 0, c :: text => (tokens? 0 text).map (.wildcard (exactly c) :: ·)

/-- What braces stand for, given their alternatives: those that are not empty, if there are any. -/
def choices (alternatives : List (List Wildcard)) : List (List Wildcard) :=
  let filled := alternatives.filter (!·.isEmpty)
  if filled.isEmpty then [[]] else filled

/-- The patterns without braces that tokens stand for, given the braces that are open, the innermost
first, and the patterns read behind the innermost. A comma outside braces has no special meaning. -/
def expand? : List PatternBrace → (patterns : List (List Wildcard)) → List PatternToken →
    Option (List (List Wildcard))
  | [], patterns, [] => some patterns
  | _ :: _, _, [] => none
  | braces, patterns, .wildcard wildcard :: tokens =>
    expand? braces (patterns.map (· ++ [wildcard])) tokens
  | braces, patterns, .openBrace :: tokens => expand? (⟨patterns, []⟩ :: braces) [[]] tokens
  | [], patterns, .comma :: tokens => expand? [] (patterns.map (· ++ [exactly ','])) tokens
  | brace :: braces, patterns, .comma :: tokens =>
    expand? ({ brace with read := brace.read ++ patterns } :: braces) [[]] tokens
  | [], _, .closeBrace :: _ => none
  | brace :: braces, patterns, .closeBrace :: tokens =>
    expand? braces (brace.front.flatMap fun front =>
      (choices (brace.read ++ patterns)).map (front ++ ·)) tokens

/-- The patterns that a text stands for, if it is well formed. -/
def patterns? (text : Text) : Option (List (List Wildcard)) :=
  (tokens? 0 text).bind (expand? [] [[]])

/-- The pieces of a pattern between its slashes. -/
def pieces : List Wildcard → List (List Wildcard)
  | [] => [[]]
  | exactly '/' :: pattern => [] :: pieces pattern
  | wildcard :: pattern => match pieces pattern with
    | piece :: rest => (wildcard :: piece) :: rest
    | [] => [[wildcard]]

/-- May the wildcard stand for the character? -/
def accepts : Wildcard → Char → Bool
  | exactly c, d => c == d
  | one, _ | many, _ => true
  | oneOf negated ranges, c =>
    negated != ranges.any fun (first, last) => decide (first ≤ c ∧ c ≤ last)

/-- Does a pattern match a whole name? -/
def matchesName : List Wildcard → Text → Bool
  | [], name => name.isEmpty
  | many :: pattern, name => (tailsOf name).any (matchesName pattern)
  | wildcard :: pattern, name => match name with
    | c :: rest => wildcard.accepts c && matchesName pattern rest
    | [] => false

end Wildcard

namespace PatternSegment

/-- The piece that stands between two slashes. -/
def ofPiece (piece : List Wildcard) : PatternSegment :=
  if piece = [.many, .many] then anyDepth else name piece

/-- Do the pieces match a whole list of names? -/
def matchesNames : List PatternSegment → List String → Bool
  | [], names => names.isEmpty
  | anyDepth :: pattern, names => (tailsOf names).any (matchesNames pattern)
  | name wildcards :: pattern, names => match names with
    | first :: rest => Wildcard.matchesName wildcards first.toList && matchesNames pattern rest
    | [] => false

end PatternSegment

namespace IgnorePattern

/-- What an ignore file says about an entry. -/
inductive Verdict where
  /-- The entry is left out. -/
  | leftOut
  /-- The entry is taken back in. -/
  | takenBack
deriving DecidableEq, Repr, Inhabited

/-- A line without the white space at its end, which an escaped blank keeps. -/
def trimEnd (line : Text) : Text :=
  match line.reverse with
  | ' ' :: '\\' :: _ => line
  | reversed => (reversed.dropWhile Character.isWhiteSpace).reverse

/-- The pieces of a pattern: if it is not rooted it matches at any depth, and at its end any depth
means at least one name. -/
def segmentsOf (rooted : Bool) (pattern : List Wildcard) : List PatternSegment :=
  let pieces := (Wildcard.pieces pattern).map PatternSegment.ofPiece
  let pieces := if rooted then pieces else .anyDepth :: pieces
  if pieces.length > 1 && pieces.getLast? == some .anyDepth then pieces ++ [.name [.many]]
  else pieces

/-- A pattern without the slash at its end, and whether there was one. -/
def splitTrailing (pattern : Text) : Text × Bool :=
  match pattern.reverse with
  | '/' :: '\\' :: reversed => (reversed.reverse, true)
  | '/' :: reversed => (reversed.reverse, true)
  | _ => (pattern, false)

/-- A pattern without the slash at its front, and whether there was one. -/
def splitLeading : Text → Text × Bool
  | '/' :: pattern => (pattern, true)
  | pattern => (pattern, false)

/-- The pattern behind the exclamation mark, if there was one. A slash in it roots it. -/
def ofBody? (takesBack : Bool) (body : Text) : Option IgnorePattern := do
  let (body, rooted) := splitLeading body
  let (body, directoriesOnly) := splitTrailing body
  let patterns ← Wildcard.patterns? body
  return ⟨patterns.map (segmentsOf (rooted || body.contains '/')), takesBack, directoriesOnly⟩

/-- The pattern of a line; empty lines, comments and lines that are not well formed have none. -/
def ofLine? (line : Text) : Option IgnorePattern :=
  if line.head? = some '#' then none
  else match trimEnd line with
    | [] => none
    | '\\' :: '!' :: body => ofBody? false ('!' :: body)
    | '\\' :: '#' :: body => ofBody? false ('#' :: body)
    | '!' :: body => ofBody? true body
    | body => ofBody? false body

/-- A line without the carriage return at its end. -/
def dropReturn (line : Text) : Text :=
  if line.getLast? = some '\r' then line.dropLast else line

/-- The patterns of an ignore file, in order. A byte order mark at its start does not count. -/
def ofText (text : Text) : List IgnorePattern :=
  let text := if text.head? = some Character.byteOrderMark then text.tail else text
  (Text.splitAt '\n' text).filterMap (ofLine? ∘ dropReturn)

/-- Does a pattern match an entry, given by the names that lead to it? -/
def matchesEntry (pattern : IgnorePattern) (names : List String) (isDirectory : Bool) : Bool :=
  (!pattern.directoriesOnly || isDirectory) &&
    pattern.alternatives.any (PatternSegment.matchesNames · names)

/-- What patterns say about an entry: the last that matches decides. -/
def verdict (patterns : List IgnorePattern) (names : List String) (isDirectory : Bool) :
    Option Verdict :=
  (patterns.reverse.find? (·.matchesEntry names isDirectory)).map fun pattern =>
    if pattern.takesBack then .takenBack else .leftOut

end IgnorePattern

end ImportOrder
