import ImportOrder.Grammar.TypeExpression

/-!
# Markup

Elements and fragments in expressions. Between tags the text is raw: it has no comments and no
lexemes, and only `<` and an opening brace end it. An element is therefore recognised up to its last
`>`, and whoever asked for it decides whether raw text or lexemes follow.

## Main definitions

- `Markup.element`: an element or a fragment, up to but without its last `>`
-/

namespace ImportOrder.Markup

open Cursor

/-- Can the character stand in the name of a tag or an attribute? -/
def isNamePart (c : Char) : Bool :=
  Lexeme.isWordPart c || c == '-' || c == ':' || c == '.'

/-- The name at the cursor, and the cursor behind it. -/
def name? (c : Cursor) : Option (Text × Cursor) :=
  if c.rest.head?.any Lexeme.isWordStart then
    some (c.rest.takeWhile isNamePart, c.moveTo (c.rest.dropWhile isNamePart))
  else none

/-- A quoted value, in which nothing is escaped. -/
def quoted : Recogniser := fun c =>
  match c.rest with
  | q :: text =>
    if q = '"' ∨ q = '\'' then
      match text.dropWhile (· != q) with
      | _ :: rest => some (c.moveTo rest)
      | [] => none
    else none
  | [] => none

/-- The value of an attribute. -/
def value (g : Grammar) : Recogniser := fun c =>
  if c.is "\x7b" then do
    let c ← within Scope.bracketed (g .assignment) c.advance
    expect "\x7d" c
  else if c.is "<" then do
    let c ← g .markup c
    return c.advance
  else quoted c

/-- One attribute, or attributes spread from an expression. -/
def property (g : Grammar) : Recogniser := fun c =>
  if c.is "\x7b" then do
    let c ← expect "..." c.advance
    let c ← within Scope.bracketed (g .assignment) c
    expect "\x7d" c
  else do
    let (_, c) ← name? c
    behind "=" (value g) c

/-- An expression in braces between tags, up to its closing brace. It may be empty. -/
def hole (g : Grammar) : Recogniser := fun c =>
  let c := c.advance
  if c.is "\x7d" then some c
  else do
    let c ← within Scope.bracketed (g .expression) (c.skip "...")
    if c.is "\x7d" then some c else none

/-- A closing tag with the given name, up to its last `>`. -/
def closing (tag : Text) : Recogniser := fun c =>
  if tag.isEmpty then if c.is ">" then some c else none
  else do
    let (closed, c) ← name? c
    if closed = tag ∧ c.is ">" then some c else none

/-- What stands between the tags behind the cursor, and the closing tag. -/
def children (g : Grammar) (tag : Text) : Recogniser :=
  steps fun c =>
    match c.after.dropWhile fun d => !("<>\x7b\x7d".toList.contains d) with
    | '{' :: text => (hole g (c.moveTo ('{' :: text))).map (true, ·)
    | '<' :: text =>
      let c := c.moveTo ('<' :: text)
      if c.advance.is "/" then (closing tag c.advance.advance).map (false, ·)
      else (g .markup c).map (true, ·)
    | _ => none

/-- An element or a fragment, up to but without its last `>`. -/
def element (g : Grammar) : Recogniser := fun c => do
  let c ← expect "<" c
  if c.is ">" then children g [] c
  else
    let (tag, c) ← name? c
    let c ← if c.typescript && c.is "<" then TypeExpression.arguments g c else some c
    let c ← many (fun c => !(c.is ">") && !(c.is "/")) (property g) c
    if c.is "/" then if c.advance.is ">" then some c.advance else none
    else children g tag c

end ImportOrder.Markup
