import ImportOrder.Character.Numeric
import ImportOrder.Text.Basic

/-!
# The token probe

A look at the first few tokens of a statement, enough to tell `import 'x'` from
`import {} from 'x'`. The probe knows names, quoted strings, numbers, templates and single-character
punctuators, and skips blanks and comments. An unclosed string or comment reaches to the end of the
probed text.

## Main definitions

- `TokenKind`
- `Token.skipTrivia`: what follows the blanks and comments at the front
- `Token.afterToken`: what follows the token at the front
- `Token.kindAt`: the kind of the token with a given index
- `Text.tokenKind`: the probe on a span of a text

## Design notes

The probe works on characters and every step returns a tail of its input, so that it depends on
nothing but the probed text and cuts that text only once, at the ends of the span.
-/

namespace ImportOrder

/-- The kinds of tokens that the probe tells apart. -/
inductive TokenKind where
  /-- A name or a keyword. -/
  | identifier
  /-- A string in single or double quotes. -/
  | string
  /-- A number. -/
  | numeric
  /-- A template, from backquote to backquote. -/
  | template
  /-- Any other character. -/
  | punctuator
deriving DecidableEq, Repr, Inhabited

namespace Token

open Character

/-- Where a skipping step stands: between blanks, or inside one of the two forms of comment. -/
inductive Trivia where
  /-- Outside of comments. -/
  | blank
  /-- In a comment that ends with its line. -/
  | line
  /-- In a comment that ends with `*/`. -/
  | block
deriving DecidableEq, Repr

/-- What follows the trivia at the front, the text starting inside the given kind of trivia. -/
def skipTriviaIn : Trivia → Text → Text
  | _, [] => []
  | .blank, '/' :: '/' :: text => skipTriviaIn .line text
  | .blank, '/' :: '*' :: text => skipTriviaIn .block text
  | .blank, c :: text => if isBlank c then skipTriviaIn .blank text else c :: text
  | .line, c :: text =>
    if isLineBreak c then skipTriviaIn .blank text else skipTriviaIn .line text
  | .block, '*' :: '/' :: text => skipTriviaIn .blank text
  | .block, _ :: text => skipTriviaIn .block text

/-- What follows the blanks and comments at the front. -/
def skipTrivia (text : Text) : Text :=
  skipTriviaIn .blank text

/-- What follows the closing quote; a backslash hides the character after it. -/
def afterQuoted (quote : Char) : Text → Text
  | [] => []
  | '\\' :: _ :: text => afterQuoted quote text
  | c :: text => if c = quote then text else afterQuoted quote text

/-- Can the character start a name? -/
def isNameStart (c : Char) : Bool :=
  c == '$' || c == '_' || c == '\\' || isAlphabetic c

/-- Can the character continue a name? -/
def isNamePart (c : Char) : Bool :=
  isNameStart c || isAlphanumeric c || c == '\u200c' || c == '\u200d'

/-- Can the character continue a number? -/
def isNumberPart (c : Char) : Bool :=
  c.isAlphanum || c == '.' || c == '_'

/-- The kind of the token that starts with a character. -/
def kindOf (c : Char) : TokenKind :=
  if c == '\'' || c == '"' then .string
  else if c == '`' then .template
  else if c.isDigit then .numeric
  else if isNameStart c then .identifier
  else .punctuator

/-- What follows the token whose first character is `c` and whose other characters start `text`. -/
def afterToken (c : Char) (text : Text) : Text :=
  match kindOf c with
  | .string | .template => afterQuoted c text
  | .numeric => text.dropWhile isNumberPart
  | .identifier => text.dropWhile isNamePart
  | .punctuator => text

/-- The kind of the token with the given index, counted from zero. -/
def kindAt : Nat → Text → Option TokenKind
  | index, text => match skipTrivia text with
    | [] => none
    | c :: rest => match index with
      | 0 => some (kindOf c)
      | index + 1 => kindAt index (afterToken c rest)

end Token

/-- The kind of the token with the given index among the tokens of a span. A span that reaches past
the end of the text ends there, and one that then holds nothing has no tokens. -/
def Text.tokenKind (text : Text) (span : Span) (index : Nat) : Checked (Option TokenKind) :=
  let stop := min span.stop text.byteLength
  if span.start < stop then (Token.kindAt index) <$> text.slice ⟨span.start, stop⟩
  else .ok none

end ImportOrder
