import ImportOrder.Grammar.ModuleItem
import ImportOrder.Source

/-!
# Reading files

The grammar, built by recursion over its goals, and the reading of a whole file.

## Main definitions

- `Grammar.ofDepth`: the grammar for files of bounded nesting
- `Source.parse?`: the statements and comments of a text

## Design notes

The recursion is over a bound on the nesting of goals. From one goal to the next at most a handful
of goals are entered before a character is passed, so a bound that grows with the length of the text
is never reached.
-/

namespace ImportOrder

/-- The recogniser of a goal, given those of the goals inside it. -/
def Grammar.rule (g : Grammar) : Goal → Recogniser
  | .expression => Expression.sequence g
  | .assignment => Expression.assignment g
  | .unary => Expression.unary g
  | .leftHandSide => Expression.leftHandSide g
  | .typeExpression => TypeExpression.type g
  | .binding => Binding.pattern g
  | .functionTail => Function.tail g
  | .classTail => Class.tail g
  | .markup => Markup.element g
  | .statement => StatementForm.statement g
  | .moduleItem => fun c => (ModuleItem.item g c).map (·.2)

/-- The grammar for files in which goals nest at most `depth` deep. -/
def Grammar.ofDepth : (depth : Nat) → Grammar
  | 0 => fun _ _ => none
  | depth + 1 => fun goal => Grammar.rule (ofDepth depth) goal

/-- A bound on the nesting of goals in a text. -/
def Grammar.depthBound (text : Text) : Nat :=
  16 * text.length + 64

namespace Source

/-- The statements from a cursor to the end of the file, after those read so far, latest first. One
statement uses up one unit of `fuel`. -/
def parseItems (g : Grammar) :
    (fuel : Nat) → List Statement → Cursor → Option (List Statement × Cursor)
  | 0, _, _ => none
  | fuel + 1, statements, c =>
    if c.lexeme = .finish then some (statements.reverse, c)
    else do
      let (outline, d) ← ModuleItem.item g c
      parseItems g fuel (outline.at ⟨c.startOffset, d.lastStop⟩ :: statements) d

/-- The source of a text, if the text can be read. -/
def parse? (dialect : Dialect) (text : Text) : Option Source := do
  let g := Grammar.ofDepth (Grammar.depthBound text)
  let (statements, c) ← parseItems g (text.length + 1) [] (Cursor.start dialect text)
  return Source.ofParts text statements c.comments

end Source

end ImportOrder
