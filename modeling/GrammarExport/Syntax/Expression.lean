import GrammarExport.Syntax.Value

/-!
# Expressions

Literals and parenthesized expressions, joined by the four operators. All operators bind alike and
group to the left, so an expression is a first operand and then operators with their right
operands; that a right operand is never itself an unparenthesized operation is part of the types.
-/

namespace GrammarExport.Syntax

mutual

/-- What an operator joins: a literal, or an expression in parentheses. -/
inductive Operand where
  | literal (l : Literal)
  | parenthesized (opening : Gap) (e : Expression) (closing : Gap)

/-- Operands joined by operators, grouped to the left. -/
inductive Expression where
  | operand (o : Operand)
  | binary (left : Expression) (operator : Lexeme) (right : Operand)

end

namespace Expression

/-- Whether a character is an operator. -/
def isOperator (c : Char) : Bool :=
  c == '+' || c == '-' || c == '*' || c == '/'

/-- The operator at the front of a text. -/
def splitOperator? : List Char → Option (List Char × List Char)
  | [] => none
  | c :: s => if isOperator c then some ([c], s) else none

/-- An operator and its right operand, given a reader of operands. -/
def readStep (operand : Reader Operand) : Reader (Lexeme × Operand) := do
  let operator ← Token.lexeme splitOperator?
  let right ← operand
  return (operator, right)

/-- An expression, given a reader of operands. -/
def readAround (operand : Reader Operand) : Reader Expression := do
  let first ← operand
  let steps ← Reader.many (readStep operand)
  return steps.foldl (fun left step ↦ .binary left step.1 step.2) (.operand first)

end Expression

namespace Operand

/-- An operand, given a reader of the expression inside its parentheses. -/
def readAround (inner : Reader Expression) : Reader Operand := fun s ↦
  if Token.nextIs ['('] s then
    (do
      let opening ← Token.mark ['(']
      let e ← inner
      let closing ← Token.mark [')']
      return .parenthesized opening e closing : Reader Operand) s
  else (Operand.literal <$> Literal.read) s

/-- An operand with parentheses inside one another at most `depth` deep. -/
def readWithin : (depth : Nat) → Reader Operand
  | 0 => readAround failure
  | depth + 1 => readAround (Expression.readAround (readWithin depth))

end Operand

/-- An expression. No text has more parentheses inside one another than characters. -/
def Expression.read : Reader Expression := fun s ↦
  Expression.readAround (Operand.readWithin s.length) s

end GrammarExport.Syntax
