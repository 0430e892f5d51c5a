import GrammarExport.Proofs.Grammar.Rule
import GrammarExport.Syntax.Statement

/-!
# The grammar of the language

The rule of each kind of node (`Kind.rule`), and the patterns of the tokens that are not fixed.
Statements, types, expressions and values have no node of their own: `Rule.statement`, `Rule.type`,
`Rule.expression` and `Rule.value` stand in the rules of the nodes above them.

Nothing here speaks of reading. Which keyword a word is, where a token ends and how operators group
is not decided by the rules; the readers decide it, and the modules that compare the two say how.
-/

namespace GrammarExport.Syntax

/-! ### Patterns of tokens -/

/-- A letter or underscore, and then letters, underscores and digits. -/
def IsWord (w : List Char) : Prop :=
  ∃ c s, w = c :: s ∧ startsWord c = true ∧ ∀ d ∈ s, inWord d = true

/-- Words are recognized by looking at their characters. -/
instance (w : List Char) : Decidable (IsWord w) :=
  decidable_of_iff (w.head?.any startsWord = true ∧ w.tail.all inWord = true) (by
    cases w with
    | nil => simp [IsWord]
    | cons c s => simp [IsWord, and_assoc])

/-- At least one digit. -/
def IsDigits (w : List Char) : Prop :=
  w ≠ [] ∧ ∀ d ∈ w, isDigit d = true

/-- Digits, with a minus sign before them or not. -/
def IsInteger (w : List Char) : Prop :=
  ∃ ds, IsDigits ds ∧ (w = ds ∨ w = '-' :: ds)

/-- An integer, a point and digits. -/
def IsDouble (w : List Char) : Prop :=
  ∃ n ds, IsInteger n ∧ IsDigits ds ∧ w = n ++ '.' :: ds

/-- A piece of a string: a run without quotes and backslashes, or a backslash with a character
that does not end the line. -/
def IsStringPiece (p : List Char) : Prop :=
  (p ≠ [] ∧ ∀ c ∈ p, c ≠ '"' ∧ c ≠ '\\') ∨ ∃ c, c ≠ '\n' ∧ p = ['\\', c]

/-- Pieces between two quotes. -/
def IsString (w : List Char) : Prop :=
  ∃ ps : List (List Char), (∀ p ∈ ps, IsStringPiece p) ∧ w = '"' :: (ps.flatten ++ ['"'])

/-- Two slashes, and what follows on the line. -/
def IsComment (w : List Char) : Prop :=
  ∃ body, (∀ c ∈ body, c ≠ '\n') ∧ w = '/' :: '/' :: body

/-! ### Rules -/

namespace Rule

/-- What a source consists of. -/
def statement : Rule :=
  .choice [.symbol .variableDeclaration, .symbol .functionDeclaration, .symbol .assignment,
    .symbol .viewAssignment, .symbol .enumDeclaration, .symbol .coherenceCheck]

/-- A type. -/
def type : Rule := .choice [.symbol .arrayType, .symbol .templateType, .symbol .baseType]

/-- An expression. -/
def expression : Rule :=
  .choice [.symbol .literal, .symbol .binaryExpression, .symbol .parenthesizedExpression]

/-- A value. -/
def value : Rule :=
  .choice [.symbol .integerValue, .symbol .doubleValue, .symbol .booleanValue,
    .symbol .stringValue, .symbol .rangeValue, .symbol .enumValue, .symbol .arrayValue,
    .symbol .complexValue]

/-- Items with commas between them, and perhaps one after the last; or nothing. -/
def commaItems (item : Rule) : Rule :=
  .optional (.seq [sepBy1 "," item, .optional (.text ",")])

/-- One of some fixed tokens. -/
def oneOf (words : List String) : Rule := .choice (words.map .text)

end Rule

open Rule in
/-- The rule of a kind of node: what may stand below such a node. -/
def Kind.rule : Kind → Rule
  | sourceFile => .repeated statement
  | coherenceCheck => .seq [.text "cc", .symbol identifier, .text ";"]
  | viewAssignment =>
    .seq [.text "view", .symbol identifier, repeated1 (.symbol identifier), .text ";"]
  | assignment =>
    .seq [.symbol identifier, .text "=", .optional (.symbol matrixKeyword), expression,
      .text ";"]
  | enumDeclaration =>
    .seq [.text "enum", .field .name (.symbol identifier), .text "\x7b",
      commaItems (.symbol identifier), .text "\x7d"]
  | variableDeclaration =>
    .seq [oneOf ["let", "pub"], .optional (.symbol visibility), .field .name (.symbol identifier),
      .optional (.symbol rotateTo), .text ":", .symbol variableAssignment, .text ";"]
  | rotateTo => .seq [.text "rotate", .text "to", .symbol identifier]
  | visibility => oneOf ["input", "output", "internal"]
  | variableAssignment => .seq [type, .optional (.seq [.text "=", value])]
  | functionDeclaration =>
    .seq [.text "fn", .field .name (.symbol identifier), .field .parameters (.symbol parameters),
      .optional (.symbol returnType), .optional (.field .body (.symbol functionBody))]
  | parameters => .seq [.text "(", commaItems (.symbol parameter), .text ")"]
  | parameter => .seq [.field .name (.symbol identifier), .text ":", .field .type type]
  | returnType => .seq [.text "->", type]
  | functionBody => .seq [.text "\x7b", repeated1 (.symbol stringValue), .text "\x7d"]
  | arrayType => .seq [type, .text "[]"]
  | templateType =>
    .seq [.symbol complexTypeKeyword, .text "<", .symbol identifier, .text ">"]
  | baseType => .choice [.symbol complexTypeKeyword, .symbol primitiveType, .symbol identifier]
  | primitiveType => oneOf ["int", "dbl", "bool", "str", "range"]
  | complexTypeKeyword =>
    oneOf ["intDecision", "strDecision", "rangeDecision", "boolDecision", "enumDecision"]
  | parenthesizedExpression => .seq [.text "(", expression, .text ")"]
  | binaryExpression =>
    .seq [.field .left expression, .field .operator (.symbol operator), .field .right expression]
  | operator => oneOf ["+", "-", "*", "/"]
  | matrixKeyword => .text "mat"
  | literal =>
    .choice [value, .symbol functionCall, .symbol globalFunctionCall, .symbol externalVariable,
      .symbol identifier]
  | functionCall =>
    .seq [.field .name (.symbol identifier), .text "(", .optional (sepBy "," (.symbol literal)),
      .text ")"]
  | globalFunctionCall => .seq [.text "global", .text ".", .symbol functionCall]
  | externalModule => .seq [.text "@", .symbol moduleIdentifier]
  | externalVariable => .seq [.symbol externalModule, .text ".", .symbol identifier]
  | arrayValue => .seq [.text "\x7b", commaItems value, .text "\x7d"]
  | complexValue => .seq [.text "\x7b", commaItems (.symbol keyValuePair), .text "\x7d"]
  | keyValuePair => .seq [.field .key (.symbol identifier), .text ":", .field .value value]
  | enumValue => .seq [.symbol identifier, .text ".", .symbol identifier]
  | rangeValue =>
    .seq [.text "[", .symbol integerValue, .text "/", .symbol integerValue, .text "]"]
  | identifier => .pattern IsWord
  | moduleIdentifier => .pattern IsWord
  | integerValue => .pattern IsInteger
  | doubleValue => .pattern IsDouble
  | booleanValue => oneOf ["true", "false"]
  | stringValue => .pattern IsString
  | comment => .pattern IsComment

end GrammarExport.Syntax
