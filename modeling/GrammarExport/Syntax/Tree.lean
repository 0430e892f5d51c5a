import GrammarExport.Syntax.Gap

/-!
# Syntax trees

A tree of the grammar: nodes of a kind, over tokens that carry the gap before them. The tokens of
a tree, with their gaps, spell the text it was read from (`Tree.text`).

People see only the nodes (`Layout`). There, comments are nodes too: a comment belongs to the
innermost node that has a token before it and a token after it, and at the ends of the text to the
root.
-/

namespace GrammarExport.Syntax

/-- The kinds of nodes. -/
inductive Kind where
  | sourceFile | coherenceCheck | viewAssignment | assignment | enumDeclaration
  | variableDeclaration | rotateTo | visibility | variableAssignment | functionDeclaration
  | parameters | parameter | returnType | functionBody | arrayType | templateType | baseType
  | primitiveType | complexTypeKeyword | parenthesizedExpression | binaryExpression | operator
  | matrixKeyword | literal | functionCall | globalFunctionCall | externalModule
  | externalVariable | arrayValue | complexValue | keyValuePair | enumValue | rangeValue
  | identifier | moduleIdentifier | integerValue | doubleValue | booleanValue | stringValue
  | comment
  deriving DecidableEq, Repr

/-- The name of a kind. -/
def Kind.name : Kind → String
  | sourceFile => "source_file"
  | coherenceCheck => "coherence_check"
  | viewAssignment => "view_assignment"
  | assignment => "assignment"
  | enumDeclaration => "enum_declaration"
  | variableDeclaration => "variable_declaration"
  | rotateTo => "rotate_to"
  | visibility => "visibility"
  | variableAssignment => "variable_assignment"
  | functionDeclaration => "function_declaration"
  | parameters => "parameters"
  | parameter => "parameter"
  | returnType => "return_type"
  | functionBody => "function_body"
  | arrayType => "array_type"
  | templateType => "template_type"
  | baseType => "base_type"
  | primitiveType => "primitive_type"
  | complexTypeKeyword => "complex_type_keyword"
  | parenthesizedExpression => "parenthesized_expression"
  | binaryExpression => "binary_expression"
  | operator => "operator"
  | matrixKeyword => "matrix_keyword"
  | literal => "literal"
  | functionCall => "function_call"
  | globalFunctionCall => "global_function_call"
  | externalModule => "external_module"
  | externalVariable => "external_variable"
  | arrayValue => "array_value"
  | complexValue => "complex_value"
  | keyValuePair => "key_value_pair"
  | enumValue => "enum_value"
  | rangeValue => "range_value"
  | identifier => "identifier"
  | moduleIdentifier => "module_identifier"
  | integerValue => "integer_value"
  | doubleValue => "double_value"
  | booleanValue => "boolean_value"
  | stringValue => "string_value"
  | comment => "comment"

/-- The roles that a node can have in its parent. -/
inductive Role where
  | name | parameters | body | type | left | operator | right | key | value
  deriving DecidableEq, Repr

/-- The name of a role. -/
def Role.label : Role → String
  | name => "name"
  | parameters => "parameters"
  | body => "body"
  | type => "type"
  | left => "left"
  | operator => "operator"
  | right => "right"
  | key => "key"
  | value => "value"

/-- A tree: a token with the gap before it, or a node with its children. -/
inductive Tree where
  | token (gap : Gap) (text : List Char)
  | node (kind : Kind) (role : Option Role) (children : List Tree)
  deriving Repr

namespace Tree

/-- The tree in a role of its parent; a token has none. -/
def inRole (role : Role) : Tree → Tree
  | token gap text => token gap text
  | node kind _ children => node kind (some role) children

mutual

/-- The text that a tree was read from, with the gap before it. -/
def text : Tree → List Char
  | token gap t => gap.text ++ t
  | node _ _ children => textOfAll children

/-- The text that trees were read from, one after the other. -/
def textOfAll : List Tree → List Char
  | [] => []
  | t :: ts => t.text ++ textOfAll ts

end

end Tree

/-! ### What people see -/

/-- A node with its place in the text, in bytes. -/
inductive Placed where
  | mk (kind : Kind) (role : Option Role) (start stop : Nat) (children : List Placed)
  deriving Repr

/-- The number of bytes of a text. -/
def byteLength : List Char → Nat
  | [] => 0
  | c :: s => c.utf8Size + byteLength s

/-- The comments of a gap that starts at an offset. -/
def Gap.comments (offset : Nat) : Gap → List Placed
  | [] => []
  | piece :: g =>
    let next := offset + byteLength piece.text
    match piece with
    | .blank _ => comments next g
    | .comment _ => .mk .comment none offset next [] :: comments next g

/-- What a stretch of text shows: the comments before its first token, where that token starts,
the nodes from there on, and where the stretch ends. -/
structure Layout where
  leading : List Placed
  start : Nat
  nodes : List Placed
  stop : Nat

namespace Layout

mutual

/-- What a tree shows that starts, with its gap, at an offset. -/
def ofTree (offset : Nat) : Tree → Layout
  | .token gap text =>
    let start := offset + byteLength gap.text
    ⟨gap.comments offset, start, [], start + byteLength text⟩
  | .node kind role children =>
    let inner := ofTrees offset children
    ⟨inner.leading, inner.start, [.mk kind role inner.start inner.stop inner.nodes], inner.stop⟩

/-- What trees show that follow one another from an offset on. The comments before every tree but
the first stand between two tokens. -/
def ofTrees (offset : Nat) : List Tree → Layout
  | [] => ⟨[], offset, [], offset⟩
  | [t] => ofTree offset t
  | t :: ts =>
    let first := ofTree offset t
    let rest := ofTrees first.stop ts
    ⟨first.leading, first.start, first.nodes ++ rest.leading ++ rest.nodes, rest.stop⟩

end

end Layout

namespace Placed

mutual

/-- A node as a parenthesized expression: its role, its kind and its children. -/
def expression : Placed → String
  | mk kind role _ _ children =>
    let label := match role with
      | some r => r.label ++ ": "
      | none => ""
    label ++ "(" ++ kind.name ++ expressions children ++ ")"

/-- Nodes as parenthesized expressions, each after a space. -/
def expressions : List Placed → String
  | [] => ""
  | n :: ns => " " ++ n.expression ++ expressions ns

end

mutual

/-- A node and the nodes below it, parents before children. -/
def preorder : Placed → List (Kind × Nat × Nat)
  | mk kind _ start stop children => (kind, start, stop) :: preorderAll children

/-- Nodes and the nodes below them. -/
def preorderAll : List Placed → List (Kind × Nat × Nat)
  | [] => []
  | n :: ns => n.preorder ++ preorderAll ns

end

end Placed

end GrammarExport.Syntax
