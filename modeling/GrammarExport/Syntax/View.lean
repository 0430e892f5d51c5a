import GrammarExport.Syntax.Statement
import GrammarExport.Syntax.Tree

/-!
# Trees of sources

The syntax tree of each construct: which kinds of nodes it has, in which order and in which roles.
`Source.root` is the tree of a whole source as people see it.
-/

namespace GrammarExport.Syntax

/-- A token that is a node of its own. -/
def Lexeme.tree (kind : Kind) (t : Lexeme) : Tree := .node kind none [.token t.gap t.text]

/-- A name. -/
def Lexeme.name (t : Lexeme) : Tree := t.tree .identifier

/-- A fixed token that is no node. -/
def fixed (gap : Gap) (text : String) : Tree := .token gap text.toList

namespace CommaList

variable {α : Type}

/-- The trees of the items and of the commas. -/
def trees (item : α → Tree) : CommaList α → List Tree
  | nil => []
  | last a => [item a]
  | cons a comma rest => item a :: fixed comma "," :: rest.trees item

end CommaList

namespace Value

mutual

/-- The tree of a value. -/
def tree : Value → Tree
  | integer t => t.tree .integerValue
  | double t => t.tree .doubleValue
  | boolean t => t.tree .booleanValue
  | string t => t.tree .stringValue
  | range opening low slash high closing =>
    .node .rangeValue none
      [fixed opening "[", low.tree .integerValue, fixed slash "/", high.tree .integerValue,
        fixed closing "]"]
  | enumItem type dot item => .node .enumValue none [type.name, fixed dot ".", item.name]
  | array opening items closing =>
    .node .arrayValue none (fixed opening "\x7b" :: itemTrees items ++ [fixed closing "\x7d"])
  | record opening entries closing =>
    .node .complexValue none
      (fixed opening "\x7b" :: entryTrees entries ++ [fixed closing "\x7d"])

/-- The trees of the items of an array, with the commas. -/
def itemTrees : CommaList Value → List Tree
  | .nil => []
  | .last v => [v.tree]
  | .cons v comma rest => v.tree :: fixed comma "," :: itemTrees rest

/-- The tree of a field of a record. -/
def entryTree : Field Value → Tree
  | ⟨key, colon, v⟩ =>
    .node .keyValuePair none [key.name.inRole .key, fixed colon ":", v.tree.inRole .value]

/-- The trees of the fields of a record, with the commas. -/
def entryTrees : CommaList (Field Value) → List Tree
  | .nil => []
  | .last e => [entryTree e]
  | .cons e comma rest => entryTree e :: fixed comma "," :: entryTrees rest

end

end Value

namespace Literal

/-- The tree of a call with given argument trees. -/
def callTree (name : Lexeme) (opening : Gap) (arguments : List Tree) (closing : Gap) : Tree :=
  .node .functionCall none
    (name.name.inRole .name :: fixed opening "(" :: arguments ++ [fixed closing ")"])

mutual

/-- The tree of a literal. -/
def tree : Literal → Tree
  | value v => .node .literal none [v.tree]
  | call name opening arguments closing =>
    .node .literal none [callTree name opening (argumentTrees arguments) closing]
  | globalCall keyword dot name opening arguments closing =>
    .node .literal none
      [.node .globalFunctionCall none
        [fixed keyword "global", fixed dot ".",
          callTree name opening (argumentTrees arguments) closing]]
  | moduleVariable sign owner dot name =>
    .node .literal none
      [.node .externalVariable none
        [.node .externalModule none [fixed sign "@", owner.tree .moduleIdentifier],
          fixed dot ".", name.name]]
  | named t => .node .literal none [t.name]

/-- The trees of the arguments of a call, with the commas. -/
def argumentTrees : CommaList Literal → List Tree
  | .nil => []
  | .last l => [l.tree]
  | .cons l comma rest => l.tree :: fixed comma "," :: argumentTrees rest

end

end Literal

mutual

/-- The tree of an operand. -/
def Operand.tree : Operand → Tree
  | .literal l => l.tree
  | .parenthesized opening e closing =>
    .node .parenthesizedExpression none [fixed opening "(", e.tree, fixed closing ")"]

/-- The tree of an expression. -/
def Expression.tree : Expression → Tree
  | .operand o => o.tree
  | .binary left operator right =>
    .node .binaryExpression none
      [left.tree.inRole .left, (operator.tree .operator).inRole .operator,
        right.tree.inRole .right]

end

/-- The tree of a type. -/
def TypeName.tree : TypeName → Tree
  | primitive t => .node .baseType none [t.tree .primitiveType]
  | decision t => .node .baseType none [t.tree .complexTypeKeyword]
  | named t => .node .baseType none [t.name]
  | template t opening argument closing =>
    .node .templateType none
      [t.tree .complexTypeKeyword, fixed opening "<", argument.name, fixed closing ">"]
  | array element brackets => .node .arrayType none [element.tree, fixed brackets "[]"]

/-- The tree of a parameter. -/
def Parameter.tree (p : Parameter) : Tree :=
  .node .parameter none
    [p.name.name.inRole .name, fixed p.colon ":", p.type.tree.inRole .type]

/-- The tree of a rotation. -/
def Rotation.tree (r : Rotation) : Tree :=
  .node .rotateTo none [fixed r.rotate "rotate", fixed r.preposition "to", r.name.name]

/-- The tree of a function's body. -/
def Body.tree (b : Body) : Tree :=
  .node .functionBody none
    (fixed b.opening "\x7b" :: (b.first :: b.more).map (Lexeme.tree .stringValue) ++
      [fixed b.closing "\x7d"])

namespace Statement

/-- The trees of the type of a variable and of its initial value. -/
def initialTrees (type : TypeName) : Option (Gap × Value) → List Tree
  | none => [type.tree]
  | some (equals, v) => [type.tree, fixed equals "=", v.tree]

/-- The tree of a statement. -/
def tree : Statement → Tree
  | coherenceCheck keyword name semicolon =>
    .node .coherenceCheck none [fixed keyword "cc", name.name, fixed semicolon ";"]
  | view keyword name first more semicolon =>
    .node .viewAssignment none
      (fixed keyword "view" :: (name :: first :: more).map Lexeme.name ++ [fixed semicolon ";"])
  | assignment target equals matrix value semicolon =>
    .node .assignment none
      ([target.name, fixed equals "="] ++
        (matrix.map fun g ↦ Tree.node .matrixKeyword none [fixed g "mat"]).toList ++
        [value.tree, fixed semicolon ";"])
  | enumeration keyword name opening items closing =>
    .node .enumDeclaration none
      ([fixed keyword "enum", name.name.inRole .name, fixed opening "\x7b"] ++
        items.trees Lexeme.name ++ [fixed closing "\x7d"])
  | variableDeclaration keyword visibility name rotation colon type initial semicolon =>
    .node .variableDeclaration none
      (.token keyword.gap keyword.text ::
        (visibility.map (Lexeme.tree .visibility)).toList ++ [name.name.inRole .name] ++
        (rotation.map Rotation.tree).toList ++
        [fixed colon ":", .node .variableAssignment none (initialTrees type initial),
          fixed semicolon ";"])
  | function keyword name opening parameters closing result body =>
    .node .functionDeclaration none
      ([fixed keyword "fn", name.name.inRole .name,
        .node .parameters (some .parameters)
          (fixed opening "(" :: parameters.trees Parameter.tree ++ [fixed closing ")"])] ++
        (result.map fun (arrow, type) ↦
          Tree.node .returnType none [fixed arrow "->", type.tree]).toList ++
        (body.map fun b ↦ b.tree.inRole .body).toList)

end Statement

namespace Source

/-- Where the statements of a source start, in bytes. -/
def offset (s : Source) : Nat := if s.byteOrderMark then mark.utf8Size else 0

/-- What the statements of a source show. -/
def layout (s : Source) : Layout := Layout.ofTrees s.offset (s.statements.map Statement.tree)

/-- The root of a source: the nodes of its statements and the comments outside them. -/
def root (s : Source) : Placed :=
  let inner := s.layout
  .mk .sourceFile none inner.start inner.stop
    (inner.leading ++ inner.nodes ++ s.trailing.comments inner.stop)

/-- The children of a source's root. -/
def children (s : Source) : List Placed :=
  match s.root with
  | .mk _ _ _ _ nodes => nodes

end Source

end GrammarExport.Syntax
