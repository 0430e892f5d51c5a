import GrammarExport.Proofs.Grammar.Basic
import GrammarExport.Syntax.View

/-!
# Trees of the grammar

A tree **conforms** to the grammar if the children of every node of it match the rule of the node's
kind (`Tree.Conforms`). Two more properties of nodes go with it, since the rules alone leave them
open: operators group to the left (`Tree.GroupsLeft`), and braces around nothing are an array
(`Tree.FillsRecords`).

The tokens of a tree from left to right are its **leaves** (`Tree.leaves`). A leaf knows the kind of
the node it stands in, and the words that are *offered* where it stands: those that the grammar has
as fixed tokens at this place beside a name. What is offered depends on the way from the root down
to the leaf, but on no token of the tree (`Kind.offered`). A name that is spelled like a word
offered there cannot be told from it.

A tree without the gaps and the texts of its tokens is its **outline**. A tree is given by its
outline and its tokens, and tokens can be put into an outline as one likes
(`Tree.exists_outline_tokens`).
-/

namespace GrammarExport.Syntax

namespace Tree

/-- Induction over a tree and the trees below it. -/
theorem induction {P : Tree → Prop} (token : ∀ gap text, P (.token gap text))
    (node : ∀ kind role children, (∀ c ∈ children, P c) → P (.node kind role children)) :
    ∀ t, P t
  | .token gap text => token gap text
  | .node kind role children => node kind role children fun c _ ↦ induction token node c

/-! ### Properties of nodes -/

/-- Every node of a tree has a property, which may speak of its kind and of its children. -/
inductive Everywhere (p : Kind → List Tree → Prop) : Tree → Prop
  | token (gap : Gap) (text : List Char) : Everywhere p (.token gap text)
  | node {kind : Kind} {role : Option Role} {children : List Tree} (here : p kind children)
      (below : ∀ c ∈ children, Everywhere p c) : Everywhere p (.node kind role children)

/-- A condition holds everywhere in a node if it holds of the node and everywhere in its
children. -/
theorem everywhere_node_iff {p : Kind → List Tree → Prop} {kind : Kind} {role : Option Role}
    {children : List Tree} :
    Everywhere p (.node kind role children) ↔
      p kind children ∧ ∀ c ∈ children, Everywhere p c := by
  constructor
  · intro h
    cases h with
    | node here below => exact ⟨here, below⟩
  · rintro ⟨here, below⟩
    exact .node here below

/-- The children of every node match the rule of its kind. -/
def Conforms : Tree → Prop := Everywhere fun kind children ↦ kind.rule.Matches children

/-- The root is that of a whole source. -/
def IsSource (t : Tree) : Prop := ∃ cs, t = .node .sourceFile none cs

/-- No right operand is itself an operation. -/
def GroupsLeft : Tree → Prop :=
  Everywhere fun kind children ↦ kind = .binaryExpression →
    ∀ cs, .node .binaryExpression (some .right) cs ∉ children

/-- No record is empty: something stands between its braces. -/
def FillsRecords : Tree → Prop :=
  Everywhere fun kind children ↦ kind = .complexValue → 2 < children.length

/-! ### Tokens -/

mutual

/-- The tokens of a tree, from left to right. -/
def tokens : Tree → List Lexeme
  | token gap text => [⟨gap, text⟩]
  | node _ _ children => tokensOfAll children

/-- The tokens of trees that follow one another. -/
def tokensOfAll : List Tree → List Lexeme
  | [] => []
  | t :: ts => t.tokens ++ tokensOfAll ts

end

/-- The tokens of trees are those of each of them, in order. -/
theorem tokensOfAll_eq_flatMap (ts : List Tree) : tokensOfAll ts = ts.flatMap tokens := by
  induction ts with
  | nil => rfl
  | cons t ts ih => rw [tokensOfAll, ih, List.flatMap_cons]

end Tree

/-- A token as written, with the gap before it. -/
def Lexeme.spelling (t : Lexeme) : List Char := t.gap.text ++ t.text

/-- Tokens as written, one after the other. -/
def spelling (ts : List Lexeme) : List Char := ts.flatMap Lexeme.spelling

/-! ### Leaves -/

/-- A token of a tree, the kind of the node it stands in, and the words that the grammar offers
beside a name at its place. -/
structure Leaf extends Lexeme where
  kind : Kind
  offered : List String

/-- Whether a leaf is a name. -/
def Leaf.IsName (l : Leaf) : Prop := l.kind = .identifier ∨ l.kind = .moduleIdentifier

/-- Whether a leaf is spelled like a word offered at its place. -/
def Leaf.IsOffered (l : Leaf) : Prop := ∃ w ∈ l.offered, w.toList = l.text

/-- The words offered where the child number `i` of a node starts, given those offered where the
node itself starts. They are the node's for its first child, and none for the others, except where
the rule has a choice of fixed tokens and names there. -/
def Kind.offered (kind : Kind) (lead : List String) (i : Nat) : List String :=
  match kind, i with
  | sourceFile, _ => ["cc", "view", "enum", "fn", "let", "pub"]
  -- directly after the equals sign
  | assignment, 2 => ["mat"]
  -- directly after `let` or `pub`
  | variableDeclaration, 1 => ["input", "output", "internal"]
  | variableAssignment, 0 | parameter, 2 | returnType, 1 =>
    ["int", "dbl", "bool", "str", "range", "intDecision", "strDecision", "rangeDecision",
      "boolDecision", "enumDecision"]
  | literal, 0 => ["global", "true", "false"] ++ lead
  | variableAssignment, 2 | keyValuePair, 2 | arrayValue, _ => ["true", "false"]
  -- an array may still come of it; after the first field it is a record
  | complexValue, 1 => ["true", "false"]
  | _, 0 => lead
  | _, _ => []

namespace Tree

mutual

/-- The leaves of a tree that stands in a node of a kind, with the words offered where it
starts. -/
def leaves (kind : Kind) (offered : List String) : Tree → List Leaf
  | token gap text => [⟨⟨gap, text⟩, kind, offered⟩]
  | node kind' _ children => leavesFrom kind' offered 0 children

/-- The leaves of the children of a node of a kind, from the child number `i` on. -/
def leavesFrom (kind : Kind) (lead : List String) (i : Nat) : List Tree → List Leaf
  | [] => []
  | t :: ts => t.leaves kind (kind.offered lead i) ++ leavesFrom kind lead (i + 1) ts

end

/-! ### Outlines -/

mutual

/-- A tree without the gaps and the texts of its tokens. -/
def outline : Tree → Tree
  | token _ _ => token [] []
  | node kind role children => node kind role (outlineOfAll children)

/-- Trees without the gaps and the texts of their tokens. -/
def outlineOfAll : List Tree → List Tree
  | [] => []
  | t :: ts => t.outline :: outlineOfAll ts

end

end Tree

/-! ### Sources -/

namespace Source

/-- The tree of a source. -/
def tree (s : Source) : Tree := .node .sourceFile none (s.statements.map Statement.tree)

/-- The leaves of a source. -/
def leaves (s : Source) : List Leaf := s.tree.leaves .sourceFile []

/-- The byte order mark of a source, if it has one. -/
def opening (s : Source) : List Char := if s.byteOrderMark then [mark] else []

end Source

end GrammarExport.Syntax
