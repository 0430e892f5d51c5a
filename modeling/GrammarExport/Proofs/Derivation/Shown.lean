import GrammarExport.Proofs.Derivation.Source
import GrammarExport.Proofs.Grammar.Part

/-!
# What is shown of a source

The root of a source shows the nodes of its tree, with their places in the text, and the comments.
Without the places and the comments (`Placed.bare`) it shows the nodes of the tree and nothing else
(`Source.bare_root`). So what two sources show differs only in places and comments if their trees
have the same outline.
-/

namespace GrammarExport.Syntax

/-- The kind of a node that is shown. -/
def Placed.kind : Placed → Kind
  | mk kind .. => kind

mutual

/-- A node that is shown, without its place and without the comments below it. -/
def Placed.bare : Placed → Tree
  | mk kind role _ _ children => .node kind role (bareOfAll children)

/-- Nodes that are shown, without their places and without comments. -/
def Placed.bareOfAll : List Placed → List Tree
  | [] => []
  | n :: ns => (if n.kind = .comment then [] else [n.bare]) ++ bareOfAll ns

end

mutual

/-- The nodes of a tree, without the tokens. -/
def Tree.nodes : Tree → List Tree
  | token .. => []
  | node kind role children => [node kind role (nodesOfAll children)]

/-- The nodes of trees that follow one another. -/
def Tree.nodesOfAll : List Tree → List Tree
  | [] => []
  | t :: ts => t.nodes ++ nodesOfAll ts

end

mutual

/-- The nodes of a tree are a matter of its outline. -/
theorem Tree.nodes_outline : ∀ t : Tree, t.outline.nodes = t.nodes
  | token .. => by simp [outline, nodes]
  | node kind role children => by rw [outline, nodes, nodes, nodesOfAll_outlineOfAll children]

theorem Tree.nodesOfAll_outlineOfAll : ∀ ts : List Tree,
    nodesOfAll (outlineOfAll ts) = nodesOfAll ts
  | [] => rfl
  | t :: ts => by
    rw [outlineOfAll, nodesOfAll, nodesOfAll, nodes_outline t, nodesOfAll_outlineOfAll ts]

end

/-! ### Comments -/

/-- No node of a tree is a comment. -/
def Tree.Uncommented : Tree → Prop := Everywhere fun kind _ ↦ kind ≠ .comment

/-- A tree of the grammar has no comments among its nodes: they are in the gaps. -/
theorem Tree.Conforms.uncommented {t : Tree} (h : t.Conforms)
    (hhead : t.HeadIs IsSolid (· ≠ .comment)) : t.Uncommented := by
  induction t using Tree.induction with
  | token gap text => exact .token gap text
  | node kind role cs ih =>
    have hcs := h.headIs hhead
    have hbelow := (everywhere_node_iff.1 h).2
    exact .node hhead fun c hc ↦ ih c hc (hbelow c hc) (hcs c hc)

namespace Placed

theorem bareOfAll_append (ns ms : List Placed) :
    bareOfAll (ns ++ ms) = bareOfAll ns ++ bareOfAll ms := by
  induction ns with
  | nil => rfl
  | cons n ns ih => rw [List.cons_append, bareOfAll, bareOfAll, ih, List.append_assoc]

theorem bareOfAll_comments (offset : Nat) (g : Gap) : bareOfAll (g.comments offset) = [] := by
  induction g generalizing offset with
  | nil => rfl
  | cons piece g ih =>
    cases piece with
    | blank c => exact ih _
    | comment body =>
      rw [Gap.comments, bareOfAll, ih]
      simp [kind]

end Placed

/-! ### Layouts -/

namespace Layout

mutual

/-- A tree shows its nodes. -/
theorem bareOfAll_ofTree : ∀ (t : Tree) (offset : Nat), t.Uncommented →
    Placed.bareOfAll (ofTree offset t).leading = [] ∧
      Placed.bareOfAll (ofTree offset t).nodes = t.nodes
  | .token gap text, offset, _ => by
    rw [ofTree, Tree.nodes]
    exact ⟨Placed.bareOfAll_comments offset gap, rfl⟩
  | .node kind role children, offset, h => by
    obtain ⟨hkind, hchildren⟩ := Tree.everywhere_node_iff.1 h
    obtain ⟨hleading, hnodes⟩ := bareOfAll_ofTrees children offset hchildren
    rw [ofTree, Tree.nodes]
    refine ⟨hleading, ?_⟩
    simp [Placed.bareOfAll, Placed.kind, Placed.bare, hkind, hnodes]

/-- Trees show their nodes, one tree after the other. -/
theorem bareOfAll_ofTrees : ∀ (ts : List Tree) (offset : Nat), (∀ t ∈ ts, t.Uncommented) →
    Placed.bareOfAll (ofTrees offset ts).leading = [] ∧
      Placed.bareOfAll (ofTrees offset ts).nodes = Tree.nodesOfAll ts
  | [], offset, _ => by
    rw [ofTrees, Tree.nodesOfAll]
    exact ⟨rfl, rfl⟩
  | [t], offset, h => by
    rw [ofTrees, Tree.nodesOfAll, Tree.nodesOfAll, List.append_nil]
    exact bareOfAll_ofTree t offset (h t (by simp))
  -- the comments before a later child are shown beside it, those before the first one above
  | t :: u :: ts, offset, h => by
    obtain ⟨hleading, hnodes⟩ := bareOfAll_ofTree t offset (h t (by simp))
    obtain ⟨hleading', hnodes'⟩ := bareOfAll_ofTrees (u :: ts) (ofTree offset t).stop
      fun v hv ↦ h v (List.mem_cons_of_mem t hv)
    rw [ofTrees, Tree.nodesOfAll]
    · refine ⟨hleading, ?_⟩
      rw [Placed.bareOfAll_append, Placed.bareOfAll_append, hnodes, hleading', hnodes',
        List.append_nil]
    · simp

end

end Layout

/-- A source shows the nodes of its tree. -/
theorem Source.bare_root {s : List Char} {src : Source} (h : read? s = some src) :
    src.tree.nodes = [src.root.bare] := by
  have hwell := wellFormed_of_read? h
  have huncommented := (Tree.everywhere_node_iff.1
    (hwell.conforms.uncommented (by rw [tree]; simp [Tree.HeadIs]))).2
  obtain ⟨hleading, hnodes⟩ :=
    Layout.bareOfAll_ofTrees (src.statements.map Statement.tree) src.offset huncommented
  rw [root, Placed.bare, layout, Placed.bareOfAll_append, Placed.bareOfAll_append, hleading, hnodes,
    Placed.bareOfAll_comments, List.nil_append, List.append_nil, tree, Tree.nodes]

/-- Sources whose trees have the same outline show the same, apart from places and comments. -/
theorem Source.bare_root_eq {s s' : List Char} {src src' : Source} (h : read? s = some src)
    (h' : read? s' = some src') (houtline : src'.tree.outline = src.tree.outline) :
    src'.root.bare = src.root.bare := by
  have hnodes := congrArg Tree.nodes houtline
  rw [Tree.nodes_outline, Tree.nodes_outline, bare_root h, bare_root h'] at hnodes
  simpa using hnodes

end GrammarExport.Syntax
