import GrammarExport.Proofs.Derivation.Statement
import GrammarExport.Proofs.Grammar.Outline
import GrammarExport.Proofs.Reading.Source

/-!
# Reading and derivation

A text is read as a source if and only if it spells the tokens of a well-formed tree, and the tree
of the source is then that tree (`Source.wellFormed_of_read?`, `Source.exists_read?_of_wellFormed`).

So what is read can be changed leaf by leaf: if the leaves of a well-formed tree are respelled and a
text spells the new ones, then this text is read, with the same outline and the new leaves
(`Source.exists_read?_of_respelled`).
-/

namespace GrammarExport.Syntax

/-- A well-formed tree respelled is well formed if its new leaves are readable. -/
theorem Tree.WellFormed.respell {t t' : Tree} {kind : Kind} {lead : List String}
    (h : t.WellFormed kind lead) (houtline : t'.outline = t.outline)
    (hleaves : Respelled (t.leaves kind lead) (t'.leaves kind lead))
    (hreadable : ∀ l ∈ t'.leaves kind lead, l.Readable) : t'.WellFormed kind lead :=
  ⟨h.conforms.respell houtline hleaves, h.groupsLeft.of_outline houtline,
    h.fillsRecords.of_outline houtline, hreadable⟩

/-! ### Leaves with the same texts -/

section

variable {ls ls' : List Leaf}

theorem respelled_of_map_text_eq
    (h : ls'.map (fun l ↦ l.text) = ls.map fun l ↦ l.text) : Respelled ls ls' := by
  rw [eq_comm, ← List.forall₂_eq_eq_eq, List.forall₂_map_left_iff, List.forall₂_map_right_iff] at h
  exact h.imp fun l l' heq ↦ .inl heq.symm

/-- Whether a leaf is readable is a matter of its place and its text. -/
theorem readable_of_map_text_eq (hplaces : ls'.map Leaf.place = ls.map Leaf.place)
    (htexts : ls'.map (fun l ↦ l.text) = ls.map fun l ↦ l.text)
    (h : ∀ l ∈ ls, l.Readable) : ∀ l ∈ ls', l.Readable := by
  have hpairs := congrArg₂ List.zip hplaces htexts
  rw [List.zip_map', List.zip_map'] at hpairs
  intro l' hl'
  have hmem : (l'.place, l'.text) ∈ ls.map fun l ↦ (l.place, l.text) :=
    hpairs ▸ List.mem_map_of_mem hl'
  obtain ⟨l, hl, heq⟩ := List.mem_map.1 hmem
  simp only [Leaf.place, Prod.mk.injEq] at heq
  obtain ⟨⟨hkind, hoffered⟩, htext⟩ := heq
  have hreadable := h l hl
  simp only [Leaf.Readable, Leaf.IsName, Leaf.IsOffered, hkind, hoffered, htext] at hreadable
  exact hreadable

end

namespace Source

variable {s body rest : List Char} {src : Source}

/-- The tree of a source that is read is well formed. -/
theorem wellFormed_of_read? (h : read? s = some src) : src.tree.WellFormed .sourceFile [] := by
  obtain ⟨-, -, -, -, -, hvalid⟩ := read?_eq_some_iff.1 h
  exact hvalid.wellFormed

theorem map_toLexeme_leaves (src : Source) :
    src.leaves.map Leaf.toLexeme = src.tree.tokens := src.tree.map_toLexeme_leaves .sourceFile []

/-- The text that a source is read from: the byte order mark, its tokens, and its last gap. -/
theorem spells_of_read? (h : read? s = some src) :
    s = src.opening ++ (spelling src.tree.tokens ++ src.trailing.text) ∧
      Spells src.tree.tokens (spelling src.tree.tokens ++ src.trailing.text) src.trailing.text ∧
      Gap.split src.trailing.text = (src.trailing, []) := by
  obtain ⟨body, rest, rfl, hspells, hsplit, -⟩ := read?_eq_some_iff.1 h
  rw [← tokens_tree] at hspells
  obtain rfl := hspells.eq_spelling
  obtain rfl : src.trailing.text = rest := by
    have htext := Gap.text_split rest
    rwa [hsplit, List.append_nil] at htext
  exact ⟨rfl, hspells, hsplit⟩

/-- A well-formed tree of a source is read back from the texts that its tokens spell. -/
theorem exists_read?_of_wellFormed {cs : List Tree} {b : Bool} {trailing : Gap}
    (h : (Tree.node .sourceFile none cs).WellFormed .sourceFile [])
    (hspells : Spells (Tree.node .sourceFile none cs).tokens body rest)
    (hsplit : Gap.split rest = (trailing, [])) :
    ∃ src, read? ((if b then [mark] else []) ++ body) = some src ∧
      src.tree = .node .sourceFile none cs ∧ src.byteOrderMark = b ∧ src.trailing = trailing := by
  obtain ⟨statements, rfl, hvalid⟩ := exists_of_wellFormed h
  have htokens : Spells (tokens ⟨b, statements, trailing⟩) body rest := by
    rw [← tokens_tree]
    exact hspells
  exact ⟨⟨b, statements, trailing⟩,
    read?_eq_some_iff.2 ⟨body, rest, rfl, htokens, hsplit, hvalid⟩, rfl, rfl, rfl⟩

/-- A well-formed tree respelled is read back if its new leaves are readable. -/
theorem exists_read?_of_respelled {t t' : Tree} {b : Bool} {trailing : Gap}
    (h : t.WellFormed .sourceFile []) (hroot : t.IsSource)
    (houtline : t'.outline = t.outline)
    (hrespelled : Respelled (t.leaves .sourceFile []) (t'.leaves .sourceFile []))
    (hreadable : ∀ l ∈ t'.leaves .sourceFile [], l.Readable)
    (hspells : Spells t'.tokens body rest) (hsplit : Gap.split rest = (trailing, [])) :
    ∃ src, read? ((if b then [mark] else []) ++ body) = some src ∧ src.tree = t' ∧
      src.byteOrderMark = b ∧ src.trailing = trailing := by
  have hwell := h.respell houtline hrespelled hreadable
  obtain ⟨cs, rfl⟩ := hroot
  cases t' with
  | token => simp [Tree.outline] at houtline
  | node kind role cs' =>
    obtain ⟨rfl, rfl, -⟩ := Tree.node.inj (by simpa only [Tree.outline] using houtline)
    exact exists_read?_of_wellFormed hwell hspells hsplit

/-- Tokens with the texts of those of a well-formed tree are read back, in the same outline. -/
theorem exists_read?_of_map_text_eq {t : Tree} {b : Bool} {trailing : Gap} {ts : List Lexeme}
    (h : t.WellFormed .sourceFile []) (hroot : t.IsSource)
    (htexts : ts.map Lexeme.text = t.tokens.map Lexeme.text)
    (hspells : Spells ts body rest) (hsplit : Gap.split rest = (trailing, [])) :
    ∃ src, read? ((if b then [mark] else []) ++ body) = some src ∧
      src.tree.outline = t.outline ∧ src.tree.tokens = ts ∧ src.trailing = trailing := by
  have hlength : ts.length = t.tokens.length := by simpa using congrArg List.length htexts
  -- the tree with the new tokens has the same leaves, apart from the gaps
  obtain ⟨t', houtline, rfl⟩ := Tree.exists_outline_tokens t ts hlength
  have hplaces := Tree.places_eq t t' .sourceFile [] houtline
  rw [← t.map_toLexeme_leaves .sourceFile [], ← t'.map_toLexeme_leaves .sourceFile [],
    List.map_map, List.map_map] at htexts
  obtain ⟨src, hread, rfl, -, htrailing⟩ :=
    exists_read?_of_respelled h hroot houtline (respelled_of_map_text_eq htexts)
      (readable_of_map_text_eq hplaces htexts h.readable) hspells hsplit
  exact ⟨src, hread, houtline, rfl, htrailing⟩

end Source

end GrammarExport.Syntax
