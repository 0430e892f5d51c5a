import GrammarExport.Proofs.RoundTrip

/-!
# Variations of a source

What can be changed in a text without changing how it is read: a name, for any other word that is
not offered at its place (`Source.read?_rename_iff`), and the gaps between the tokens, for any gaps
that keep them apart (`Source.read?_relayout`).
-/

namespace GrammarExport.Syntax

theorem Respelled.refl (ls : List Leaf) : Respelled ls ls :=
  List.forall₂_same.2 fun _ _ ↦ .inl rfl

/-- A name is a word. -/
theorem Leaf.IsName.rule_eq {l : Leaf} (h : l.IsName) : l.kind.rule = .pattern IsWord := by
  rcases h with h | h <;> rw [h] <;> rfl

namespace Source

variable {s w : List Char} {src : Source} {before after : List Leaf} {leaf : Leaf}

/-! ### Names -/

/-- The text up to a leaf. -/
def upTo (src : Source) (before : List Leaf) (leaf : Leaf) : List Char :=
  src.opening ++ (spelling (before.map Leaf.toLexeme) ++ leaf.gap.text)

/-- The text from a leaf on. -/
def onFrom (src : Source) (after : List Leaf) : List Char :=
  spelling (after.map Leaf.toLexeme) ++ src.trailing.text

/-- A text divided at one of its leaves. -/
theorem spelling_append_leaf (src : Source) (before after : List Leaf) (leaf : Leaf) :
    src.opening ++ (spelling ((before ++ leaf :: after).map Leaf.toLexeme) ++ src.trailing.text) =
      src.upTo before leaf ++ (leaf.text ++ src.onFrom after) := by
  simp [upTo, onFrom, spelling, Lexeme.spelling]

/-- A token of a pattern can be replaced by another of this pattern, if that one is readable and can
stand in its place. -/
theorem exists_read?_replace {p : List Char → Prop} (h : read? s = some src)
    (hleaves : src.leaves = before ++ leaf :: after) (hp : leaf.kind.rule = .pattern p) (hw : p w)
    (hreplaces : Replaces w leaf.text) (hreadable : ({ leaf with text := w } : Leaf).Readable) :
    ∃ src', read? (src.upTo before leaf ++ (w ++ src.onFrom after)) = some src' ∧
      src'.tree.outline = src.tree.outline ∧
      src'.leaves = before ++ { leaf with text := w } :: after := by
  have hwell := wellFormed_of_read? h
  have hsolid := hwell.conforms.isSolid (by simp [tree, Tree.HeadIs])
  obtain ⟨-, hspells, hsplit⟩ := spells_of_read? h
  rw [← map_toLexeme_leaves, hleaves, List.map_append, List.map_cons] at hspells hsolid
  have hplaces : (before ++ { leaf with text := w } :: after).map Leaf.place =
      src.leaves.map Leaf.place := by
    rw [hleaves]
    simp [Leaf.place]
  -- put the new token into the outline of the tree and read the text of what comes out
  obtain ⟨t, houtline, hleaves'⟩ := Tree.exists_outline_leaves hplaces
  have hrespelled : Respelled src.leaves (t.leaves .sourceFile []) := by
    rw [hleaves, hleaves']
    exact List.rel_append (Respelled.refl before) (.cons (.inr ⟨p, hp, hw⟩) (Respelled.refl after))
  have hreadables : ∀ l ∈ t.leaves .sourceFile [], l.Readable := by
    have hold := hwell.readable
    rw [← leaves, hleaves, List.forall_mem_append, List.forall_mem_cons] at hold
    rw [hleaves', List.forall_mem_append, List.forall_mem_cons]
    exact ⟨hold.1, hreadable, hold.2.2⟩
  have hnew := hspells.replace hsolid hreplaces
  have htokens : t.tokens = before.map Leaf.toLexeme ++
      { leaf.toLexeme with text := w } :: after.map Leaf.toLexeme := by
    rw [← t.map_toLexeme_leaves .sourceFile [], hleaves', List.map_append, List.map_cons]
  rw [← htokens] at hnew
  obtain ⟨src', hread, rfl, -, -⟩ := exists_read?_of_respelled (b := src.byteOrderMark) hwell
    ⟨_, rfl⟩ houtline hrespelled hreadables hnew hsplit
  refine ⟨src', ?_, houtline, hleaves'⟩
  have htext := spelling_append_leaf src before after { leaf with text := w }
  rw [← map_toLexeme_leaves, leaves, hleaves'] at hread
  rw [← hread]
  exact congrArg read? htext.symm

/-- **A name can be replaced by exactly the words that are not offered at its place.** -/
theorem read?_rename_iff (h : read? s = some src) (hleaves : src.leaves = before ++ leaf :: after)
    (hname : leaf.IsName) (hw : IsWord w) :
    s = src.upTo before leaf ++ (leaf.text ++ src.onFrom after) ∧
      ((∃ src', read? (src.upTo before leaf ++ (w ++ src.onFrom after)) = some src' ∧
        src'.tree.outline = src.tree.outline ∧
        src'.leaves = before ++ { leaf with text := w } :: after) ↔
      ∀ word ∈ leaf.offered, word.toList ≠ w) := by
  have hwell := wellFormed_of_read? h
  constructor
  · rw [← spelling_append_leaf, ← hleaves, map_toLexeme_leaves]
    exact (spells_of_read? h).1
  constructor
  · rintro ⟨src', hread, -, hleaves'⟩ word hmem rfl
    -- the word would be a name in a tree that was read, where it is offered
    have hreadable := (wellFormed_of_read? hread).readable
      { leaf with text := word.toList } (by rw [← leaves, hleaves']; simp)
    exact hreadable.1 hname ⟨word, hmem, rfl⟩
  · intro hoffered
    have hold : IsWord leaf.text := by
      have hmem : leaf ∈ src.leaves := by simp [hleaves]
      exact hwell.conforms.of_mem_leaves hmem hname.rule_eq
    refine exists_read?_replace h hleaves hname.rule_eq hw (hw.replaces hold) ⟨?_, ?_⟩
    · rintro - ⟨word, hmem, heq⟩
      exact hoffered word hmem heq
    · intro hkind
      rcases hname with hname | hname <;> exact absurd (hname.symm.trans hkind) (by decide)

theorem read?_rename_iff_difference :
    (∃ src, read? "x=input-1;".toList = some src ∧
      src.tree.outline = difference.tree.outline) ∧
    ¬ ∃ src, read? "x=mat-1;".toList = some src ∧
      src.tree.outline = difference.tree.outline ∧
      src.leaves = difference.leaves.take 2 ++
        ⟨⟨[], "mat".toList⟩, .identifier, ["global", "true", "false", "mat"]⟩ ::
          difference.leaves.drop 3 := by
  have hleaves : difference.leaves = difference.leaves.take 2 ++
      ⟨⟨[], ['a']⟩, .identifier, ["global", "true", "false", "mat"]⟩ ::
        difference.leaves.drop 3 := rfl
  obtain ⟨-, hinput⟩ := read?_rename_iff read?_difference hleaves (.inl rfl)
    (w := "input".toList) (by decide)
  obtain ⟨-, hmat⟩ := read?_rename_iff read?_difference hleaves (.inl rfl)
    (w := "mat".toList) (by decide)
  constructor
  · obtain ⟨src, hread, houtline, -⟩ := hinput.2 (by decide)
    exact ⟨src, hread, houtline⟩
  · intro h
    exact hmat.1 h "mat" (by decide) rfl

/-! ### Gaps -/

/-- **Reading does not depend on the layout.** Whatever stands between the tokens of a source can be
replaced by any gaps that keep them apart, and likewise what stands before and after them: the same
tokens are read, in the same tree. A minus sign after a name needs no gaps around it to be read as
an operator. -/
theorem read?_relayout (b : Bool) :
    (∀ (s : List Char) (src : Source) (ts : List Lexeme) (trailing : Gap), read? s = some src →
      ts.map Lexeme.text = src.tree.tokens.map Lexeme.text →
      (∀ t ∈ ts.head?, t.gap = [] ∨ t.gap.Separates) → (∀ t ∈ ts.tail, t.gap.Separates) →
      (trailing = [] ∨ trailing.Separates) →
      ∃ src', read? ((if b then [mark] else []) ++ (spelling ts ++ trailing.text)) = some src' ∧
        src'.tree.outline = src.tree.outline ∧ src'.tree.tokens = ts ∧
        src'.root.bare = src.root.bare) ∧
    ∀ (x a n : Lexeme) (equals minus semicolon trailing : Gap), x.FreeName statementWords →
      a.FreeName (literalWords ++ ["mat"]) → IsDigits n.text →
      (∀ g ∈ [x.gap, equals, a.gap, minus, n.gap, semicolon], g.Closed) → trailing.Closed →
      read? ((if b then [mark] else []) ++ (spelling [x, ⟨equals, ['=']⟩, a, ⟨minus, ['-']⟩, n,
          ⟨semicolon, [';']⟩] ++ trailing.text)) =
        some ⟨b, [.assignment x equals none
          (.binary (.operand (.literal (.named a))) ⟨minus, ['-']⟩
            (.literal (.value (.integer n)))) semicolon], trailing⟩ := by
  constructor
  · intro s src ts trailing h htexts hfirst hgaps htrailing
    have hclosed : ∀ t ∈ ts.head?, t.gap.Closed := by
      intro t ht
      rcases hfirst t ht with hnil | hsep
      · rw [hnil]
        trivial
      · exact hsep.2
    obtain ⟨src', hread, houtline, htokens, -⟩ := exists_read?_of_separates
      (wellFormed_of_read? h) ⟨_, rfl⟩ htexts hclosed hgaps htrailing
    exact ⟨src', hread, houtline, htokens, bare_root_eq h hread houtline⟩
  · intro x a n equals minus semicolon trailing hx ha hn hgaps htrailing
    exact read?_assignment_difference hx ha hn hgaps htrailing

theorem read?_relayout_difference :
    (∃ src, read? "x =\ta //\n - 1 ;".toList = some src ∧
      src.tree.outline = difference.tree.outline) ∧
    read? "x=a-1;".toList = some difference := by
  constructor
  · obtain ⟨src, hread, houtline, -⟩ := (read?_relayout false).1 _ difference
      [⟨[], ['x']⟩, ⟨[.blank ' '], ['=']⟩, ⟨[.blank '\t'], ['a']⟩,
        ⟨[.blank ' ', .comment [], .blank '\n', .blank ' '], ['-']⟩, ⟨[.blank ' '], ['1']⟩,
        ⟨[.blank ' '], [';']⟩]
      [] read?_difference rfl (by simp) (by simp [Gap.Separates, Gap.Closed]; decide) (.inl rfl)
    exact ⟨src, hread, houtline⟩
  · exact (read?_relayout false).2 ⟨[], ['x']⟩ ⟨[], ['a']⟩ ⟨[], ['1']⟩ [] [] [] []
      ⟨by decide, by decide⟩ ⟨by decide, by decide⟩
      ⟨by decide, List.forall_mem_singleton.2 (by decide)⟩ (by simp [Gap.Closed]) trivial

end Source

end GrammarExport.Syntax
