import GrammarExport.Proofs.Derivation.Value

/-!
# Trees of types

The tree of a valid type is well formed where the words for types are offered
(`TypeName.Valid.wellFormed`), and every well-formed tree there that matches the rule for types is
the tree of a valid type (`TypeName.exists_of_wellFormed`).
-/

namespace GrammarExport.Syntax

/-- The words for types. -/
def typeWords : List String := primitiveWords ++ decisionWords

namespace TypeName

variable {kind : Kind} {t : Tree}

/-- What the grammar has for a type is a node of one of three kinds. -/
theorem matches_type_iff :
    Rule.type.Matches [t] ↔
      ∃ k ∈ [Kind.arrayType, .templateType, .baseType], ∃ cs, t = .node k none cs := by
  rw [Rule.type, Rule.matches_choice_iff]
  simp [Rule.Matches]

theorem single_type : Rule.type.Single := by
  refine Rule.single_choice ?_
  simp only [List.forall_mem_cons]
  exact ⟨Rule.single_symbol _, Rule.single_symbol _, Rule.single_symbol _, by simp⟩

theorem exists_tree_eq (t : TypeName) :
    ∃ k ∈ [Kind.arrayType, .templateType, .baseType], ∃ cs, t.tree = .node k none cs := by
  cases t with
  | primitive | decision | named => exact ⟨.baseType, by simp, _, by rw [tree]⟩
  | template => exact ⟨.templateType, by simp, _, by rw [tree]⟩
  | array => exact ⟨.arrayType, by simp, _, by rw [tree]⟩

/-- The tree of a type is what the grammar has for one. -/
theorem matches_type (t : TypeName) : Rule.type.Matches [t.tree] :=
  matches_type_iff.2 t.exists_tree_eq

/-- What stands in a base type is well formed if it is where the type stands. -/
theorem wellFormed_baseType_iff {lead : List String} {child : Tree} {k : Kind}
    (hk : k ∈ [Kind.complexTypeKeyword, .primitiveType, .identifier])
    (hchild : (Rule.symbol k).Matches [child]) :
    (Tree.node .baseType none [child]).WellFormed kind lead ↔
      child.WellFormed .baseType lead := by
  rw [Tree.wellFormed_plain_iff rfl]
  constructor
  · rintro ⟨-, h, -⟩
    exact h
  · intro h
    refine ⟨Rule.matches_choice_iff.2 ⟨.symbol k, ?_, hchild⟩, h, trivial⟩
    exact List.mem_map_of_mem (f := Rule.symbol) hk

/-- The tree of a valid type is well formed where the words for types are taken. -/
theorem Valid.wellFormed {t : TypeName} (ht : t.Valid) : t.tree.WellFormed kind typeWords := by
  induction t generalizing kind with
  | primitive t =>
    rw [tree]
    refine (wellFormed_baseType_iff (k := .primitiveType) (by simp) ⟨_, rfl⟩).2 ?_
    exact (wellFormed_oneOf_iff rfl rfl rfl).2 ⟨t, rfl, ht⟩
  | decision t =>
    rw [tree]
    refine (wellFormed_baseType_iff (k := .complexTypeKeyword) (by simp) ⟨_, rfl⟩).2 ?_
    exact (wellFormed_oneOf_iff rfl rfl rfl).2 ⟨t, rfl, ht⟩
  | named t =>
    rw [tree]
    refine (wellFormed_baseType_iff (k := .identifier) (by simp) ⟨_, rfl⟩).2 ?_
    exact wellFormed_name_iff.2 ht
  | template t opening argument closing =>
    obtain ⟨hword, hargument⟩ : t.IsOneOf decisionWords ∧ argument.FreeName [] := ht
    rw [tree, Tree.wellFormed_plain_iff rfl]
    refine ⟨by simp [Kind.rule, Rule.Matches], ?_, Tree.wellFormed_token rfl,
      wellFormed_name_iff.2 hargument, Tree.wellFormed_token rfl, trivial⟩
    exact (wellFormed_oneOf_iff rfl rfl rfl).2 ⟨t, rfl, hword⟩
  | array element brackets ih =>
    rw [tree, Tree.wellFormed_plain_iff rfl]
    refine ⟨?_, ih ht, Tree.wellFormed_token rfl, trivial⟩
    rw [Kind.rule, Rule.Matches]
    exact Rule.matchesSeq_cons_of_matches element.matches_type (by simp)

/-- A tree is the tree of a valid type wherever it stands for a type. -/
def Reflects (t : Tree) : Prop :=
  ∀ ⦃kind⦄, Rule.type.Matches [t] → t.WellFormed kind typeWords →
    ∃ type : TypeName, type.Valid ∧ type.tree = t

/-- A well-formed tree of a type is that of a valid one. -/
theorem exists_of_wellFormed (t : Tree) : Reflects t := by
  induction t using Tree.induction_smaller with
  | step t ih =>
  intro kind hmatch h
  obtain ⟨k, hk, cs, rfl⟩ := matches_type_iff.1 hmatch
  simp only [List.mem_cons, List.not_mem_nil, or_false] at hk
  rcases hk with rfl | rfl | rfl
  · rw [Tree.wellFormed_plain_iff rfl, Kind.rule, Rule.Matches] at h
    obtain ⟨hrule, h⟩ := h
    obtain ⟨u, _, rfl, hu, hrule⟩ := single_type.matchesSeq_cons_iff.1 hrule
    simp only [Rule.matchesSeq_text_iff, Rule.matchesSeq_nil_iff] at hrule
    obtain ⟨brackets, _, rfl, rfl⟩ := hrule
    obtain ⟨element, helement, htree⟩ := ih u (Tree.sizeOf_lt_of_mem (by simp)) hu h.1
    exact ⟨.array element brackets, helement, by rw [tree, htree]; rfl⟩
  · rw [Tree.wellFormed_plain_iff rfl, Kind.rule, Rule.Matches] at h
    simp only [Rule.matchesSeq_symbol_iff, Rule.matchesSeq_text_iff, Rule.matchesSeq_nil_iff] at h
    obtain ⟨⟨_, _, rfl, opening, _, rfl, _, _, rfl, closing, _, rfl, rfl⟩, hword, -, hargument,
      -⟩ := h
    obtain ⟨t, rfl, hword'⟩ := (wellFormed_oneOf_iff rfl rfl rfl).1 hword
    obtain ⟨argument, rfl, hargument'⟩ := wellFormed_identifier_iff.1 hargument
    exact ⟨.template t opening argument closing, ⟨hword', hargument'⟩, rfl⟩
  · rw [Tree.wellFormed_plain_iff rfl, Kind.rule, Rule.matches_choice_iff] at h
    obtain ⟨⟨e, he, hchild⟩, h⟩ := h
    simp only [List.mem_cons, List.not_mem_nil, or_false] at he
    rcases he with rfl | rfl | rfl
    · obtain ⟨cs, rfl⟩ := hchild
      obtain ⟨t, rfl, ht⟩ := (wellFormed_oneOf_iff rfl rfl rfl).1 h.1
      exact ⟨.decision t, ht, rfl⟩
    · obtain ⟨cs, rfl⟩ := hchild
      obtain ⟨t, rfl, ht⟩ := (wellFormed_oneOf_iff rfl rfl rfl).1 h.1
      exact ⟨.primitive t, ht, rfl⟩
    · obtain ⟨cs, rfl⟩ := hchild
      obtain ⟨t, rfl, ht⟩ := wellFormed_identifier_iff.1 h.1
      exact ⟨.named t, ht, rfl⟩

end TypeName

end GrammarExport.Syntax
