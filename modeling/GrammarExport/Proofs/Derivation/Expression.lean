import GrammarExport.Proofs.Derivation.Value

/-!
# Trees of literals and expressions

The tree of a valid literal, operand or expression is well formed, and every well-formed tree that
matches the rule for literals or for expressions is the tree of a valid one
(`Literal.exists_of_wellFormed`, `Expression.exists_of_wellFormed`). Since operators group to the
left, a right operand is a literal or stands in parentheses.
-/

namespace GrammarExport.Syntax

variable {kind : Kind} {lead : List String}

/-! ### Literals -/

namespace Literal

theorem exists_tree_eq (l : Literal) : ∃ cs, l.tree = .node .literal none cs := by
  cases l <;> rw [tree] <;> exact ⟨_, rfl⟩

/-- The tree of a call is well formed if those of its arguments are and there is no comma after the
last of them. -/
theorem wellFormed_callTree {name : Lexeme} {opening closing : Gap}
    {arguments : CommaList Literal} (hname : name.FreeName lead)
    (harguments : ∀ l ∈ arguments.toList, l.tree.WellFormed .functionCall [])
    (hends : arguments.Ends false true) :
    (callTree name opening (argumentTrees arguments) closing).WellFormed kind lead := by
  rw [callTree, Tree.wellFormed_plain_iff rfl, argumentTrees_eq]
  refine ⟨?_, Tree.wellFormed_inRole_iff.2 (wellFormed_name_iff.2 hname),
    Tree.wellFormed_token rfl, Tree.wellFormedFrom_append_iff.2
      ⟨(CommaList.wellFormedFrom_trees_iff [] rfl ?_).2 harguments,
        Tree.wellFormed_token rfl, trivial⟩⟩
  · rw [Kind.rule, Rule.Matches, List.cons_append, List.cons_append]
    refine Rule.matchesSeq_inRole (Rule.matches_symbol_iff.2 rfl) ?_
    rw [Rule.matchesSeq_fixed_iff, Rule.matchesSeq_sepBy_iff]
    refine Rule.matchesSeq_of_commaList (fun l _ ↦ ?_) hends (by simp)
    obtain ⟨cs, hl⟩ := l.exists_tree_eq
    rw [hl]
    exact Rule.matches_symbol_iff.2 rfl
  · exact offered_eq_nil (n := 2) (by omega) fun _ ↦ rfl

/-- What stands in a literal is well formed with the words that begin literals, besides those
offered before the literal. -/
theorem wellFormed_literal_iff {child : Tree} (hmatch : Kind.literal.rule.Matches [child]) :
    (Tree.node .literal none [child]).WellFormed kind lead ↔
      child.WellFormed .literal (literalWords ++ lead) := by
  rw [Tree.wellFormed_plain_iff rfl]
  constructor
  · rintro ⟨-, h, -⟩
    exact h
  · intro h
    exact ⟨hmatch, h, trivial⟩

/-- A literal is any one of five things. -/
theorem matches_literal {e : Rule} {child : Tree}
    (he : e ∈ [Rule.value, .symbol .functionCall, .symbol .globalFunctionCall,
      .symbol .externalVariable, .symbol .identifier])
    (h : e.Matches [child]) : Kind.literal.rule.Matches [child] :=
  Rule.matches_choice_iff.2 ⟨e, he, h⟩

/-- The tree of a valid literal is well formed. -/
theorem Valid.wellFormed {l : Literal} (hl : l.Valid lead) : l.tree.WellFormed kind lead := by
  induction hl generalizing kind with
  | value hv =>
    rw [tree]
    exact (wellFormed_literal_iff (matches_literal (by simp) (Value.matches_value _))).2
      hv.wellFormed
  | call hname harguments hends ih =>
    rw [tree]
    exact (wellFormed_literal_iff
      (matches_literal (e := .symbol .functionCall) (by simp) ⟨_, rfl⟩)).2
      (wellFormed_callTree hname (fun l hl ↦ ih l hl) hends)
  | globalCall hname harguments hends ih =>
    rw [tree]
    refine (wellFormed_literal_iff
      (matches_literal (e := .symbol .globalFunctionCall) (by simp) ⟨_, rfl⟩)).2 ?_
    rw [Tree.wellFormed_plain_iff rfl]
    refine ⟨?_, Tree.wellFormed_token rfl, Tree.wellFormed_token rfl,
      wellFormed_callTree hname (fun l hl ↦ ih l hl) hends, trivial⟩
    simp [Kind.rule, Rule.Matches, callTree]
  | moduleVariable howner hname =>
    rw [tree]
    refine (wellFormed_literal_iff
      (matches_literal (e := .symbol .externalVariable) (by simp) ⟨_, rfl⟩)).2 ?_
    rw [Tree.wellFormed_plain_iff rfl]
    refine ⟨by simp [Kind.rule, Rule.Matches], ?_, Tree.wellFormed_token rfl,
      wellFormed_name_iff.2 hname, trivial⟩
    rw [Tree.wellFormed_plain_iff rfl]
    exact ⟨by simp [Kind.rule, Rule.Matches], Tree.wellFormed_token rfl,
      wellFormed_moduleIdentifier_iff.2 ⟨_, rfl, howner⟩, trivial⟩
  | named ht =>
    rw [tree]
    exact (wellFormed_literal_iff
      (matches_literal (e := .symbol .identifier) (by simp) ⟨_, rfl⟩)).2
      (wellFormed_name_iff.2 ht)

/-- A tree is the tree of a valid literal wherever it is a literal. -/
def Reflects (t : Tree) : Prop :=
  ∀ ⦃kind lead cs⦄, t = .node .literal none cs → t.WellFormed kind lead →
    ∃ l, Valid lead l ∧ l.tree = t

/-- A well-formed tree of a call is that of a valid one, if this holds of smaller trees of
literals. -/
theorem exists_call {cs : List Tree} (h : (Tree.node .functionCall none cs).WellFormed kind lead)
    (ih : ∀ u, sizeOf u < sizeOf (Tree.node .functionCall none cs) → Reflects u) :
    ∃ (name : Lexeme) (opening : Gap) (arguments : CommaList Literal) (closing : Gap),
      name.FreeName lead ∧ (∀ l ∈ arguments.toList, l.Valid []) ∧ arguments.Ends false true ∧
        callTree name opening (argumentTrees arguments) closing = .node .functionCall none cs := by
  rw [Tree.wellFormed_plain_iff rfl, Kind.rule, Rule.Matches, Rule.matchesSeq_field_iff] at h
  obtain ⟨⟨k, ns, _, rfl, hnameRule, hrule⟩, hname, hrest⟩ := h
  obtain ⟨opening, us, rfl, hitems⟩ := Rule.matchesSeq_text_iff.1 hrule
  obtain ⟨l, closing, rfl, hl, hends⟩ := Rule.exists_commaList_of_matchesSeq
    (Rule.single_symbol _) (Rule.matchesSeq_sepBy_iff.1 hitems)
  obtain rfl := Rule.matches_symbol_iff.1 hnameRule
  obtain ⟨name, rfl, hname'⟩ := wellFormed_identifier_iff.1 hname
  have hwell := (CommaList.wellFormedFrom_trees_iff [] rfl
    (offered_eq_nil (n := 2) (by omega) fun _ ↦ rfl)).1
    (Tree.wellFormedFrom_append_iff.1 hrest.2).1
  have hliterals : ∀ u ∈ l.toList, ∃ l : Literal, l.Valid [] ∧ l.tree = u := by
    intro u hu
    obtain ⟨cs, heq⟩ := Rule.exists_node_of_matches_symbol (hl u hu)
    refine ih u (Tree.sizeOf_lt_of_mem ?_) heq (hwell u hu)
    exact List.mem_cons_of_mem _
      (List.mem_cons_of_mem _ (List.mem_append_left _ (CommaList.mem_trees hu)))
  obtain ⟨arguments, htrees, -, hvalid, hends'⟩ := CommaList.exists_trees_eq hliterals
  refine ⟨name, opening, arguments, closing, hname', hvalid, hends' hends, ?_⟩
  rw [callTree, argumentTrees_eq, htrees]
  rfl

/-- A well-formed tree of a literal is that of a valid one. -/
theorem exists_of_wellFormed (t : Tree) : Reflects t := by
  -- by induction on the size: the arguments stand two levels down, below the node of the call
  induction t using Tree.induction_smaller with
  | step t ih =>
  rintro kind lead cs rfl h
  rw [Tree.wellFormed_plain_iff rfl, Kind.rule, Rule.matches_choice_iff] at h
  obtain ⟨⟨e, he, hmatch⟩, h⟩ := h
  simp only [List.mem_cons, List.not_mem_nil, or_false] at he
  rcases he with rfl | rfl | rfl | rfl | rfl
  · obtain ⟨u, rfl⟩ := Value.single_value hmatch
    obtain ⟨v, hv, rfl⟩ := Value.exists_of_wellFormed u hmatch h.1
    exact ⟨.value v, .value hv, by rw [tree]⟩
  · obtain ⟨cs, rfl⟩ := hmatch
    obtain ⟨name, opening, arguments, closing, hname, harguments, hends, htree⟩ :=
      exists_call h.1 fun u hu ↦ ih u (Nat.lt_trans hu (Tree.sizeOf_lt_of_mem (by simp)))
    exact ⟨.call name opening arguments closing, .call hname harguments hends, by
      rw [tree, htree]⟩
  · obtain ⟨cs, rfl⟩ := hmatch
    have hchild := h.1
    rw [Tree.wellFormed_plain_iff rfl, Kind.rule, Rule.Matches] at hchild
    simp only [Rule.matchesSeq_symbol_iff, Rule.matchesSeq_text_iff,
      Rule.matchesSeq_nil_iff] at hchild
    obtain ⟨⟨keyword, _, rfl, dot, _, rfl, cs, _, rfl, rfl⟩, -, -, hcall, -⟩ := hchild
    obtain ⟨name, opening, arguments, closing, hname, harguments, hends, htree⟩ :=
      exists_call hcall fun u hu ↦ ih u (Nat.lt_trans (Nat.lt_trans hu
        (Tree.sizeOf_lt_of_mem (by simp))) (Tree.sizeOf_lt_of_mem List.mem_cons_self))
    exact ⟨.globalCall keyword dot name opening arguments closing,
      .globalCall hname harguments hends, by rw [tree, htree]; rfl⟩
  · obtain ⟨cs, rfl⟩ := hmatch
    have hchild := h.1
    rw [Tree.wellFormed_plain_iff rfl, Kind.rule, Rule.Matches] at hchild
    simp only [Rule.matchesSeq_symbol_iff, Rule.matchesSeq_text_iff,
      Rule.matchesSeq_nil_iff] at hchild
    obtain ⟨⟨cs, _, rfl, dot, _, rfl, _, _, rfl, rfl⟩, hmodule, -, hname, -⟩ := hchild
    rw [Tree.wellFormed_plain_iff rfl, Kind.rule, Rule.Matches] at hmodule
    simp only [Rule.matchesSeq_symbol_iff, Rule.matchesSeq_text_iff,
      Rule.matchesSeq_nil_iff] at hmodule
    obtain ⟨⟨sign, _, rfl, _, _, rfl, rfl⟩, -, howner, -⟩ := hmodule
    obtain ⟨owner, rfl, howner'⟩ := wellFormed_moduleIdentifier_iff.1 howner
    obtain ⟨name, rfl, hname'⟩ := wellFormed_identifier_iff.1 hname
    exact ⟨.moduleVariable sign owner dot name, .moduleVariable howner' hname', by
      rw [tree]; rfl⟩
  · obtain ⟨cs, rfl⟩ := hmatch
    obtain ⟨t, rfl, ht⟩ := wellFormed_identifier_iff.1 h.1
    exact ⟨.named t, .named ht, by rw [tree]; rfl⟩

end Literal

/-! ### Expressions -/

theorem Operand.exists_tree_eq (o : Operand) :
    ∃ k ∈ [Kind.literal, .parenthesizedExpression], ∃ cs, o.tree = .node k none cs := by
  cases o with
  | literal l =>
    obtain ⟨cs, h⟩ := l.exists_tree_eq
    exact ⟨.literal, by simp, cs, by rw [tree, h]⟩
  | parenthesized => exact ⟨.parenthesizedExpression, by simp, _, by rw [tree]⟩

/-- What the grammar has for an expression is a node of one of three kinds. -/
theorem Expression.matches_expression_iff {t : Tree} :
    Rule.expression.Matches [t] ↔
      ∃ k ∈ [Kind.literal, .binaryExpression, .parenthesizedExpression],
        ∃ cs, t = .node k none cs := by
  rw [Rule.expression, Rule.matches_choice_iff]
  simp [Rule.Matches]

theorem Expression.matches_expression (e : Expression) : Rule.expression.Matches [e.tree] := by
  rw [matches_expression_iff]
  cases e with
  | operand o =>
    obtain ⟨k, hk, cs, h⟩ := o.exists_tree_eq
    refine ⟨k, ?_, cs, by rw [tree, h]⟩
    rcases List.mem_cons.1 hk with rfl | hk
    · simp
    · simp [List.mem_singleton.1 hk]
  | binary => exact ⟨.binaryExpression, by simp, _, by rw [tree]⟩

/-- An expression can be given the role of a field. -/
theorem Expression.matchesSeq_inRole (e : Expression) (role : Role) {es : List Rule}
    {us : List Tree} (h : Rule.MatchesSeq es us) :
    Rule.MatchesSeq (.field role Rule.expression :: es) (e.tree.inRole role :: us) := by
  have hmatch := e.matches_expression
  obtain ⟨k, -, cs, htree⟩ := matches_expression_iff.1 hmatch
  rw [htree] at hmatch ⊢
  exact Rule.matchesSeq_inRole hmatch h

/-- The characters of operators are the words that the grammar has for them. -/
theorem isOperator_iff_isOneOf {t : Lexeme} :
    (∃ c, Expression.isOperator c = true ∧ t.text = [c]) ↔ t.IsOneOf ["+", "-", "*", "/"] := by
  constructor
  · rintro ⟨c, hc, htext⟩
    simp only [Expression.isOperator, Bool.or_eq_true, beq_iff_eq] at hc
    rw [Lexeme.IsOneOf, htext]
    rcases hc with ((rfl | rfl) | rfl) | rfl <;> decide
  · rintro ⟨w, hw, htext⟩
    rw [← htext]
    simp only [List.mem_cons, List.not_mem_nil, or_false] at hw
    rcases hw with rfl | rfl | rfl | rfl
    · exact ⟨'+', by decide, rfl⟩
    · exact ⟨'-', by decide, rfl⟩
    · exact ⟨'*', by decide, rfl⟩
    · exact ⟨'/', by decide, rfl⟩

mutual

theorem Operand.Valid.wellFormed : ∀ {o : Operand} {lead : List String} {kind : Kind},
    o.Valid lead → o.tree.WellFormed kind lead
  | .literal l, lead, kind, h => by
    rw [Operand.tree]
    exact Literal.Valid.wellFormed h
  | .parenthesized opening e closing, lead, kind, h => by
    rw [Operand.tree, Tree.wellFormed_plain_iff rfl]
    refine ⟨?_, Tree.wellFormed_token rfl, Expression.Valid.wellFormed h,
      Tree.wellFormed_token rfl, trivial⟩
    rw [Kind.rule, Rule.Matches, Rule.matchesSeq_fixed_iff]
    exact Rule.matchesSeq_cons_of_matches e.matches_expression (by simp)

/-- The tree of a valid expression is well formed: on the right of an operator there is an operand,
so operators are grouped to the left. -/
theorem Expression.Valid.wellFormed : ∀ {e : Expression} {lead : List String} {kind : Kind},
    e.Valid lead → e.tree.WellFormed kind lead
  | .operand o, lead, kind, h => by
    rw [Expression.tree]
    exact Operand.Valid.wellFormed h
  | .binary left operator right, lead, kind, ⟨hleft, hoperator, hright⟩ => by
    rw [Expression.tree, Tree.wellFormed_node_iff]
    have hoperator' : (operator.tree .operator).WellFormed .binaryExpression [] :=
      (wellFormed_oneOf_iff rfl rfl rfl).2 ⟨operator, rfl, isOperator_iff_isOneOf.1 hoperator⟩
    refine ⟨⟨?_, fun _ cs hmem ↦ ?_, by simp⟩,
      Tree.wellFormed_inRole_iff.2 (Expression.Valid.wellFormed hleft),
      Tree.wellFormed_inRole_iff.2 hoperator',
      Tree.wellFormed_inRole_iff.2 (Operand.Valid.wellFormed hright), trivial⟩
    · rw [Kind.rule, Rule.Matches]
      refine left.matchesSeq_inRole .left ?_
      refine Rule.matchesSeq_inRole (Rule.matches_symbol_iff.2 rfl) ?_
      have hmatch := (Expression.operand right).matchesSeq_inRole .right Rule.matchesSeq_nil
      rwa [Expression.tree] at hmatch
    · obtain ⟨k₁, -, cs₁, h₁⟩ := Expression.matches_expression_iff.1 left.matches_expression
      obtain ⟨k₂, hk₂, cs₂, h₂⟩ := right.exists_tree_eq
      -- the only child in the role of a right operand is `right`
      simp only [h₁, h₂, Tree.inRole, Lexeme.tree, List.mem_cons, Tree.node.injEq,
        Option.some.injEq, reduceCtorEq, false_and, and_false, false_or, true_and,
        List.not_mem_nil, or_false] at hmem
      rw [← hmem.1] at hk₂
      exact absurd hk₂ (by decide)

end

/-- A tree is the tree of a valid expression wherever it stands for an expression. -/
def Expression.Reflects (t : Tree) : Prop :=
  ∀ ⦃kind lead⦄, Rule.expression.Matches [t] → t.WellFormed kind lead →
    ∃ e, Expression.Valid lead e ∧ e.tree = t

theorem Expression.single_expression : Rule.expression.Single := by
  refine Rule.single_choice ?_
  simp only [List.forall_mem_cons]
  exact ⟨Rule.single_symbol _, Rule.single_symbol _, Rule.single_symbol _, by simp⟩

/-- A well-formed tree of an expression is that of a valid one. That operators are grouped to the
left makes what is on the right of one an operand. -/
theorem Expression.exists_of_wellFormed (t : Tree) : Reflects t := by
  induction t using Tree.induction_smaller with
  | step t ih =>
  intro kind lead hmatch h
  obtain ⟨k, hk, cs, rfl⟩ := matches_expression_iff.1 hmatch
  simp only [List.mem_cons, List.not_mem_nil, or_false] at hk
  rcases hk with rfl | rfl | rfl
  · obtain ⟨l, hl, htree⟩ := Literal.exists_of_wellFormed _ rfl h
    exact ⟨.operand (.literal l), hl, by rw [tree, Operand.tree, htree]⟩
  · rw [Tree.wellFormed_node_iff] at h
    obtain ⟨⟨hrule, hgroups, -⟩, h⟩ := h
    rw [Kind.rule, Rule.Matches] at hrule
    simp only [Rule.matchesSeq_field_iff, Rule.matchesSeq_nil_iff] at hrule
    obtain ⟨k₁, cs₁, _, rfl, hleftRule, k₂, cs₂, _, rfl, hoperatorRule, k₃, cs₃, _, rfl,
      hrightRule, rfl⟩ := hrule
    obtain ⟨hleft, hoperator, hright, -⟩ := h
    obtain ⟨left, hleft', htree₁⟩ := ih (.node k₁ none cs₁)
      (Tree.sizeOf_lt_of_role_mem (some .left) (by simp)) hleftRule
      (Tree.wellFormed_role_iff.1 hleft)
    obtain ⟨right, hright', htree₃⟩ := ih (.node k₃ none cs₃)
      (Tree.sizeOf_lt_of_role_mem (some .right) (by simp)) hrightRule
      (Tree.wellFormed_role_iff.1 hright)
    obtain rfl := Rule.matches_symbol_iff.1 hoperatorRule
    obtain ⟨operator, rfl, hoperator'⟩ := (wellFormed_oneOf_iff rfl rfl rfl).1 hoperator
    cases right with
    | operand o =>
      refine ⟨.binary left operator o,
        ⟨hleft', isOperator_iff_isOneOf.2 hoperator', hright'⟩, ?_⟩
      have htree : o.tree = .node k₃ none cs₃ := by rw [← htree₃, tree]
      rw [tree, htree₁, htree]
      rfl
    | binary =>
      -- the right operand would be an operation
      rw [tree] at htree₃
      obtain ⟨rfl, -, -⟩ := Tree.node.inj htree₃
      exact absurd (by simp) (hgroups rfl cs₃)
  · rw [Tree.wellFormed_plain_iff rfl, Kind.rule, Rule.Matches, Rule.matchesSeq_text_iff] at h
    obtain ⟨⟨opening, _, rfl, hrule⟩, -, h⟩ := h
    obtain ⟨u, _, rfl, hu, hrule⟩ := single_expression.matchesSeq_cons_iff.1 hrule
    obtain ⟨closing, rfl⟩ := Rule.matchesSeq_closing_iff.1 hrule
    obtain ⟨e, he, htree⟩ := ih u (Tree.sizeOf_lt_of_mem (by simp)) hu h.1
    refine ⟨.operand (.parenthesized opening e closing), he, ?_⟩
    rw [tree, Operand.tree, htree]
    rfl

end GrammarExport.Syntax
