import GrammarExport.Proofs.Derivation.Expression
import GrammarExport.Proofs.Derivation.TypeName

/-!
# Trees of statements and sources

The tree of a valid statement is well formed where statements stand (`Statement.Valid.wellFormed`),
and every well-formed tree there is the tree of a valid statement
(`Statement.exists_of_wellFormed`). So the well-formed trees of whole sources are those of valid
sources (`Source.exists_of_wellFormed`).
-/

namespace GrammarExport.Syntax

variable {kind : Kind} {lead : List String}

/-! ### Parts of statements -/

/-- A well-formed tree that matches the rule for identifiers is the tree of a name. -/
theorem exists_name_of_wellFormed {t : Tree} (hmatch : (Rule.symbol .identifier).Matches [t])
    (h : t.WellFormed kind lead) : ∃ name : Lexeme, name.FreeName lead ∧ name.name = t := by
  obtain ⟨cs, rfl⟩ := Rule.exists_node_of_matches_symbol hmatch
  obtain ⟨name, rfl, hname⟩ := wellFormed_identifier_iff.1 h
  exact ⟨name, hname, rfl⟩

theorem Parameter.wellFormed {p : Parameter} (hname : p.name.FreeName lead)
    (htype : p.type.Valid) : p.tree.WellFormed kind lead := by
  rw [tree, Tree.wellFormed_plain_iff rfl]
  refine ⟨?_, Tree.wellFormed_inRole_iff.2 (wellFormed_name_iff.2 hname),
    Tree.wellFormed_token rfl, Tree.wellFormed_inRole_iff.2 htype.wellFormed, trivial⟩
  obtain ⟨k, -, cs, htree⟩ := p.type.exists_tree_eq
  have hmatch := p.type.matches_type
  rw [htree] at hmatch
  rw [Kind.rule, Rule.Matches, htree]
  refine Rule.matchesSeq_inRole (Rule.matches_symbol_iff.2 rfl) ?_
  rw [Rule.matchesSeq_fixed_iff]
  exact Rule.matchesSeq_inRole hmatch Rule.matchesSeq_nil

/-- A well-formed tree of a parameter is that of one with a name and a valid type. -/
theorem Parameter.exists_of_wellFormed {cs : List Tree}
    (h : (Tree.node .parameter none cs).WellFormed kind lead) :
    ∃ p : Parameter, (p.name.FreeName lead ∧ p.type.Valid) ∧ p.tree = .node .parameter none cs := by
  rw [Tree.wellFormed_plain_iff rfl, Kind.rule, Rule.Matches] at h
  simp only [Rule.matchesSeq_field_iff, Rule.matchesSeq_text_iff, Rule.matchesSeq_nil_iff] at h
  obtain ⟨⟨k, ns, _, rfl, hnameRule, colon, _, rfl, k', cs, _, rfl, htypeRule, rfl⟩, hname, -,
    htype, -⟩ := h
  obtain rfl := Rule.matches_symbol_iff.1 hnameRule
  obtain ⟨name, rfl, hname'⟩ := wellFormed_identifier_iff.1 hname
  obtain ⟨type, htype', htree⟩ :=
    TypeName.exists_of_wellFormed _ htypeRule (Tree.wellFormed_role_iff.1 htype)
  refine ⟨⟨name, colon, type⟩, ⟨hname', htype'⟩, ?_⟩
  rw [Parameter.tree, htree]
  rfl

theorem Rotation.wellFormed {r : Rotation} (hname : r.name.FreeName []) :
    r.tree.WellFormed kind lead := by
  rw [tree, Tree.wellFormed_plain_iff rfl]
  exact ⟨by simp [Kind.rule, Rule.Matches], Tree.wellFormed_token rfl,
    Tree.wellFormed_token rfl, wellFormed_name_iff.2 hname, trivial⟩

theorem Rotation.exists_of_wellFormed {cs : List Tree}
    (h : (Tree.node .rotateTo none cs).WellFormed kind lead) :
    ∃ r : Rotation, r.name.FreeName [] ∧ r.tree = .node .rotateTo none cs := by
  rw [Tree.wellFormed_plain_iff rfl, Kind.rule, Rule.Matches] at h
  simp only [Rule.matchesSeq_symbol_iff, Rule.matchesSeq_text_iff, Rule.matchesSeq_nil_iff] at h
  obtain ⟨⟨rotate, _, rfl, preposition, _, rfl, _, _, rfl, rfl⟩, -, -, hname, -⟩ := h
  obtain ⟨name, rfl, hname'⟩ := wellFormed_identifier_iff.1 hname
  exact ⟨⟨rotate, preposition, name⟩, hname', rfl⟩

/-- The tree of a body of texts is well formed. -/
theorem Body.wellFormed {b : Body} (hb : ∀ t ∈ b.first :: b.more, t.IsText) :
    b.tree.WellFormed kind lead := by
  rw [tree, Tree.wellFormed_plain_iff rfl]
  have hstring : ∀ {words} {t : Lexeme}, t ∈ b.first :: b.more →
      (t.tree .stringValue).WellFormed .functionBody words :=
    fun ht ↦ wellFormed_stringValue_iff.2 ⟨_, rfl, hb _ ht⟩
  refine ⟨?_, Tree.wellFormed_token rfl, Tree.wellFormedFrom_append_iff.2
    ⟨(wellFormedFrom_iff_of_offered (offered_eq_nil (n := 1) (by omega) fun _ ↦ rfl)).2 ?_,
      Tree.wellFormed_token rfl, trivial⟩⟩
  · rw [Kind.rule, Rule.Matches, List.cons_append, Rule.matchesSeq_fixed_iff, Rule.repeated1,
      Rule.matchesSeq_seq_iff]
    refine Rule.matchesSeq_cons_of_matches ⟨_, rfl⟩ ?_
    refine (Rule.single_symbol _).matchesSeq_repeated_iff.2
      ⟨b.more.map (Lexeme.tree .stringValue), _, rfl, ?_, by simp⟩
    rw [List.forall_mem_map]
    exact fun t _ ↦ ⟨_, rfl⟩
  · rw [List.forall_mem_map]
    exact fun t ht ↦ hstring ht

/-- A well-formed tree of a body is that of a body of texts, of which there is at least one. -/
theorem Body.exists_of_wellFormed {cs : List Tree}
    (h : (Tree.node .functionBody none cs).WellFormed kind lead) :
    ∃ b : Body, (∀ t ∈ b.first :: b.more, t.IsText) ∧ b.tree = .node .functionBody none cs := by
  rw [Tree.wellFormed_plain_iff rfl, Kind.rule, Rule.Matches, Rule.matchesSeq_text_iff] at h
  obtain ⟨⟨opening, _, rfl, hrule⟩, -, h⟩ := h
  rw [Rule.repeated1, Rule.matchesSeq_seq_iff, List.cons_append, List.cons_append,
    List.nil_append, Rule.matchesSeq_symbol_iff] at hrule
  obtain ⟨fs, us, rfl, hrule⟩ := hrule
  obtain ⟨vs, us, rfl, hvs, hclose⟩ := (Rule.single_symbol _).matchesSeq_repeated_iff.1 hrule
  obtain ⟨closing, rfl⟩ := Rule.matchesSeq_closing_iff.1 hclose
  obtain ⟨hfirst, hmore⟩ := h
  obtain ⟨first, rfl, hfirst'⟩ := wellFormed_stringValue_iff.1 hfirst
  have hwell := (wellFormedFrom_iff_of_offered (offered_eq_nil (n := 1) (by omega) fun _ ↦ rfl)).1
    (Tree.wellFormedFrom_append_iff.1 hmore).1
  have hstrings : ∀ v ∈ vs, ∃ t : Lexeme, t.IsText ∧ t.tree .stringValue = v := by
    intro v hv
    obtain ⟨cs, rfl⟩ := Rule.exists_node_of_matches_symbol (hvs v hv)
    obtain ⟨t, rfl, ht⟩ := wellFormed_stringValue_iff.1 (hwell _ hv)
    exact ⟨t, ht, rfl⟩
  obtain ⟨more, rfl, hmore'⟩ := exists_map_eq hstrings
  exact ⟨⟨opening, first, more, closing⟩, List.forall_mem_cons.2 ⟨hfirst', hmore'⟩, rfl⟩

/-! ### Statements -/

namespace Statement

theorem wellFormed_initialTrees {type : TypeName} {initial : Option (Gap × Value)}
    (htype : type.Valid) (hinitial : ∀ i ∈ initial, i.2.Valid booleanWords) :
    (Tree.node .variableAssignment none (initialTrees type initial)).WellFormed kind lead := by
  rw [Tree.wellFormed_plain_iff rfl, Kind.rule, Rule.Matches]
  cases initial with
  | none =>
    refine ⟨Rule.matchesSeq_cons_of_matches type.matches_type ?_, htype.wellFormed, trivial⟩
    exact Rule.matchesSeq_optional_iff.2 (.inl Rule.matchesSeq_nil)
  | some i =>
    refine ⟨Rule.matchesSeq_cons_of_matches type.matches_type ?_, htype.wellFormed,
      Tree.wellFormed_token rfl, (hinitial i rfl).wellFormed, trivial⟩
    refine Rule.matchesSeq_optional_iff.2 (.inr (Rule.matchesSeq_seq_iff.2 ?_))
    rw [List.cons_append, Rule.matchesSeq_fixed_iff]
    exact Rule.matchesSeq_cons_of_matches i.2.matches_value Rule.matchesSeq_nil

/-- What the grammar has for a type and an initial value are their trees. -/
theorem exists_initialTrees {cs : List Tree}
    (h : (Tree.node .variableAssignment none cs).WellFormed kind lead) :
    ∃ (type : TypeName) (initial : Option (Gap × Value)), type.Valid ∧
      (∀ i ∈ initial, i.2.Valid booleanWords) ∧ initialTrees type initial = cs := by
  rw [Tree.wellFormed_plain_iff rfl, Kind.rule, Rule.Matches] at h
  obtain ⟨hrule, h⟩ := h
  obtain ⟨t, _, rfl, ht, hoption⟩ := TypeName.single_type.matchesSeq_cons_iff.1 hrule
  obtain ⟨htype, h⟩ := h
  obtain ⟨type, hvalid, rfl⟩ := TypeName.exists_of_wellFormed t ht htype
  rcases Rule.matchesSeq_optional_iff.1 hoption with hnil | hseq
  · obtain rfl := Rule.matchesSeq_nil_iff.1 hnil
    exact ⟨type, none, hvalid, by simp, rfl⟩
  · rw [Rule.matchesSeq_seq_iff, List.cons_append, Rule.matchesSeq_text_iff] at hseq
    obtain ⟨equals, _, rfl, hvalue⟩ := hseq
    obtain ⟨u, _, rfl, hu, hnil⟩ := Value.single_value.matchesSeq_cons_iff.1 hvalue
    obtain rfl := Rule.matchesSeq_nil_iff.1 hnil
    obtain ⟨v, hv, rfl⟩ := Value.exists_of_wellFormed u hu h.2.1
    refine ⟨type, some (equals, v), hvalid, ?_, rfl⟩
    rintro _ ⟨⟩
    exact hv

/-- The trees of a variable declaration after the name of the variable. -/
def declaredTrees (rotation : Option Rotation) (colon : Gap) (type : TypeName)
    (initial : Option (Gap × Value)) (semicolon : Gap) : List Tree :=
  (rotation.map Rotation.tree).toList ++
    [fixed colon ":", .node .variableAssignment none (initialTrees type initial),
      fixed semicolon ";"]

/-- The rules of a variable declaration after the name of the variable. -/
def declaredRules : List Rule :=
  [.optional (.symbol .rotateTo), .text ":", .symbol .variableAssignment, .text ";"]

/-- The trees of what is declared of a variable match the rules for it and are well formed. The name
comes before them, so no words are taken there. -/
theorem wellFormed_declaredTrees {rotation : Option Rotation} {type : TypeName}
    {initial : Option (Gap × Value)} {i : Nat} (hi : 2 ≤ i) (lead : List String)
    (colon semicolon : Gap) (hrotation : ∀ r ∈ rotation, r.name.FreeName []) (htype : type.Valid)
    (hinitial : ∀ i ∈ initial, i.2.Valid booleanWords) :
    Rule.MatchesSeq declaredRules (declaredTrees rotation colon type initial semicolon) ∧
      Tree.WellFormedFrom .variableDeclaration lead i
        (declaredTrees rotation colon type initial semicolon) := by
  have hrest : Tree.WellFormed .variableDeclaration []
      (.node .variableAssignment none (initialTrees type initial)) :=
    wellFormed_initialTrees htype hinitial
  rw [wellFormedFrom_iff_of_offered (offered_eq_nil hi fun _ ↦ rfl), declaredRules,
    declaredTrees, (Rule.single_symbol _).matchesSeq_optional_iff]
  refine ⟨⟨rotation.map Rotation.tree, _, rfl, ?_, by simp⟩, ?_⟩
  · rintro _ ht
    obtain ⟨r, -, rfl⟩ := Option.map_eq_some_iff.1 ht
    exact ⟨_, rfl⟩
  · rw [List.forall_mem_append]
    constructor
    · rintro _ ht
      obtain ⟨r, hr, rfl⟩ := Option.map_eq_some_iff.1 (Option.mem_toList.1 ht)
      exact Rotation.wellFormed (hrotation r hr)
    · simp only [List.forall_mem_cons]
      exact ⟨Tree.wellFormed_token rfl, hrest, Tree.wellFormed_token rfl, by simp⟩

/-- Well-formed trees that match the rules for what is declared of a variable are those of a
rotation, a type and an initial value. -/
theorem exists_declaredTrees {i : Nat} (hi : 2 ≤ i) {ts : List Tree}
    (hrule : Rule.MatchesSeq declaredRules ts)
    (h : Tree.WellFormedFrom .variableDeclaration lead i ts) :
    ∃ (rotation : Option Rotation) (colon : Gap) (type : TypeName)
      (initial : Option (Gap × Value)) (semicolon : Gap),
      (∀ r ∈ rotation, r.name.FreeName []) ∧ type.Valid ∧
        (∀ i ∈ initial, i.2.Valid booleanWords) ∧
        declaredTrees rotation colon type initial semicolon = ts := by
  rw [wellFormedFrom_iff_of_offered (offered_eq_nil hi fun _ ↦ rfl)] at h
  obtain ⟨o, _, rfl, ho, hrest⟩ := (Rule.single_symbol _).matchesSeq_optional_iff.1 hrule
  simp only [Rule.matchesSeq_symbol_iff, Rule.matchesSeq_text_iff, Rule.matchesSeq_nil_iff] at hrest
  obtain ⟨colon, _, rfl, cs, _, rfl, semicolon, _, rfl, rfl⟩ := hrest
  obtain ⟨type, initial, htype, hinitial, rfl⟩ :=
    exists_initialTrees (h (.node _ none cs) (by simp))
  have hrotations : ∀ t ∈ o, ∃ r : Rotation, r.name.FreeName [] ∧ r.tree = t := by
    intro t ht
    obtain ⟨cs, rfl⟩ := Rule.exists_node_of_matches_symbol (ho t ht)
    exact Rotation.exists_of_wellFormed (h _ (by simp [Option.mem_def.1 ht]))
  obtain ⟨rotation, rfl, hrotation⟩ := exists_option_map_eq hrotations
  exact ⟨rotation, colon, type, initial, semicolon, hrotation, htype, hinitial, rfl⟩

/-- The tree of a variable declaration, with what is declared of the variable in one part. -/
theorem tree_variableDeclaration (keyword : Lexeme) (visibility : Option Lexeme)
    (name : Lexeme) (rotation : Option Rotation) (colon : Gap) (type : TypeName)
    (initial : Option (Gap × Value)) (semicolon : Gap) :
    (variableDeclaration keyword visibility name rotation colon type initial semicolon).tree =
      .node .variableDeclaration none (.token keyword.gap keyword.text ::
        ((visibility.map (Lexeme.tree .visibility)).toList ++ name.name.inRole .name ::
          declaredTrees rotation colon type initial semicolon)) := by
  cases visibility <;> cases rotation <;> rfl

/-- The tree of a list of parameters is well formed if the parameters are valid, with a comma at its
end and without one. -/
theorem wellFormed_parametersTree {role : Option Role} {opening closing : Gap}
    {parameters : CommaList Parameter}
    (h : ∀ p ∈ parameters.toList, p.name.FreeName [] ∧ p.type.Valid) :
    (Tree.node .parameters role (fixed opening "(" :: parameters.trees Parameter.tree ++
      [fixed closing ")"])).WellFormed kind lead := by
  rw [Tree.wellFormed_plain_iff rfl]
  refine ⟨?_, Tree.wellFormed_token rfl, Tree.wellFormedFrom_append_iff.2
    ⟨(CommaList.wellFormedFrom_trees_iff [] rfl
      (offered_eq_nil (n := 1) (by omega) fun _ ↦ rfl)).2 ?_,
      Tree.wellFormed_token rfl, trivial⟩⟩
  · rw [Kind.rule, Rule.Matches, List.cons_append, Rule.matchesSeq_fixed_iff,
      Rule.matchesSeq_commaItems_iff]
    exact Rule.matchesSeq_of_commaList (fun p _ ↦ ⟨_, rfl⟩) parameters.ends_true (by simp)
  · exact fun p hp ↦ Parameter.wellFormed (h p hp).1 (h p hp).2

/-- A well-formed tree of parameters is that of a list of valid ones in parentheses. -/
theorem exists_parametersTree {role : Option Role} {cs : List Tree}
    (h : (Tree.node .parameters role cs).WellFormed kind lead) :
    ∃ (opening : Gap) (parameters : CommaList Parameter) (closing : Gap),
      (∀ p ∈ parameters.toList, p.name.FreeName [] ∧ p.type.Valid) ∧
        fixed opening "(" :: parameters.trees Parameter.tree ++ [fixed closing ")"] = cs := by
  rw [Tree.wellFormed_plain_iff rfl, Kind.rule, Rule.Matches, Rule.matchesSeq_text_iff] at h
  obtain ⟨⟨opening, _, rfl, hrule⟩, -, h⟩ := h
  obtain ⟨l, closing, rfl, hl, -⟩ := Rule.exists_commaList_of_matchesSeq
    (Rule.single_symbol _) (Rule.matchesSeq_commaItems_iff.1 hrule)
  have hwell := (CommaList.wellFormedFrom_trees_iff [] rfl
    (offered_eq_nil (n := 1) (by omega) fun _ ↦ rfl)).1 (Tree.wellFormedFrom_append_iff.1 h).1
  have hparameters : ∀ u ∈ l.toList,
      ∃ p : Parameter, (p.name.FreeName [] ∧ p.type.Valid) ∧ p.tree = u := by
    intro u hu
    obtain ⟨cs, rfl⟩ := Rule.exists_node_of_matches_symbol (hl u hu)
    exact Parameter.exists_of_wellFormed (hwell _ hu)
  obtain ⟨parameters, htrees, -, hvalid, -⟩ := CommaList.exists_trees_eq hparameters
  refine ⟨opening, parameters, closing, hvalid, ?_⟩
  rw [htrees]
  rfl

/-- The tree of a result type. -/
def resultTree (i : Gap × TypeName) : Tree := .node .returnType none [fixed i.1 "->", i.2.tree]

theorem wellFormed_resultTree {i : Gap × TypeName} (h : i.2.Valid) :
    (resultTree i).WellFormed kind lead := by
  rw [resultTree, Tree.wellFormed_plain_iff rfl, Kind.rule, Rule.Matches, Rule.matchesSeq_fixed_iff]
  exact ⟨Rule.matchesSeq_cons_of_matches i.2.matches_type Rule.matchesSeq_nil,
    Tree.wellFormed_token rfl, h.wellFormed, trivial⟩

theorem exists_resultTree {cs : List Tree}
    (h : (Tree.node .returnType none cs).WellFormed kind lead) :
    ∃ i : Gap × TypeName, i.2.Valid ∧ resultTree i = .node .returnType none cs := by
  rw [Tree.wellFormed_plain_iff rfl, Kind.rule, Rule.Matches, Rule.matchesSeq_text_iff] at h
  obtain ⟨⟨arrow, _, rfl, hrule⟩, -, h⟩ := h
  obtain ⟨t, _, rfl, ht, hnil⟩ := TypeName.single_type.matchesSeq_cons_iff.1 hrule
  obtain rfl := Rule.matchesSeq_nil_iff.1 hnil
  obtain ⟨type, htype, rfl⟩ := TypeName.exists_of_wellFormed t ht h.1
  exact ⟨(arrow, type), htype, rfl⟩

/-- The tree of a function, with its parameters in a node of their own. -/
theorem tree_function (keyword : Gap) (name : Lexeme) (opening : Gap)
    (parameters : CommaList Parameter) (closing : Gap) (result : Option (Gap × TypeName))
    (body : Option Body) :
    (function keyword name opening parameters closing result body).tree =
      .node .functionDeclaration none (fixed keyword "fn" :: name.name.inRole .name ::
        .node .parameters (some .parameters)
          (fixed opening "(" :: parameters.trees Parameter.tree ++ [fixed closing ")"]) ::
        ((result.map resultTree).toList ++ (body.map fun b ↦ b.tree.inRole .body).toList)) := by
  cases result <;> rfl

theorem wellFormed_view {keyword semicolon : Gap} {name first : Lexeme} {more : List Lexeme}
    (h : (view keyword name first more semicolon).Valid) :
    (view keyword name first more semicolon).tree.WellFormed kind lead := by
  rw [tree, Tree.wellFormed_plain_iff rfl]
  refine ⟨?_, Tree.wellFormed_token rfl, Tree.wellFormedFrom_append_iff.2
    ⟨(wellFormedFrom_iff_of_offered (offered_eq_nil (n := 1) (by omega) fun _ ↦ rfl)).2 ?_,
      Tree.wellFormed_token rfl, trivial⟩⟩
  · simp only [Kind.rule, Rule.Matches, List.map_cons, List.cons_append,
      Rule.matchesSeq_fixed_iff, Rule.matchesSeq_name_iff, Rule.repeated1,
      Rule.matchesSeq_seq_iff, List.nil_append]
    refine (Rule.single_symbol _).matchesSeq_repeated_iff.2
      ⟨more.map Lexeme.name, _, rfl, ?_, by simp⟩
    rw [List.forall_mem_map]
    exact fun t _ ↦ ⟨_, rfl⟩
  · rw [List.forall_mem_map]
    exact fun t ht ↦ wellFormed_name_iff.2 (h t ht)

/-- The tree of a valid assignment is well formed where the words that begin statements are taken:
its target is none of them. -/
theorem wellFormed_assignment {target : Lexeme} {equals semicolon : Gap} {matrix : Option Gap}
    {value : Expression} (h : (assignment target equals matrix value semicolon).Valid) :
    (assignment target equals matrix value semicolon).tree.WellFormed kind statementWords := by
  obtain ⟨htarget, hvalue⟩ := h
  rw [tree, Tree.wellFormed_plain_iff rfl]
  cases matrix with
  | none =>
    refine ⟨?_, wellFormed_name_iff.2 htarget, Tree.wellFormed_token rfl,
      Expression.Valid.wellFormed hvalue, Tree.wellFormed_token rfl, trivial⟩
    simp only [Kind.rule, Rule.Matches, Option.map_none, Option.toList_none, List.cons_append,
      List.nil_append, Rule.matchesSeq_fixed_iff, Rule.matchesSeq_name_iff]
    refine Rule.matchesSeq_optional_iff.2 (.inl ?_)
    exact Rule.matchesSeq_cons_of_matches value.matches_expression (by simp)
  | some g =>
    refine ⟨?_, wellFormed_name_iff.2 htarget, Tree.wellFormed_token rfl, ?_,
      Expression.Valid.wellFormed hvalue, Tree.wellFormed_token rfl, trivial⟩
    · simp only [Kind.rule, Rule.Matches, Option.map_some, Option.toList_some, List.cons_append,
        List.nil_append, Rule.matchesSeq_fixed_iff, Rule.matchesSeq_name_iff]
      refine Rule.matchesSeq_optional_iff.2 (.inr ?_)
      rw [Rule.matchesSeq_node_iff]
      exact Rule.matchesSeq_cons_of_matches value.matches_expression (by simp)
    · rw [Tree.wellFormed_plain_iff rfl]
      exact ⟨⟨g, rfl⟩, Tree.wellFormed_token rfl, trivial⟩

/-- The tree of a valid enumeration is well formed. -/
theorem wellFormed_enumeration {keyword opening closing : Gap} {name : Lexeme}
    {items : CommaList Lexeme} (h : (enumeration keyword name opening items closing).Valid) :
    (enumeration keyword name opening items closing).tree.WellFormed kind lead := by
  obtain ⟨hname, hitems⟩ := h
  rw [tree, Tree.wellFormed_plain_iff rfl]
  refine ⟨?_, Tree.wellFormed_token rfl,
    Tree.wellFormed_inRole_iff.2 (wellFormed_name_iff.2 hname),
    Tree.wellFormed_token rfl, Tree.wellFormedFrom_append_iff.2
    ⟨(CommaList.wellFormedFrom_trees_iff [] rfl
      (offered_eq_nil (n := 1) (by omega) fun _ ↦ rfl)).2 ?_,
      Tree.wellFormed_token rfl, trivial⟩⟩
  · simp only [Kind.rule, Rule.Matches, List.cons_append, List.nil_append,
      Rule.matchesSeq_fixed_iff]
    refine Rule.matchesSeq_inRole (Rule.matches_symbol_iff.2 rfl) ?_
    rw [Rule.matchesSeq_fixed_iff, Rule.matchesSeq_commaItems_iff]
    exact Rule.matchesSeq_of_commaList (fun t _ ↦ ⟨_, rfl⟩) items.ends_true (by simp)
  · exact fun t ht ↦ wellFormed_name_iff.2 (hitems t ht)

/-- The tree of a valid variable declaration is well formed. Whether a word stands before the name
shifts everything after it by one place. -/
theorem wellFormed_variableDeclaration {keyword name : Lexeme} {visibility : Option Lexeme}
    {rotation : Option Rotation} {colon semicolon : Gap} {type : TypeName}
    {initial : Option (Gap × Value)}
    (h : (variableDeclaration keyword visibility name rotation colon type initial
      semicolon).Valid) :
    (variableDeclaration keyword visibility name rotation colon type initial
      semicolon).tree.WellFormed kind statementWords := by
  obtain ⟨hkeyword, hvisibility, hname, hrotation, htype, hinitial⟩ := h
  have hkeywordRule : (Rule.oneOf ["let", "pub"]).Matches [.token keyword.gap keyword.text] := by
    obtain ⟨w, hw, htext⟩ := hkeyword
    rw [← htext]
    exact Rule.matches_choice_iff.2 ⟨.text w, List.mem_map_of_mem hw, keyword.gap, rfl⟩
  rw [tree_variableDeclaration, Tree.wellFormed_plain_iff rfl]
  -- the word for the visibility moves what follows on by one place, where other words might be
  -- offered
  cases visibility with
  | none =>
    obtain ⟨hrule, hrest⟩ := wellFormed_declaredTrees (Nat.le_refl 2) statementWords colon
      semicolon hrotation htype hinitial
    refine ⟨Rule.matchesSeq_cons_of_matches hkeywordRule ?_, Tree.wellFormed_token rfl,
      Tree.wellFormed_inRole_iff.2 (wellFormed_name_iff.2 hname), hrest⟩
    refine Rule.matchesSeq_optional_iff.2 (.inl ?_)
    exact Rule.matchesSeq_inRole (Rule.matches_symbol_iff.2 rfl) hrule
  | some t =>
    obtain ⟨hrule, hrest⟩ := wellFormed_declaredTrees (i := 3) (by omega) statementWords colon
      semicolon hrotation htype hinitial
    refine ⟨Rule.matchesSeq_cons_of_matches hkeywordRule ?_, Tree.wellFormed_token rfl,
      ?_, Tree.wellFormed_inRole_iff.2 (wellFormed_name_iff.2 hname), hrest⟩
    · refine Rule.matchesSeq_optional_iff.2 (.inr ?_)
      refine Rule.matchesSeq_cons_of_matches ⟨_, rfl⟩ ?_
      exact Rule.matchesSeq_inRole (Rule.matches_symbol_iff.2 rfl) hrule
    · exact (wellFormed_oneOf_iff rfl rfl rfl).2 ⟨t, rfl, hvisibility t rfl⟩

/-- The tree of a valid function is well formed, whichever of its parts are there. -/
theorem wellFormed_function {keyword opening closing : Gap} {name : Lexeme}
    {parameters : CommaList Parameter} {result : Option (Gap × TypeName)} {body : Option Body}
    (h : (function keyword name opening parameters closing result body).Valid) :
    (function keyword name opening parameters closing result body).tree.WellFormed kind lead := by
  obtain ⟨hname, hparameters, hresult, hbody⟩ := h
  rw [tree_function, Tree.wellFormed_plain_iff rfl]
  refine ⟨?_, Tree.wellFormed_token rfl,
    Tree.wellFormed_inRole_iff.2 (wellFormed_name_iff.2 hname),
    wellFormed_parametersTree hparameters,
    (wellFormedFrom_iff_of_offered (offered_eq_nil (n := 1) (by omega) fun _ ↦ rfl)).2 ?_⟩
  · rw [Kind.rule, Rule.Matches, Rule.matchesSeq_fixed_iff]
    refine Rule.matchesSeq_inRole (Rule.matches_symbol_iff.2 rfl) ?_
    refine Rule.matchesSeq_cons_of_matches ⟨.parameters, _, rfl, ⟨_, rfl⟩⟩ ?_
    refine (Rule.single_symbol _).matchesSeq_optional_iff.2
      ⟨result.map resultTree, _, rfl, ?_, ?_⟩
    · rintro _ ht
      obtain ⟨i, -, rfl⟩ := Option.map_eq_some_iff.1 ht
      exact ⟨_, rfl⟩
    · refine (Rule.single_field _ _).matchesSeq_optional_iff.2
        ⟨body.map fun b ↦ b.tree.inRole .body, [], by simp, ?_, Rule.matchesSeq_nil⟩
      rintro _ ht
      obtain ⟨b, -, rfl⟩ := Option.map_eq_some_iff.1 ht
      exact ⟨.functionBody, _, rfl, ⟨_, rfl⟩⟩
  · rw [List.forall_mem_append]
    constructor
    · rintro _ ht
      obtain ⟨i, hi, rfl⟩ := Option.map_eq_some_iff.1 (Option.mem_toList.1 ht)
      exact wellFormed_resultTree (hresult i hi)
    · rintro _ ht
      obtain ⟨b, hb, rfl⟩ := Option.map_eq_some_iff.1 (Option.mem_toList.1 ht)
      exact Tree.wellFormed_inRole_iff.2 (Body.wellFormed (hbody b hb))

/-- The tree of a valid statement is well formed where the words that begin statements are taken. -/
theorem Valid.wellFormed {t : Statement} (ht : t.Valid) :
    t.tree.WellFormed kind statementWords := by
  cases t with
  | coherenceCheck keyword name semicolon =>
    rw [tree, Tree.wellFormed_plain_iff rfl]
    exact ⟨by simp [Kind.rule, Rule.Matches], Tree.wellFormed_token rfl,
      wellFormed_name_iff.2 ht, Tree.wellFormed_token rfl, trivial⟩
  | view => exact wellFormed_view ht
  | assignment => exact wellFormed_assignment ht
  | enumeration => exact wellFormed_enumeration ht
  | variableDeclaration => exact wellFormed_variableDeclaration ht
  | function => exact wellFormed_function ht

/-! ### From trees to statements -/

theorem exists_view {cs : List Tree}
    (h : (Tree.node .viewAssignment none cs).WellFormed kind lead) :
    ∃ t : Statement, t.Valid ∧ t.tree = .node .viewAssignment none cs := by
  rw [Tree.wellFormed_plain_iff rfl] at h
  obtain ⟨hrule, h⟩ := h
  simp only [Kind.rule, Rule.Matches, Rule.repeated1, Rule.matchesSeq_text_iff,
    Rule.matchesSeq_symbol_iff, Rule.matchesSeq_seq_iff, List.cons_append, List.nil_append] at hrule
  obtain ⟨keyword, _, rfl, _, _, rfl, _, _, rfl, hmore⟩ := hrule
  obtain ⟨vs, _, rfl, hvs, hclose⟩ := (Rule.single_symbol _).matchesSeq_repeated_iff.1 hmore
  obtain ⟨semicolon, rfl⟩ := Rule.matchesSeq_closing_iff.1 hclose
  obtain ⟨-, hname, hfirst, hrest⟩ := h
  obtain ⟨name, rfl, hname'⟩ := wellFormed_identifier_iff.1 hname
  obtain ⟨first, rfl, hfirst'⟩ := wellFormed_identifier_iff.1 hfirst
  have hwell := (wellFormedFrom_iff_of_offered (offered_eq_nil (n := 1) (by omega) fun _ ↦ rfl)).1
    (Tree.wellFormedFrom_append_iff.1 hrest).1
  have hnames : ∀ v ∈ vs, ∃ t : Lexeme, t.FreeName [] ∧ t.name = v :=
    fun v hv ↦ exists_name_of_wellFormed (hvs v hv) (hwell v hv)
  obtain ⟨more, rfl, hmore'⟩ := exists_map_eq hnames
  refine ⟨.view keyword name first more semicolon, ?_, rfl⟩
  simpa [Valid] using ⟨hname', hfirst', hmore'⟩

theorem exists_assignment {cs : List Tree}
    (h : (Tree.node .assignment none cs).WellFormed kind statementWords) :
    ∃ t : Statement, t.Valid ∧ t.tree = .node .assignment none cs := by
  rw [Tree.wellFormed_plain_iff rfl] at h
  obtain ⟨hrule, h⟩ := h
  simp only [Kind.rule, Rule.Matches, Rule.matchesSeq_text_iff, Rule.matchesSeq_symbol_iff] at hrule
  obtain ⟨_, _, rfl, equals, _, rfl, hoption⟩ := hrule
  obtain ⟨o, _, rfl, ho, hrest⟩ := (Rule.single_symbol _).matchesSeq_optional_iff.1 hoption
  obtain ⟨u, _, rfl, hu, hclose⟩ := Expression.single_expression.matchesSeq_cons_iff.1 hrest
  obtain ⟨semicolon, rfl⟩ := Rule.matchesSeq_closing_iff.1 hclose
  obtain ⟨htarget, -, h⟩ := h
  obtain ⟨target, rfl, htarget'⟩ := wellFormed_identifier_iff.1 htarget
  -- the expression stands after the word `mat`, or in its place, where that word is offered
  cases o with
  | none =>
    obtain ⟨e, he, rfl⟩ := Expression.exists_of_wellFormed u hu h.1
    exact ⟨.assignment target equals none e semicolon, ⟨htarget', he⟩, rfl⟩
  | some t =>
    obtain ⟨cs, rfl⟩ := Rule.exists_node_of_matches_symbol (ho t rfl)
    have hmatrix := h.1
    rw [Tree.wellFormed_plain_iff rfl] at hmatrix
    obtain ⟨⟨g, rfl⟩, -⟩ := hmatrix
    obtain ⟨e, he, rfl⟩ := Expression.exists_of_wellFormed u hu h.2.1
    exact ⟨.assignment target equals (some g) e semicolon, ⟨htarget', he⟩, rfl⟩

theorem exists_enumeration {cs : List Tree}
    (h : (Tree.node .enumDeclaration none cs).WellFormed kind lead) :
    ∃ t : Statement, t.Valid ∧ t.tree = .node .enumDeclaration none cs := by
  rw [Tree.wellFormed_plain_iff rfl, Kind.rule, Rule.Matches] at h
  obtain ⟨hrule, h⟩ := h
  simp only [Rule.matchesSeq_text_iff, Rule.matchesSeq_field_iff] at hrule
  obtain ⟨keyword, _, rfl, k, ns, _, rfl, hnameRule, opening, _, rfl, hitems⟩ := hrule
  obtain ⟨l, closing, rfl, hl, -⟩ := Rule.exists_commaList_of_matchesSeq
    (Rule.single_symbol _) (Rule.matchesSeq_commaItems_iff.1 hitems)
  obtain ⟨-, hname, -, h⟩ := h
  obtain rfl := Rule.matches_symbol_iff.1 hnameRule
  obtain ⟨name, rfl, hname'⟩ := wellFormed_identifier_iff.1 hname
  have hwell := (CommaList.wellFormedFrom_trees_iff [] rfl
    (offered_eq_nil (n := 1) (by omega) fun _ ↦ rfl)).1 (Tree.wellFormedFrom_append_iff.1 h).1
  have hnames : ∀ u ∈ l.toList, ∃ t : Lexeme, t.FreeName [] ∧ t.name = u :=
    fun u hu ↦ exists_name_of_wellFormed (hl u hu) (hwell u hu)
  obtain ⟨items, htrees, -, hvalid, -⟩ := CommaList.exists_trees_eq hnames
  refine ⟨.enumeration keyword name opening items closing, ⟨hname', hvalid⟩, ?_⟩
  rw [tree, htrees]
  rfl

/-- A well-formed tree of a variable declaration is that of a valid one. -/
theorem exists_variableDeclaration {cs : List Tree}
    (h : (Tree.node .variableDeclaration none cs).WellFormed kind lead) :
    ∃ t : Statement, t.Valid ∧ t.tree = .node .variableDeclaration none cs := by
  rw [Tree.wellFormed_plain_iff rfl, Kind.rule,
    Rule.Matches, Rule.oneOf, Rule.matchesSeq_choice_iff] at h
  obtain ⟨⟨e, he, hrule⟩, h⟩ := h
  obtain ⟨w, hw, rfl⟩ := List.mem_map.1 he
  obtain ⟨g, _, rfl, hoption⟩ := Rule.matchesSeq_text_iff.1 hrule
  obtain ⟨o, _, rfl, ho, hrest⟩ := (Rule.single_symbol _).matchesSeq_optional_iff.1 hoption
  obtain ⟨k, ns, us, rfl, hnameRule, hdeclared⟩ := Rule.matchesSeq_field_iff.1 hrest
  obtain rfl := Rule.matches_symbol_iff.1 hnameRule
  have hkeyword : (Lexeme.mk g w.toList).IsOneOf declarationWords := ⟨w, hw, rfl⟩
  cases o with
  | none =>
    obtain ⟨-, hname, h⟩ := h
    obtain ⟨name, rfl, hname'⟩ := wellFormed_identifier_iff.1 hname
    obtain ⟨rotation, colon, type, initial, semicolon, hrotation, htype, hinitial, rfl⟩ :=
      exists_declaredTrees (by omega) hdeclared h
    refine ⟨.variableDeclaration ⟨g, w.toList⟩ none name rotation colon type initial semicolon,
      ⟨hkeyword, by simp, hname', hrotation, htype, hinitial⟩, ?_⟩
    rw [tree_variableDeclaration]
    rfl
  | some t =>
    obtain ⟨cs, rfl⟩ := Rule.exists_node_of_matches_symbol (ho t rfl)
    obtain ⟨-, hvisibility, hname, h⟩ := h
    obtain ⟨visibility, rfl, hvisibility'⟩ := (wellFormed_oneOf_iff rfl rfl rfl).1 hvisibility
    obtain ⟨name, rfl, hname'⟩ := wellFormed_identifier_iff.1 hname
    obtain ⟨rotation, colon, type, initial, semicolon, hrotation, htype, hinitial, rfl⟩ :=
      exists_declaredTrees (by omega) hdeclared h
    refine ⟨.variableDeclaration ⟨g, w.toList⟩ (some visibility) name rotation colon type initial
      semicolon, ⟨hkeyword, ?_, hname', hrotation, htype, hinitial⟩, ?_⟩
    · rintro _ ⟨⟩
      exact hvisibility'
    · rw [tree_variableDeclaration]
      rfl

/-- A well-formed tree of a function is that of a valid one. -/
theorem exists_function {cs : List Tree}
    (h : (Tree.node .functionDeclaration none cs).WellFormed kind lead) :
    ∃ t : Statement, t.Valid ∧ t.tree = .node .functionDeclaration none cs := by
  rw [Tree.wellFormed_plain_iff rfl, Kind.rule, Rule.Matches] at h
  obtain ⟨hrule, h⟩ := h
  simp only [Rule.matchesSeq_text_iff, Rule.matchesSeq_field_iff] at hrule
  obtain ⟨keyword, _, rfl, k, ns, _, rfl, hnameRule, k', ps, _, rfl, hparametersRule, hoption⟩ :=
    hrule
  obtain ⟨o, _, rfl, ho, hoption'⟩ := (Rule.single_symbol _).matchesSeq_optional_iff.1 hoption
  obtain ⟨o', _, rfl, ho', hnil⟩ := (Rule.single_field _ _).matchesSeq_optional_iff.1 hoption'
  obtain rfl := Rule.matchesSeq_nil_iff.1 hnil
  obtain rfl := Rule.matches_symbol_iff.1 hnameRule
  obtain rfl := Rule.matches_symbol_iff.1 hparametersRule
  obtain ⟨-, hname, hparameters, h⟩ := h
  obtain ⟨name, rfl, hname'⟩ := wellFormed_identifier_iff.1 hname
  obtain ⟨opening, parameters, closing, hparameters', rfl⟩ := exists_parametersTree hparameters
  rw [List.append_nil, wellFormedFrom_iff_of_offered
    (offered_eq_nil (n := 1) (by omega) fun _ ↦ rfl), List.forall_mem_append] at h
  have hresults : ∀ t ∈ o, ∃ i : Gap × TypeName, i.2.Valid ∧ resultTree i = t := by
    intro t ht
    obtain ⟨cs, rfl⟩ := Rule.exists_node_of_matches_symbol (ho t ht)
    exact exists_resultTree (h.1 _ (Option.mem_toList.2 ht))
  have hbodies : ∀ t ∈ o', ∃ b : Body, (∀ t ∈ b.first :: b.more, t.IsText) ∧
      b.tree.inRole .body = t := by
    intro t ht
    obtain ⟨k, cs, heq, hk⟩ := ho' t ht
    obtain rfl := (List.cons.inj heq).1
    obtain rfl := Rule.matches_symbol_iff.1 hk
    have hwell := h.2 _ (Option.mem_toList.2 ht)
    obtain ⟨b, hb, htree⟩ := Body.exists_of_wellFormed (Tree.wellFormed_role_iff.1 hwell)
    exact ⟨b, hb, by rw [htree, Tree.inRole]⟩
  obtain ⟨result, rfl, hresult⟩ := exists_option_map_eq hresults
  obtain ⟨body, rfl, hbody⟩ := exists_option_map_eq hbodies
  refine ⟨.function keyword name opening parameters closing result body,
    ⟨hname', hparameters', hresult, hbody⟩, ?_⟩
  rw [tree_function, List.append_nil]
  rfl

/-- What the grammar has for a statement is a node of one of six kinds. -/
theorem matches_statement_iff {t : Tree} :
    Rule.statement.Matches [t] ↔
      ∃ k ∈ [Kind.variableDeclaration, .functionDeclaration, .assignment, .viewAssignment,
        .enumDeclaration, .coherenceCheck], ∃ cs, t = .node k none cs := by
  rw [Rule.statement, Rule.matches_choice_iff]
  simp [Rule.Matches]

theorem single_statement : Rule.statement.Single := by
  refine Rule.single_choice ?_
  simp only [List.forall_mem_cons]
  exact ⟨Rule.single_symbol _, Rule.single_symbol _, Rule.single_symbol _, Rule.single_symbol _,
    Rule.single_symbol _, Rule.single_symbol _, by simp⟩

theorem matches_statement (t : Statement) : Rule.statement.Matches [t.tree] := by
  rw [matches_statement_iff]
  cases t with
  | coherenceCheck => exact ⟨.coherenceCheck, by simp, _, rfl⟩
  | view => exact ⟨.viewAssignment, by simp, _, rfl⟩
  | assignment => exact ⟨.assignment, by simp, _, rfl⟩
  | enumeration => exact ⟨.enumDeclaration, by simp, _, rfl⟩
  | variableDeclaration => exact ⟨.variableDeclaration, by simp, _, rfl⟩
  | function => exact ⟨.functionDeclaration, by simp, _, rfl⟩

/-- A well-formed tree of a statement is that of a valid one, by its kind. -/
theorem exists_of_wellFormed {t : Tree} (hmatch : Rule.statement.Matches [t])
    (h : t.WellFormed kind statementWords) : ∃ s : Statement, s.Valid ∧ s.tree = t := by
  obtain ⟨k, hk, cs, rfl⟩ := matches_statement_iff.1 hmatch
  simp only [List.mem_cons, List.not_mem_nil, or_false] at hk
  rcases hk with rfl | rfl | rfl | rfl | rfl | rfl
  · exact exists_variableDeclaration h
  · exact exists_function h
  · exact exists_assignment h
  · exact exists_view h
  · exact exists_enumeration h
  · rw [Tree.wellFormed_plain_iff rfl, Kind.rule, Rule.Matches] at h
    simp only [Rule.matchesSeq_text_iff, Rule.matchesSeq_symbol_iff, Rule.matchesSeq_nil_iff] at h
    obtain ⟨⟨keyword, _, rfl, _, _, rfl, semicolon, _, rfl, rfl⟩, -, hname, -⟩ := h
    obtain ⟨name, rfl, hname'⟩ := wellFormed_identifier_iff.1 hname
    exact ⟨.coherenceCheck keyword name semicolon, hname', rfl⟩

end Statement

/-! ### Sources -/

namespace Source

/-- The words that begin statements are taken before every statement of a source. -/
theorem offered_sourceFile {lead : List String} :
    ∀ j, 0 ≤ j → Kind.sourceFile.offered lead j = statementWords := fun _ _ ↦ rfl

/-- The tree of a valid source is well formed. -/
theorem Valid.wellFormed {src : Source} (h : src.Valid) : src.tree.WellFormed kind lead := by
  rw [tree, Tree.wellFormed_plain_iff rfl, Kind.rule,
    Statement.single_statement.matches_repeated_iff,
    wellFormedFrom_iff_of_offered offered_sourceFile, List.forall_mem_map,
    List.forall_mem_map]
  exact ⟨fun t _ ↦ t.matches_statement, fun t ht ↦ (h t ht).wellFormed⟩

/-- A well-formed tree of a source is that of a valid one, save for the gap at its end. -/
theorem exists_of_wellFormed {cs : List Tree}
    (h : (Tree.node .sourceFile none cs).WellFormed kind lead) :
    ∃ statements : List Statement, statements.map Statement.tree = cs ∧
      ∀ t ∈ statements, t.Valid := by
  rw [Tree.wellFormed_plain_iff rfl, Kind.rule,
    Statement.single_statement.matches_repeated_iff,
    wellFormedFrom_iff_of_offered offered_sourceFile] at h
  exact exists_map_eq fun t ht ↦ Statement.exists_of_wellFormed (h.1 t ht) (h.2 t ht)

end Source

end GrammarExport.Syntax
