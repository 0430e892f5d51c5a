import GrammarExport.Proofs.Derivation.Lists

/-!
# Trees of values

The tree of a valid value is well formed (`Value.Valid.wellFormed`), and every well-formed tree that
matches the rule for values is the tree of a valid value (`Value.exists_of_wellFormed`).
-/

namespace GrammarExport.Syntax

variable {kind : Kind} {lead : List String} {t : Tree}

namespace Tree

theorem sizeOf_lt_of_mem {k : Kind} {r : Option Role} {cs : List Tree} (h : t ∈ cs) :
    sizeOf t < sizeOf (node k r cs) := by
  have hmem := List.sizeOf_lt_of_mem h
  simp only [node.sizeOf_spec]
  omega

/-- A child is smaller than the tree it stands in, also without its role. -/
theorem sizeOf_lt_of_role_mem {k k' : Kind} {r : Option Role} {cs cs' : List Tree}
    (r' : Option Role) (h : node k' r' cs' ∈ cs) :
    sizeOf (node k' none cs') < sizeOf (node k r cs) := by
  have hmem := sizeOf_lt_of_mem (k := k) (r := r) h
  have hrole : sizeOf (none : Option Role) ≤ sizeOf r' := by
    cases r' with
    | none => exact Nat.le_refl _
    | some role => exact Nat.le_add_right 1 (sizeOf role)
  simp only [node.sizeOf_spec] at hmem ⊢
  omega

/-- Induction over trees, with the smaller trees at hand. -/
theorem induction_smaller {P : Tree → Prop}
    (step : ∀ t, (∀ u, sizeOf u < sizeOf t → P u) → P t) (t : Tree) : P t :=
  (measure sizeOf).wf.induction t step

end Tree

namespace Value

theorem matches_value (v : Value) : Rule.value.Matches [v.tree] := by
  rw [Rule.value, Rule.matches_choice_iff]
  cases v with
  | integer t => exact ⟨.symbol .integerValue, by simp, _, by rw [tree]; rfl⟩
  | double t => exact ⟨.symbol .doubleValue, by simp, _, by rw [tree]; rfl⟩
  | boolean t => exact ⟨.symbol .booleanValue, by simp, _, by rw [tree]; rfl⟩
  | string t => exact ⟨.symbol .stringValue, by simp, _, by rw [tree]; rfl⟩
  | range => exact ⟨.symbol .rangeValue, by simp, _, by rw [tree]⟩
  | enumItem => exact ⟨.symbol .enumValue, by simp, _, by rw [tree]⟩
  | array => exact ⟨.symbol .arrayValue, by simp, _, by rw [tree]⟩
  | record => exact ⟨.symbol .complexValue, by simp, _, by rw [tree]⟩

/-- What the grammar has for a value is a node of one of eight kinds. -/
theorem matches_value_iff :
    Rule.value.Matches [t] ↔
      ∃ k ∈ [Kind.integerValue, .doubleValue, .booleanValue, .stringValue, .rangeValue, .enumValue,
        .arrayValue, .complexValue], ∃ cs, t = .node k none cs := by
  rw [Rule.value, Rule.matches_choice_iff]
  simp [Rule.Matches]

theorem exists_tree_eq (v : Value) : ∃ k cs, v.tree = .node k none cs := by
  obtain ⟨k, -, cs, h⟩ := matches_value_iff.1 v.matches_value
  exact ⟨k, cs, h⟩

theorem single_value : Rule.value.Single := by
  refine Rule.single_choice ?_
  simp only [List.forall_mem_cons]
  exact ⟨Rule.single_symbol _, Rule.single_symbol _, Rule.single_symbol _, Rule.single_symbol _,
    Rule.single_symbol _, Rule.single_symbol _, Rule.single_symbol _, Rule.single_symbol _,
    by simp⟩

/-! ### From syntax to trees -/

/-- The tree of an entry is well formed if its key is a name and the tree of its value is well
formed where the words for truth values are taken. -/
theorem wellFormed_entryTree_iff {f : Field Value} :
    (entryTree f).WellFormed kind lead ↔
      f.key.FreeName lead ∧ f.value.tree.WellFormed .keyValuePair booleanWords := by
  obtain ⟨key, colon, v⟩ := f
  obtain ⟨k, cs, hv⟩ := v.exists_tree_eq
  rw [entryTree, Tree.wellFormed_plain_iff rfl]
  constructor
  · rintro ⟨-, hkey, -, hvalue, -⟩
    exact ⟨wellFormed_name_iff.1 (Tree.wellFormed_inRole_iff.1 hkey),
      Tree.wellFormed_inRole_iff.1 hvalue⟩
  · rintro ⟨hkey, hvalue⟩
    refine ⟨?_, Tree.wellFormed_inRole_iff.2 (wellFormed_name_iff.2 hkey),
      Tree.wellFormed_token rfl, Tree.wellFormed_inRole_iff.2 hvalue, trivial⟩
    have hmatch := v.matches_value
    rw [hv] at hmatch
    rw [Kind.rule, Rule.Matches, hv]
    refine Rule.matchesSeq_inRole (Rule.matches_symbol_iff.2 rfl) ?_
    rw [Rule.matchesSeq_fixed_iff]
    exact Rule.matchesSeq_inRole hmatch Rule.matchesSeq_nil

/-- The tree of a valid value is well formed. -/
theorem Valid.wellFormed {v : Value} (hv : v.Valid lead) : v.tree.WellFormed kind lead := by
  induction hv generalizing kind with
  | integer ht =>
    rw [tree]
    exact wellFormed_integerValue_iff.2 ⟨_, rfl, ht⟩
  | double ht =>
    rw [tree]
    exact wellFormed_doubleValue_iff.2 ⟨_, rfl, ht⟩
  | boolean ht =>
    rw [tree]
    exact (wellFormed_oneOf_iff rfl rfl rfl).2 ⟨_, rfl, ht⟩
  | string ht hnul =>
    rw [tree]
    exact wellFormed_stringValue_iff.2 ⟨_, rfl, ht, hnul⟩
  | range hlow hhigh =>
    rw [tree, Tree.wellFormed_plain_iff rfl]
    refine ⟨?_, Tree.wellFormed_token rfl, wellFormed_integerValue_iff.2 ⟨_, rfl, hlow⟩,
      Tree.wellFormed_token rfl, wellFormed_integerValue_iff.2 ⟨_, rfl, hhigh⟩,
      Tree.wellFormed_token rfl, trivial⟩
    simp [Kind.rule, Rule.Matches]
  | enumItem htype hitem =>
    rw [tree, Tree.wellFormed_plain_iff rfl]
    refine ⟨?_, wellFormed_name_iff.2 htype, Tree.wellFormed_token rfl,
      wellFormed_name_iff.2 hitem, trivial⟩
    simp [Kind.rule, Rule.Matches]
  | @array lead opening closing items hitems ih =>
    rw [tree, Tree.wellFormed_plain_iff rfl, itemTrees_eq]
    refine ⟨?_, Tree.wellFormed_token rfl, Tree.wellFormedFrom_append_iff.2
      ⟨(CommaList.wellFormedFrom_trees_iff booleanWords rfl ?_).2 ?_,
        Tree.wellFormed_token rfl, trivial⟩⟩
    · rw [Kind.rule, Rule.Matches, List.cons_append, Rule.matchesSeq_fixed_iff,
        Rule.matchesSeq_commaItems_iff]
      exact Rule.matchesSeq_of_commaList (fun v _ ↦ v.matches_value) items.ends_true (by simp)
    · intro j _
      rfl
    · intro v hv
      exact ih v hv
  | @record lead opening closing entries first hfirst hname hkeys hvalues ih =>
    rw [tree, Tree.wellFormed_node_iff, entryTrees_eq]
    have hentries : ∀ f ∈ entries.toList, ∀ {words}, f.key.FreeName words →
        (entryTree f).WellFormed .complexValue words := by
      intro f hf words hkey
      exact wellFormed_entryTree_iff.2 ⟨hkey, ih f hf⟩
    refine ⟨⟨?_, by simp, fun _ ↦ ?_⟩, Tree.wellFormed_token rfl,
      Tree.wellFormedFrom_append_iff.2 ⟨CommaList.wellFormedFrom_trees_of_head []
        rfl ?_ ?_ ?_, Tree.wellFormed_token rfl, trivial⟩⟩
    · rw [Kind.rule, Rule.Matches, List.cons_append, Rule.matchesSeq_fixed_iff,
        Rule.matchesSeq_commaItems_iff]
      exact Rule.matchesSeq_of_commaList (fun f _ ↦ ⟨_, by rw [entryTree]⟩) entries.ends_true
        (by simp)
    · cases entries with
      | nil => simp [CommaList.toList] at hfirst
      | last | cons => simp [CommaList.trees]
    · intro f hf
      obtain rfl : first = f := by simpa [hfirst] using hf
      exact hentries first (List.mem_of_head? hfirst) hname
    · exact offered_eq_nil (n := 2) (by omega) fun _ ↦ rfl
    · intro f hf
      exact hentries f hf (hkeys f hf)

/-! ### From trees to syntax -/

/-- A tree is the tree of a valid value wherever it stands for a value. -/
def Reflects (t : Tree) : Prop :=
  ∀ ⦃kind lead⦄, Rule.value.Matches [t] → t.WellFormed kind lead → ∃ v, Valid lead v ∧ v.tree = t

/-- A well-formed tree of an entry is that of a valid one, if this holds of smaller trees of
values. -/
theorem exists_entry {cs : List Tree}
    (h : (Tree.node .keyValuePair none cs).WellFormed kind lead)
    (ih : ∀ u, sizeOf u < sizeOf (Tree.node .keyValuePair none cs) → Reflects u) :
    ∃ f : Field Value, (f.key.FreeName lead ∧ f.value.Valid booleanWords) ∧
      entryTree f = .node .keyValuePair none cs := by
  rw [Tree.wellFormed_plain_iff rfl, Kind.rule, Rule.Matches] at h
  simp only [Rule.matchesSeq_field_iff, Rule.matchesSeq_text_iff, Rule.matchesSeq_nil_iff] at h
  obtain ⟨⟨k, ks, _, rfl, hkeyRule, g, _, rfl, k', vs, _, rfl, hvalueRule, rfl⟩, hkey, -, hvalue,
    -⟩ := h
  obtain rfl := Rule.matches_symbol_iff.1 hkeyRule
  obtain ⟨key, rfl, hkey'⟩ := wellFormed_identifier_iff.1 hkey
  obtain ⟨v, hv, htree⟩ := ih (.node k' none vs) (Tree.sizeOf_lt_of_role_mem
    (some .value) (by simp)) hvalueRule (Tree.wellFormed_role_iff.1 hvalue)
  refine ⟨⟨key, g, v⟩, ⟨hkey', hv⟩, ?_⟩
  rw [entryTree, htree]
  rfl

/-- A well-formed tree of an array is that of a valid one, if this holds of smaller trees. -/
theorem exists_array {cs : List Tree}
    (h : (Tree.node .arrayValue none cs).WellFormed kind lead)
    (ih : ∀ u, sizeOf u < sizeOf (Tree.node .arrayValue none cs) → Reflects u) :
    ∃ v, Valid lead v ∧ v.tree = .node .arrayValue none cs := by
  rw [Tree.wellFormed_plain_iff rfl, Kind.rule, Rule.Matches, Rule.matchesSeq_text_iff] at h
  obtain ⟨⟨opening, us, rfl, hrule⟩, -, hitems⟩ := h
  obtain ⟨l, closing, rfl, hl, -⟩ :=
    Rule.exists_commaList_of_matchesSeq single_value (Rule.matchesSeq_commaItems_iff.1 hrule)
  have hwell := (CommaList.wellFormedFrom_trees_iff booleanWords rfl
    fun _ _ ↦ rfl).1 (Tree.wellFormedFrom_append_iff.1 hitems).1
  have hvalues : ∀ u ∈ l.toList, ∃ v : Value, v.Valid booleanWords ∧ v.tree = u := by
    intro u hu
    refine ih u (Tree.sizeOf_lt_of_mem ?_) (hl u hu) (hwell u hu)
    exact List.mem_cons_of_mem _ (List.mem_append_left _ (CommaList.mem_trees hu))
  obtain ⟨items, htrees, -, hvalid, -⟩ := CommaList.exists_trees_eq hvalues
  refine ⟨.array opening items closing, .array hvalid, ?_⟩
  rw [tree, itemTrees_eq, htrees]
  rfl

/-- A well-formed tree of a record is that of a valid one, if this holds of smaller trees. It has an
entry, since its node has more than the two braces. -/
theorem exists_record {cs : List Tree}
    (h : (Tree.node .complexValue none cs).WellFormed kind lead)
    (ih : ∀ u, sizeOf u < sizeOf (Tree.node .complexValue none cs) → Reflects u) :
    ∃ v, Valid lead v ∧ v.tree = .node .complexValue none cs := by
  rw [Tree.wellFormed_node_iff] at h
  obtain ⟨⟨hrule, -, hfill⟩, h⟩ := h
  rw [Kind.rule, Rule.Matches, Rule.matchesSeq_text_iff] at hrule
  obtain ⟨opening, us, rfl, hrule⟩ := hrule
  obtain ⟨l, closing, rfl, hl, -⟩ := Rule.exists_commaList_of_matchesSeq
    (Rule.single_symbol _) (Rule.matchesSeq_commaItems_iff.1 hrule)
  have hwell := (Tree.wellFormedFrom_append_iff.1 h.2).1
  have hentries : ∀ u ∈ l.toList, ∃ f : Field Value,
      (f.key.FreeName [] ∧ f.value.Valid booleanWords) ∧ entryTree f = u := by
    intro u hu
    obtain ⟨words, hwords⟩ := CommaList.exists_wellFormed_of_mem hwell u hu
    obtain ⟨cs, rfl⟩ := Rule.exists_node_of_matches_symbol (hl u hu)
    have hmem : Tree.node .keyValuePair none cs ∈ Tree.token opening "\x7b".toList ::
        (l.trees id ++ [Tree.token closing "\x7d".toList]) :=
      List.mem_cons_of_mem _ (List.mem_append_left _ (CommaList.mem_trees hu))
    obtain ⟨f, ⟨hkey, hvalue⟩, htree⟩ :=
      exists_entry hwords fun v hv ↦ ih v (Nat.lt_trans hv (Tree.sizeOf_lt_of_mem hmem))
    exact ⟨f, ⟨hkey.mono (by simp), hvalue⟩, htree⟩
  obtain ⟨entries, htrees, -, hvalid, -⟩ := CommaList.exists_trees_eq hentries
  -- something stands between the braces, and it starts with the first field
  obtain ⟨first, hfirst⟩ : ∃ f, entries.toList.head? = some f := by
    rw [← htrees] at hfill
    cases entries with
    | nil => exact absurd (hfill rfl) (by simp [CommaList.trees])
    | last f => exact ⟨f, rfl⟩
    | cons f => exact ⟨f, rfl⟩
  rw [← htrees] at hwell
  have hname := (wellFormed_entryTree_iff.1 (CommaList.wellFormed_head hwell first hfirst)).1
  refine ⟨.record opening entries closing, .record hfirst hname (fun f hf ↦ (hvalid f hf).1)
    fun f hf ↦ (hvalid f hf).2, ?_⟩
  rw [tree, entryTrees_eq, htrees]
  rfl

/-- A well-formed tree of a value is that of a valid one. -/
theorem exists_of_wellFormed (t : Tree) : Reflects t := by
  -- by induction on the size: the trees of fields are looked at without their roles, so they are no
  -- children of the tree
  induction t using Tree.induction_smaller with
  | step t ih =>
  intro kind lead hmatch h
  obtain ⟨k, hk, cs, rfl⟩ := matches_value_iff.1 hmatch
  simp only [List.mem_cons, List.not_mem_nil, or_false] at hk
  rcases hk with rfl | rfl | rfl | rfl | rfl | rfl | rfl | rfl
  · obtain ⟨t, rfl, ht⟩ := wellFormed_integerValue_iff.1 h
    exact ⟨.integer t, .integer ht, by rw [tree]; rfl⟩
  · obtain ⟨t, rfl, ht⟩ := wellFormed_doubleValue_iff.1 h
    exact ⟨.double t, .double ht, by rw [tree]; rfl⟩
  · obtain ⟨t, rfl, ht⟩ := (wellFormed_oneOf_iff rfl rfl rfl).1 h
    exact ⟨.boolean t, .boolean ht, by rw [tree]; rfl⟩
  · obtain ⟨t, rfl, ht, hnul⟩ := wellFormed_stringValue_iff.1 h
    exact ⟨.string t, .string ht hnul, by rw [tree]; rfl⟩
  · rw [Tree.wellFormed_plain_iff rfl, Kind.rule, Rule.Matches] at h
    simp only [Rule.matchesSeq_symbol_iff, Rule.matchesSeq_text_iff, Rule.matchesSeq_nil_iff] at h
    obtain ⟨⟨opening, _, rfl, _, _, rfl, slash, _, rfl, _, _, rfl, closing, _, rfl, rfl⟩, -, hlow,
      -, hhigh, -⟩ := h
    obtain ⟨low, rfl, hlow'⟩ := wellFormed_integerValue_iff.1 hlow
    obtain ⟨high, rfl, hhigh'⟩ := wellFormed_integerValue_iff.1 hhigh
    exact ⟨.range opening low slash high closing, .range hlow' hhigh', by rw [tree]; rfl⟩
  · rw [Tree.wellFormed_plain_iff rfl, Kind.rule, Rule.Matches] at h
    simp only [Rule.matchesSeq_symbol_iff, Rule.matchesSeq_text_iff, Rule.matchesSeq_nil_iff] at h
    obtain ⟨⟨_, _, rfl, dot, _, rfl, _, _, rfl, rfl⟩, htype, -, hitem, -⟩ := h
    obtain ⟨type, rfl, htype'⟩ := wellFormed_identifier_iff.1 htype
    obtain ⟨item, rfl, hitem'⟩ := wellFormed_identifier_iff.1 hitem
    exact ⟨.enumItem type dot item, .enumItem htype' hitem', by rw [tree]; rfl⟩
  · exact exists_array h ih
  · exact exists_record h ih

end Value

end GrammarExport.Syntax
