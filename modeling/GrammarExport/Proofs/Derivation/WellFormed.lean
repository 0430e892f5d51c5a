import GrammarExport.Proofs.Reading.Valid

/-!
# Well-formed trees

A tree is **well formed** (`Tree.WellFormed`) if it conforms to the grammar, groups operators to the
left, fills its records, and has only leaves that can be told apart from the other tokens offered at
their places (`Leaf.Readable`). These are the trees of valid syntax; the other modules of this
directory say so construct by construct.

A node is well formed if its children match the rule of its kind and are well formed themselves,
each with the words that are offered at its place (`Tree.wellFormed_node_iff`, and
`Tree.wellFormed_plain_iff` for the kinds with no condition besides their rule). So one unfolding of
this equivalence takes a tree apart along its rule.
-/

namespace GrammarExport.Syntax

/-- A leaf is read as what it is: a name is spelled like no word offered at its place, and no string
holds the null character. -/
def Leaf.Readable (l : Leaf) : Prop :=
  (l.IsName → ¬ l.IsOffered) ∧ (l.kind = .stringValue → '\x00' ∉ l.text)

/-- A tree of the grammar below a node of a kind, where some words are offered, that is read as what
it is. -/
structure Tree.WellFormed (kind : Kind) (lead : List String) (t : Tree) : Prop where
  conforms : t.Conforms
  groupsLeft : t.GroupsLeft
  fillsRecords : t.FillsRecords
  readable : ∀ l ∈ t.leaves kind lead, l.Readable

/-- What the children of a node of a kind have to be like. -/
structure Kind.Admits (kind : Kind) (children : List Tree) : Prop where
  hasRule : kind.rule.Matches children
  groupsLeft : kind = .binaryExpression →
    ∀ cs, .node .binaryExpression (some .right) cs ∉ children
  fillsRecords : kind = .complexValue → 2 < children.length

/-- Whether only its rule says what the children of a node of a kind have to be like. -/
def Kind.isPlain : Kind → Bool
  | binaryExpression | complexValue => false
  | _ => true

/-- Whether a token of a kind is a name or a string. -/
def Kind.isVerbal : Kind → Bool
  | identifier | moduleIdentifier | stringValue => true
  | _ => false

/-- For most kinds the rule says everything there is to say of the children. -/
theorem Kind.admits_iff {kind : Kind} {children : List Tree} (hplain : kind.isPlain = true) :
    kind.Admits children ↔ kind.rule.Matches children := by
  constructor
  · exact Kind.Admits.hasRule
  · intro h
    refine ⟨h, ?_, ?_⟩
    all_goals
      rintro rfl
      exact absurd hplain (by decide)

/-! ### Matching trees in sequence -/

namespace Rule

variable {es : List Rule} {us : List Tree} {kind : Kind}

@[simp]
theorem matchesSeq_nil : MatchesSeq [] [] := matchesSeq_nil_iff.2 rfl

/-- A fixed text takes its token off the front of a list. -/
@[simp]
theorem matchesSeq_fixed_iff {g : Gap} {w : String} :
    MatchesSeq (.text w :: es) (fixed g w :: us) ↔ MatchesSeq es us := by
  rw [matchesSeq_text_iff]
  constructor
  · rintro ⟨_, _, heq, h⟩
    obtain ⟨-, rfl⟩ := List.cons.inj heq
    exact h
  · intro h
    exact ⟨g, us, rfl, h⟩

/-- A symbol takes a node of its kind off the front of a list. -/
@[simp]
theorem matchesSeq_node_iff {cs : List Tree} :
    MatchesSeq (.symbol kind :: es) (.node kind none cs :: us) ↔ MatchesSeq es us := by
  rw [matchesSeq_symbol_iff]
  constructor
  · rintro ⟨_, _, heq, h⟩
    obtain ⟨-, rfl⟩ := List.cons.inj heq
    exact h
  · intro h
    exact ⟨cs, us, rfl, h⟩

@[simp]
theorem matchesSeq_tree_iff {t : Lexeme} :
    MatchesSeq (.symbol kind :: es) (t.tree kind :: us) ↔ MatchesSeq es us := matchesSeq_node_iff

@[simp]
theorem matchesSeq_name_iff {t : Lexeme} :
    MatchesSeq (.symbol .identifier :: es) (t.name :: us) ↔ MatchesSeq es us := matchesSeq_node_iff

/-- A symbol matches the nodes of its kind and no others. -/
theorem matches_symbol_iff {k : Kind} {cs : List Tree} :
    (symbol kind).Matches [.node k none cs] ↔ k = kind := by
  rw [Matches]
  constructor
  · rintro ⟨_, heq⟩
    exact (Tree.node.inj (List.cons.inj heq).1).1
  · rintro rfl
    exact ⟨cs, rfl⟩

/-- A field takes a node off the front of a list, whose role it gives. -/
theorem matchesSeq_inRole {role : Role} {body : Rule} {cs : List Tree}
    (hbody : body.Matches [.node kind none cs]) (h : MatchesSeq es us) :
    MatchesSeq (.field role body :: es) ((Tree.node kind none cs).inRole role :: us) :=
  matchesSeq_field_iff.2 ⟨kind, cs, us, rfl, hbody, h⟩

end Rule

/-! ### Children -/

namespace Tree

variable {kind kind' : Kind} {lead : List String} {role : Option Role} {i : Nat}

/-- Children of a node of a kind, from the child number `i` on, are well formed at their places. -/
def WellFormedFrom (kind : Kind) (lead : List String) : (i : Nat) → List Tree → Prop
  | _, [] => True
  | i, t :: ts => t.WellFormed kind (kind.offered lead i) ∧ WellFormedFrom kind lead (i + 1) ts

/-- What it is for children to be well formed, condition by condition. -/
theorem wellFormedFrom_iff {ts : List Tree} :
    WellFormedFrom kind lead i ts ↔
      (∀ t ∈ ts, t.Conforms) ∧ (∀ t ∈ ts, t.GroupsLeft) ∧ (∀ t ∈ ts, t.FillsRecords) ∧
        ∀ l ∈ leavesFrom kind lead i ts, l.Readable := by
  induction ts generalizing i with
  | nil => simp [WellFormedFrom, leavesFrom]
  | cons t ts ih =>
    simp only [WellFormedFrom, leavesFrom, ih, List.forall_mem_cons, List.forall_mem_append]
    constructor
    · rintro ⟨⟨h₁, h₂, h₃, h₄⟩, h₅, h₆, h₇, h₈⟩
      exact ⟨⟨h₁, h₅⟩, ⟨h₂, h₆⟩, ⟨h₃, h₇⟩, h₄, h₈⟩
    · rintro ⟨⟨h₁, h₅⟩, ⟨h₂, h₆⟩, ⟨h₃, h₇⟩, h₄, h₈⟩
      exact ⟨⟨h₁, h₂, h₃, h₄⟩, h₅, h₆, h₇, h₈⟩

/-- A node is well formed if its kind admits its children and these are well formed at their
places. -/
theorem wellFormed_node_iff {children : List Tree} :
    (node kind role children).WellFormed kind' lead ↔
      kind.Admits children ∧ WellFormedFrom kind lead 0 children := by
  rw [wellFormedFrom_iff]
  constructor
  · rintro ⟨hconforms, hgroups, hrecords, hreadable⟩
    obtain ⟨hrule, hconforms⟩ := everywhere_node_iff.1 hconforms
    obtain ⟨hgroup, hgroups⟩ := everywhere_node_iff.1 hgroups
    obtain ⟨hrecord, hrecords⟩ := everywhere_node_iff.1 hrecords
    exact ⟨⟨hrule, hgroup, hrecord⟩, hconforms, hgroups, hrecords, hreadable⟩
  · rintro ⟨⟨hrule, hgroup, hrecord⟩, hconforms, hgroups, hrecords, hreadable⟩
    exact ⟨.node hrule hconforms, .node hgroup hgroups, .node hrecord hrecords, hreadable⟩

/-- A node of a kind with no condition besides its rule is well formed if its children match the
rule and are well formed at their places. -/
theorem wellFormed_plain_iff {children : List Tree} (hplain : kind.isPlain = true) :
    (node kind role children).WellFormed kind' lead ↔
      kind.rule.Matches children ∧ WellFormedFrom kind lead 0 children := by
  rw [wellFormed_node_iff, Kind.admits_iff hplain]

@[simp]
theorem wellFormedFrom_nil : WellFormedFrom kind lead i [] := trivial

theorem wellFormedFrom_cons_iff {t : Tree} {ts : List Tree} :
    WellFormedFrom kind lead i (t :: ts) ↔
      t.WellFormed kind (kind.offered lead i) ∧ WellFormedFrom kind lead (i + 1) ts := Iff.rfl

/-- The children after others stand at the places after theirs. -/
theorem wellFormedFrom_append_iff {ts us : List Tree} :
    WellFormedFrom kind lead i (ts ++ us) ↔
      WellFormedFrom kind lead i ts ∧ WellFormedFrom kind lead (i + ts.length) us := by
  induction ts generalizing i with
  | nil => simp
  | cons t ts ih =>
    rw [List.cons_append, wellFormedFrom_cons_iff, wellFormedFrom_cons_iff, ih, and_assoc,
      List.length_cons, Nat.add_assoc, Nat.add_comm 1]

/-- Whether a node is well formed depends neither on its role nor on the node above it. -/
theorem wellFormed_role_iff {children : List Tree} :
    (node kind role children).WellFormed kind' lead ↔
      (node kind none children).WellFormed kind lead := by
  rw [wellFormed_node_iff, wellFormed_node_iff]

/-- The role of a tree does not matter to whether it is well formed. -/
theorem wellFormed_inRole_iff {r : Role} {t : Tree} :
    (t.inRole r).WellFormed kind lead ↔ t.WellFormed kind lead := by
  cases t with
  | token => rfl
  | node => rw [inRole, wellFormed_node_iff, wellFormed_node_iff]

/-! ### Tokens -/

/-- A token is well formed if it is read as what it is. -/
theorem wellFormed_token_iff {gap : Gap} {text : List Char} :
    (token gap text).WellFormed kind lead ↔ Leaf.Readable ⟨⟨gap, text⟩, kind, lead⟩ := by
  constructor
  · intro h
    exact h.readable _ (by simp [leaves])
  · intro h
    exact ⟨.token .., .token .., .token .., by simpa [leaves] using h⟩

/-- A token that is neither a name nor a string. -/
theorem wellFormed_token {gap : Gap} {text : List Char} (h : kind.isVerbal = false) :
    (token gap text).WellFormed kind lead := by
  rw [wellFormed_token_iff, Leaf.Readable, Leaf.IsName]
  constructor
  · rintro (rfl | rfl) <;> exact absurd h (by decide)
  · rintro rfl
    exact absurd h (by decide)

end Tree

/-! ### Nodes over one token -/

variable {kind kind' : Kind} {lead : List String} {role : Option Role} {children : List Tree}

/-- A node over one token of a pattern. -/
theorem wellFormed_pattern_iff {p : List Char → Prop} (hrule : kind.rule = .pattern p)
    (hlead : kind.offered lead 0 = lead) (hplain : kind.isPlain = true) :
    (Tree.node kind role children).WellFormed kind' lead ↔
      ∃ t : Lexeme, children = [.token t.gap t.text] ∧ p t.text ∧
        Leaf.Readable ⟨t, kind, lead⟩ := by
  rw [Tree.wellFormed_plain_iff hplain, hrule, Rule.Matches]
  constructor
  · rintro ⟨⟨g, w, rfl, hw⟩, h⟩
    rw [Tree.wellFormedFrom_cons_iff, hlead, Tree.wellFormed_token_iff] at h
    exact ⟨⟨g, w⟩, rfl, hw, h.1⟩
  · rintro ⟨t, rfl, hw, h⟩
    refine ⟨⟨t.gap, t.text, rfl, hw⟩, ?_⟩
    rw [Tree.wellFormedFrom_cons_iff, hlead, Tree.wellFormed_token_iff]
    exact ⟨h, trivial⟩

/-- A node over one of some words. -/
theorem wellFormed_oneOf_iff {words : List String} (hrule : kind.rule = Rule.oneOf words)
    (hfixed : kind.isVerbal = false) (hplain : kind.isPlain = true) :
    (Tree.node kind role children).WellFormed kind' lead ↔
      ∃ t : Lexeme, children = [.token t.gap t.text] ∧ t.IsOneOf words := by
  rw [Tree.wellFormed_plain_iff hplain, hrule, Rule.oneOf, Rule.matches_choice_iff]
  constructor
  · rintro ⟨⟨e, he, hmatch⟩, -⟩
    obtain ⟨w, hw, rfl⟩ := List.mem_map.1 he
    rw [Rule.Matches] at hmatch
    obtain ⟨g, rfl⟩ := hmatch
    exact ⟨⟨g, w.toList⟩, rfl, w, hw, rfl⟩
  · rintro ⟨t, rfl, w, hw, htext⟩
    refine ⟨⟨.text w, List.mem_map_of_mem hw, ?_⟩, Tree.wellFormed_token hfixed, trivial⟩
    rw [Rule.Matches]
    exact ⟨t.gap, by rw [htext]⟩

/-- An identifier is one name that is none of the words offered there. -/
theorem wellFormed_identifier_iff :
    (Tree.node .identifier role children).WellFormed kind' lead ↔
      ∃ t : Lexeme, children = [.token t.gap t.text] ∧ t.FreeName lead := by
  rw [wellFormed_pattern_iff (p := IsWord) rfl rfl rfl]
  simp [Leaf.Readable, Leaf.IsName, Leaf.IsOffered, Lexeme.FreeName]

theorem wellFormed_name_iff {t : Lexeme} : t.name.WellFormed kind' lead ↔ t.FreeName lead := by
  rw [Lexeme.name, Lexeme.tree, wellFormed_identifier_iff]
  constructor
  · rintro ⟨u, heq, hu⟩
    obtain ⟨-, htext⟩ : t.gap = u.gap ∧ t.text = u.text := by simpa using heq
    rwa [Lexeme.FreeName, ← htext] at hu
  · intro ht
    exact ⟨t, rfl, ht⟩

/-- The identifier of a module is one name that is none of the words offered there. -/
theorem wellFormed_moduleIdentifier_iff :
    (Tree.node .moduleIdentifier role children).WellFormed kind' lead ↔
      ∃ t : Lexeme, children = [.token t.gap t.text] ∧ t.FreeName lead := by
  rw [wellFormed_pattern_iff (p := IsWord) rfl rfl rfl]
  simp [Leaf.Readable, Leaf.IsName, Leaf.IsOffered, Lexeme.FreeName]

theorem wellFormed_integerValue_iff :
    (Tree.node .integerValue role children).WellFormed kind' lead ↔
      ∃ t : Lexeme, children = [.token t.gap t.text] ∧ IsInteger t.text := by
  rw [wellFormed_pattern_iff (p := IsInteger) rfl rfl rfl]
  simp [Leaf.Readable, Leaf.IsName]

theorem wellFormed_doubleValue_iff :
    (Tree.node .doubleValue role children).WellFormed kind' lead ↔
      ∃ t : Lexeme, children = [.token t.gap t.text] ∧ IsDouble t.text := by
  rw [wellFormed_pattern_iff (p := IsDouble) rfl rfl rfl]
  simp [Leaf.Readable, Leaf.IsName]

/-- A string is one token of its pattern, without the null character. -/
theorem wellFormed_stringValue_iff :
    (Tree.node .stringValue role children).WellFormed kind' lead ↔
      ∃ t : Lexeme, children = [.token t.gap t.text] ∧ t.IsText := by
  rw [wellFormed_pattern_iff (p := IsString) rfl rfl rfl]
  simp [Leaf.Readable, Leaf.IsName, Lexeme.IsText]

end GrammarExport.Syntax
