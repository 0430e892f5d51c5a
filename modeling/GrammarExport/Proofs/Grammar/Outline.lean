import GrammarExport.Proofs.Grammar.Conformance
import Mathlib.Data.List.Forall2

/-!
# Outlines and tokens

A tree is its outline filled with tokens. Tokens can be put into an outline as one likes
(`Tree.exists_outline_tokens`), and where the leaves of a tree stand is a matter of its outline
alone (`Tree.places_eq`).

Whether a tree conforms to the grammar depends on its outline and on the texts of its tokens, and of
these only on the fixed ones: a token of a pattern may be replaced by any other of the same pattern
(`Tree.Conforms.respell`). The reason is that rules look only at the heads of trees
(`Rule.matches_of_map_head_eq`).
-/

namespace GrammarExport.Syntax

/-- Where a leaf stands: the kind of its node, and the words offered there. -/
def Leaf.place (l : Leaf) : Kind × List String := (l.kind, l.offered)

/-- A leaf is its token and its place. -/
theorem Leaf.eq_of_toLexeme_of_place {l l' : Leaf} (htoken : l.toLexeme = l'.toLexeme)
    (hplace : l.place = l'.place) : l = l' := by
  obtain ⟨t, kind, offered⟩ := l
  obtain ⟨t', kind', offered'⟩ := l'
  simp_all [Leaf.place]

theorem Leaf.eq_of_map_toLexeme_of_map_place {ls ls' : List Leaf}
    (htokens : ls.map Leaf.toLexeme = ls'.map Leaf.toLexeme)
    (hplaces : ls.map Leaf.place = ls'.map Leaf.place) : ls = ls' := by
  induction ls generalizing ls' with
  | nil => simpa using htokens
  | cons l ls ih =>
    cases ls' with
    | nil => simp at htokens
    | cons l' ls' =>
      obtain ⟨ht, hts⟩ := List.cons.inj htokens
      obtain ⟨hp, hps⟩ := List.cons.inj hplaces
      rw [Leaf.eq_of_toLexeme_of_place ht hp, ih hts hps]

namespace Tree

theorem outlineOfAll_eq_map (ts : List Tree) : outlineOfAll ts = ts.map outline := by
  induction ts with
  | nil => rfl
  | cons t ts ih => rw [outlineOfAll, ih, List.map_cons]

/-! ### Tokens and places -/

mutual

/-- The leaves of a tree are its tokens, with their places. -/
theorem map_toLexeme_leaves : ∀ (t : Tree) (kind : Kind) (lead : List String),
    (t.leaves kind lead).map Leaf.toLexeme = t.tokens
  | token gap text, kind, lead => by simp [leaves, tokens]
  | node kind' role children, kind, lead => by
    rw [leaves, tokens, map_toLexeme_leavesFrom]

theorem map_toLexeme_leavesFrom : ∀ (ts : List Tree) (kind : Kind) (lead : List String) (i : Nat),
    (leavesFrom kind lead i ts).map Leaf.toLexeme = tokensOfAll ts
  | [], kind, lead, i => rfl
  | t :: ts, kind, lead, i => by
    rw [leavesFrom, tokensOfAll, List.map_append, map_toLexeme_leaves, map_toLexeme_leavesFrom]

end

mutual

/-- Where the leaves of a tree stand is a matter of its outline. -/
theorem places_eq : ∀ (t t' : Tree) (kind : Kind) (lead : List String), t'.outline = t.outline →
    (t'.leaves kind lead).map Leaf.place = (t.leaves kind lead).map Leaf.place
  | token .., token .., kind, lead, _ => by simp [leaves, Leaf.place]
  | token .., node .., kind, lead, h => by simp [outline] at h
  | node .., token .., kind, lead, h => by simp [outline] at h
  | node k r cs, node k' r' cs', kind, lead, h => by
    obtain ⟨rfl, -, hcs⟩ := node.inj (by simpa only [outline] using h)
    rw [leaves, leaves, placesFrom_eq cs cs' k' lead 0 hcs]

/-- Trees with the same outlines have leaves at the same places. -/
theorem placesFrom_eq : ∀ (ts ts' : List Tree) (kind : Kind) (lead : List String) (i : Nat),
    outlineOfAll ts' = outlineOfAll ts →
    (leavesFrom kind lead i ts').map Leaf.place = (leavesFrom kind lead i ts).map Leaf.place
  | [], [], kind, lead, i, _ => rfl
  | [], _ :: _, kind, lead, i, h => by simp [outlineOfAll] at h
  | _ :: _, [], kind, lead, i, h => by simp [outlineOfAll] at h
  | t :: ts, t' :: ts', kind, lead, i, h => by
    obtain ⟨ht, hts⟩ := List.cons.inj (by simpa only [outlineOfAll] using h)
    rw [leavesFrom, leavesFrom, List.map_append, List.map_append, places_eq t t' _ _ ht,
      placesFrom_eq ts ts' _ _ _ hts]

end

mutual

/-- Tokens can be put into the outline of a tree as one likes. -/
theorem exists_outline_tokens : ∀ (t : Tree) (ls : List Lexeme), ls.length = t.tokens.length →
    ∃ t' : Tree, t'.outline = t.outline ∧ t'.tokens = ls
  | token gap text, ls, h => by
    obtain ⟨l, rfl⟩ := List.length_eq_one_iff.1 h
    exact ⟨token l.gap l.text, rfl, rfl⟩
  | node kind role children, ls, h => by
    obtain ⟨children', hchildren, htokens⟩ := exists_outlineOfAll_tokens children ls h
    exact ⟨node kind role children', by rw [outline, hchildren, outline], by rw [tokens, htokens]⟩

/-- Outlines can be filled with any tokens, if the number is right. -/
theorem exists_outlineOfAll_tokens : ∀ (ts : List Tree) (ls : List Lexeme),
    ls.length = (tokensOfAll ts).length →
    ∃ ts' : List Tree, outlineOfAll ts' = outlineOfAll ts ∧ tokensOfAll ts' = ls
  | [], ls, h => ⟨[], rfl, (List.length_eq_zero_iff.1 h).symm⟩
  | t :: ts, ls, h => by
    rw [tokensOfAll, List.length_append] at h
    obtain ⟨t', ht', htokens⟩ :=
      exists_outline_tokens t (ls.take t.tokens.length) (by rw [List.length_take]; omega)
    obtain ⟨ts', hts', htokens'⟩ :=
      exists_outlineOfAll_tokens ts (ls.drop t.tokens.length) (by rw [List.length_drop]; omega)
    refine ⟨t' :: ts', by rw [outlineOfAll, ht', hts', outlineOfAll], ?_⟩
    rw [tokensOfAll, htokens, htokens', List.take_append_drop]

end

/-- Leaves can be put into the outline of a tree at the places they stand at. -/
theorem exists_outline_leaves {t : Tree} {kind : Kind} {lead : List String} {ls : List Leaf}
    (hplaces : ls.map Leaf.place = (t.leaves kind lead).map Leaf.place) :
    ∃ t' : Tree, t'.outline = t.outline ∧ t'.leaves kind lead = ls := by
  have hlength : (ls.map Leaf.toLexeme).length = t.tokens.length := by
    rw [← map_toLexeme_leaves t kind lead]
    simpa using congrArg List.length hplaces
  obtain ⟨t', houtline, htokens⟩ := exists_outline_tokens t _ hlength
  refine ⟨t', houtline, Leaf.eq_of_map_toLexeme_of_map_place ?_ ?_⟩
  · rw [map_toLexeme_leaves, htokens]
  · rw [places_eq t t' kind lead houtline, hplaces]

/-- A tree without what rules do not look at: the gap of a token, and the children of a node. -/
def head : Tree → Tree
  | token _ text => token [] text
  | node kind role _ => node kind role []

theorem head_eq_token_iff {t : Tree} {text : List Char} :
    t.head = token [] text ↔ ∃ gap, t = token gap text := by
  cases t <;> simp [head]

theorem head_eq_node_iff {t : Tree} {kind : Kind} {role : Option Role} :
    t.head = node kind role [] ↔ ∃ cs, t = node kind role cs := by
  cases t <;> simp [head]

end Tree

/-! ### Rules and heads -/

namespace Rule

/-- A list of trees with the heads of another list can be divided as that one is. -/
theorem exists_flatten_eq {tss : List (List Tree)} {ts : List Tree}
    (h : tss.flatten.map Tree.head = ts.map Tree.head) :
    ∃ tss' : List (List Tree), ts = tss'.flatten ∧
      ∀ us' ∈ tss', ∃ us ∈ tss, us.map Tree.head = us'.map Tree.head := by
  induction tss generalizing ts with
  | nil =>
    obtain rfl : ts = [] := by simpa using h.symm
    exact ⟨[], rfl, by simp⟩
  | cons us tss ih =>
    rw [List.flatten_cons, List.map_append, eq_comm, List.map_eq_append_iff] at h
    obtain ⟨us', vs', rfl, hus, hvs⟩ := h
    obtain ⟨tss', rfl, htss⟩ := ih hvs.symm
    refine ⟨us' :: tss', rfl, ?_⟩
    rw [List.forall_mem_cons]
    refine ⟨⟨us, by simp, hus.symm⟩, fun ws hws ↦ ?_⟩
    obtain ⟨vs, hvs, heq⟩ := htss ws hws
    exact ⟨vs, by simp [hvs], heq⟩

mutual

/-- Rules look only at the heads of trees. -/
theorem matches_of_map_head_eq : ∀ (e : Rule) {ts ts' : List Tree},
    ts.map Tree.head = ts'.map Tree.head → e.Matches ts → e.Matches ts'
  | text w, ts, ts', h, hm => by
    obtain ⟨g, rfl⟩ := hm
    obtain ⟨t, rfl, ht⟩ := List.map_eq_singleton_iff.1 h.symm
    obtain ⟨g', rfl⟩ := Tree.head_eq_token_iff.1 ht
    exact ⟨g', rfl⟩
  | pattern p, ts, ts', h, hm => by
    obtain ⟨g, w, rfl, hw⟩ := hm
    obtain ⟨t, rfl, ht⟩ := List.map_eq_singleton_iff.1 h.symm
    obtain ⟨g', rfl⟩ := Tree.head_eq_token_iff.1 ht
    exact ⟨g', w, rfl, hw⟩
  | symbol kind, ts, ts', h, hm => by
    obtain ⟨cs, rfl⟩ := hm
    obtain ⟨t, rfl, ht⟩ := List.map_eq_singleton_iff.1 h.symm
    obtain ⟨cs', rfl⟩ := Tree.head_eq_node_iff.1 ht
    exact ⟨cs', rfl⟩
  | field role body, ts, ts', h, hm => by
    obtain ⟨kind, cs, rfl, hbody⟩ := hm
    obtain ⟨t, rfl, ht⟩ := List.map_eq_singleton_iff.1 h.symm
    obtain ⟨cs', rfl⟩ := Tree.head_eq_node_iff.1 ht
    exact ⟨kind, cs', rfl, matches_of_map_head_eq body (by rfl) hbody⟩
  | seq parts, ts, ts', h, hm => matchesSeq_of_map_head_eq parts h hm
  | choice alternatives, ts, ts', h, hm => matchesSome_of_map_head_eq alternatives h hm
  | optional body, ts, ts', h, hm => by
    rw [Matches] at hm ⊢
    rcases hm with rfl | hm
    · exact .inl (by simpa using h.symm)
    · exact .inr (matches_of_map_head_eq body h hm)
  | repeated body, ts, ts', h, hm => by
    rw [Matches] at hm ⊢
    obtain ⟨tss, rfl, hbody⟩ := hm
    -- cut the other trees at the same places
    obtain ⟨tss', rfl, htss⟩ := exists_flatten_eq h
    refine ⟨tss', rfl, fun us' hus' ↦ ?_⟩
    obtain ⟨us, hus, heq⟩ := htss us' hus'
    exact matches_of_map_head_eq body heq (hbody us hus)

/-- Rules in sequence look only at the heads of trees. -/
theorem matchesSeq_of_map_head_eq : ∀ (parts : List Rule) {ts ts' : List Tree},
    ts.map Tree.head = ts'.map Tree.head → MatchesSeq parts ts → MatchesSeq parts ts'
  | [], ts, ts', h, hm => by
    obtain rfl : ts = [] := hm
    exact matchesSeq_nil_iff.2 (by simpa using h.symm)
  | part :: parts, ts, ts', h, hm => by
    rw [MatchesSeq] at hm ⊢
    obtain ⟨us, vs, rfl, hpart, hparts⟩ := hm
    rw [List.map_append, eq_comm, List.map_eq_append_iff] at h
    obtain ⟨us', vs', rfl, hus, hvs⟩ := h
    exact ⟨us', vs', rfl, matches_of_map_head_eq part hus.symm hpart,
      matchesSeq_of_map_head_eq parts hvs.symm hparts⟩

theorem matchesSome_of_map_head_eq : ∀ (alternatives : List Rule) {ts ts' : List Tree},
    ts.map Tree.head = ts'.map Tree.head → MatchesSome alternatives ts →
      MatchesSome alternatives ts'
  | [], ts, ts', h, hm => hm
  | e :: es, ts, ts', h, hm => by
    rw [MatchesSome] at hm ⊢
    rcases hm with hm | hm
    · exact .inl (matches_of_map_head_eq e h hm)
    · exact .inr (matchesSome_of_map_head_eq es h hm)

end

end Rule

/-! ### Respelling -/

/-- A text can stand in the place of a leaf's: it is the same, or the leaf is a token of a pattern
that the text satisfies as well. -/
def Leaf.MayBecome (l : Leaf) (text : List Char) : Prop :=
  text = l.text ∨ ∃ p, l.kind.rule = .pattern p ∧ p text

/-- Leaves one by one have texts that can stand in the places of others. -/
def Respelled (ls ls' : List Leaf) : Prop := List.Forall₂ (fun l l' ↦ l.MayBecome l'.text) ls ls'

/-- A child of a node of a kind is another one with some tokens spelled otherwise. -/
def Tree.Respells (kind : Kind) (c c' : Tree) : Prop :=
  c'.outline = c.outline ∧ ∃ words, Respelled (c.leaves kind words) (c'.leaves kind words)

namespace Tree

/-- A property of nodes that is a matter of outlines. -/
theorem Everywhere.of_outline {p : Kind → List Tree → Prop}
    (hp : ∀ {kind cs cs'}, cs'.map outline = cs.map outline → p kind cs → p kind cs')
    {t t' : Tree} (h : Everywhere p t) (houtline : t'.outline = t.outline) : Everywhere p t' := by
  induction t using Tree.induction generalizing t' with
  | token gap text =>
    cases t' with
    | token gap' text' => exact .token gap' text'
    | node => simp [outline] at houtline
  | node kind role cs ih =>
    cases t' with
    | token => simp [outline] at houtline
    | node kind' role' cs' =>
      obtain ⟨rfl, -, hcs⟩ := node.inj (by simpa only [outline] using houtline)
      rw [outlineOfAll_eq_map, outlineOfAll_eq_map] at hcs
      obtain ⟨here, below⟩ := everywhere_node_iff.1 h
      refine .node (hp hcs here) fun c' hc' ↦ ?_
      have hmem : c'.outline ∈ cs.map outline := hcs ▸ List.mem_map_of_mem hc'
      obtain ⟨c, hc, heq⟩ := List.mem_map.1 hmem
      exact ih c hc (below c hc) heq.symm

/-- How operators are grouped is seen in the outline. -/
theorem GroupsLeft.of_outline {t t' : Tree} (h : t.GroupsLeft)
    (houtline : t'.outline = t.outline) : t'.GroupsLeft := by
  refine Everywhere.of_outline ?_ h houtline
  intro kind cs cs' hcs hgroups hkind us hmem
  have hmem' : (node .binaryExpression (some .right) us).outline ∈ cs.map outline :=
    hcs ▸ List.mem_map_of_mem hmem
  obtain ⟨c, hc, heq⟩ := List.mem_map.1 hmem'
  cases c with
  | token => simp [outline] at heq
  | node kind' role vs =>
    obtain ⟨rfl, rfl, -⟩ := node.inj (by simpa only [outline] using heq)
    exact hgroups hkind vs hc

/-- Whether records have entries is seen in the outline. -/
theorem FillsRecords.of_outline {t t' : Tree} (h : t.FillsRecords)
    (houtline : t'.outline = t.outline) : t'.FillsRecords := by
  refine Everywhere.of_outline ?_ h houtline
  intro kind cs cs' hcs hfills hkind
  have hlength := congrArg List.length hcs
  rw [List.length_map, List.length_map] at hlength
  rw [hlength]
  exact hfills hkind

theorem length_leaves_eq {t t' : Tree} (kind : Kind) (lead : List String)
    (houtline : t'.outline = t.outline) :
    (t'.leaves kind lead).length = (t.leaves kind lead).length := by
  simpa using congrArg List.length (places_eq t t' kind lead houtline)

/-- Leaves are respelled child by child. -/
theorem respelled_children {kind : Kind} {lead : List String} {i : Nat} {cs cs' : List Tree}
    (houtline : cs'.map outline = cs.map outline)
    (h : Respelled (leavesFrom kind lead i cs) (leavesFrom kind lead i cs')) :
    List.Forall₂ (Respells kind) cs cs' := by
  induction cs generalizing cs' i with
  | nil =>
    obtain rfl : cs' = [] := by simpa using houtline
    exact .nil
  | cons c cs ih =>
    obtain ⟨c', cs', rfl, hc, hcs⟩ := List.map_eq_cons_iff.1 houtline
    rw [leavesFrom, leavesFrom] at h
    have hlength := length_leaves_eq kind (kind.offered lead i) hc
    -- the outline tells where the leaves of the first child end
    have hhead := List.forall₂_take_append _ _ _ h
    have htail := List.forall₂_drop_append _ _ _ h
    rw [hlength, List.take_left] at hhead
    rw [hlength, List.drop_left] at htail
    exact .cons ⟨hc, _, hhead⟩ (ih hcs htail)

/-- A child that is a token of a node without a pattern keeps its text, and a node its head. -/
theorem Respells.head_eq {kind : Kind} {c c' : Tree} (h : Respells kind c c')
    (hpattern : ∀ p, kind.rule ≠ .pattern p) : c.head = c'.head := by
  obtain ⟨houtline, words, hleaves⟩ := h
  match c, c' with
  | token g w, token g' w' =>
    rw [leaves, leaves, Respelled, List.forall₂_cons] at hleaves
    rcases hleaves.1 with hsame | ⟨p, hp, -⟩
    · obtain rfl : w' = w := hsame
      rfl
    · exact absurd hp (hpattern p)
  | node k r cs, node k' r' cs' =>
    obtain ⟨rfl, rfl, -⟩ := node.inj (by simpa only [outline] using houtline)
    rfl
  | token .., node .. => simp [outline] at houtline
  | node .., token .. => simp [outline] at houtline

/-- The children of a node match its rule if they do with other spellings. -/
theorem matches_of_respells {kind : Kind} {cs cs' : List Tree} (hmatch : kind.rule.Matches cs)
    (h : List.Forall₂ (Respells kind) cs cs') : kind.rule.Matches cs' := by
  -- a pattern looks at the one token that is respelled; all other rules look at heads, which stay
  by_cases hpattern : ∃ p, kind.rule = .pattern p
  · obtain ⟨p, hp⟩ := hpattern
    rw [hp, Rule.Matches] at hmatch ⊢
    obtain ⟨g, w, rfl, hw⟩ := hmatch
    obtain ⟨c', _, ⟨houtline, words, hleaves⟩, hnil, rfl⟩ := List.forall₂_cons_left_iff.1 h
    obtain rfl := List.forall₂_nil_left_iff.1 hnil
    cases c' with
    | node => simp [outline] at houtline
    | token g' w' =>
      rw [leaves, leaves, Respelled, List.forall₂_cons] at hleaves
      refine ⟨g', w', rfl, ?_⟩
      rcases hleaves.1 with hsame | ⟨p', hp', hw'⟩
      · obtain rfl : w' = w := hsame
        exact hw
      · obtain rfl := Rule.pattern.inj (hp.symm.trans hp')
        exact hw'
  · have hheads : List.Forall₂ (· = ·) (cs.map head) (cs'.map head) := by
      rw [List.forall₂_map_left_iff, List.forall₂_map_right_iff]
      exact h.imp fun c c' hc ↦ hc.head_eq (not_exists.1 hpattern)
    rw [List.forall₂_eq_eq_eq] at hheads
    exact Rule.matches_of_map_head_eq _ hheads hmatch

theorem exists_respells_of_mem {kind : Kind} {cs cs' : List Tree} {c' : Tree}
    (h : List.Forall₂ (Respells kind) cs cs') (hc' : c' ∈ cs') : ∃ c ∈ cs, Respells kind c c' := by
  induction h with
  | nil => exact absurd hc' (by simp)
  | @cons c d cs ds hc _ ih =>
    rcases List.mem_cons.1 hc' with rfl | hmem
    · exact ⟨c, by simp, hc⟩
    · obtain ⟨b, hb, hrespells⟩ := ih hmem
      exact ⟨b, by simp [hb], hrespells⟩

/-- A tree conforms if it does with other spellings of its patterns. -/
theorem Conforms.respell {t t' : Tree} {kind : Kind} {lead : List String} (h : t.Conforms)
    (houtline : t'.outline = t.outline)
    (hleaves : Respelled (t.leaves kind lead) (t'.leaves kind lead)) : t'.Conforms := by
  induction t using Tree.induction generalizing t' kind lead with
  | token gap text =>
    cases t' with
    | token gap' text' => exact .token gap' text'
    | node => simp [outline] at houtline
  | node k role cs ih =>
    cases t' with
    | token => simp [outline] at houtline
    | node k' role' cs' =>
      obtain ⟨rfl, -, hcs⟩ := node.inj (by simpa only [outline] using houtline)
      rw [outlineOfAll_eq_map, outlineOfAll_eq_map] at hcs
      obtain ⟨here, below⟩ := everywhere_node_iff.1 h
      have hchildren := respelled_children hcs hleaves
      refine .node (matches_of_respells here hchildren) fun c' hc' ↦ ?_
      obtain ⟨c, hc, houtline', words, hleaves'⟩ := exists_respells_of_mem hchildren hc'
      exact ih c hc (below c hc) houtline' hleaves'

end Tree

end GrammarExport.Syntax
