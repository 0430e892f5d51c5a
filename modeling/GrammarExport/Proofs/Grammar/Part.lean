import GrammarExport.Proofs.Grammar.Conformance
import GrammarExport.Proofs.Reading.Pattern

/-!
# The parts of conforming trees

What every token and every node below the root of a conforming tree is like can be read off the
rules (`Rule.Within`). Two facts follow for the language: no rule mentions comments, so that no node
of a conforming tree is one, and every token is **solid** (`IsSolid`): it cannot be taken for a gap.
A leaf whose node has a pattern satisfies it (`Tree.Conforms.of_mem_leaves`).
-/

namespace GrammarExport.Syntax

/-- A text that is not taken for a gap: it starts with a visible character, and with a slash only if
it is that slash alone. -/
def IsSolid : List Char → Prop
  | [] => False
  | c :: u => 33 ≤ c.toNat ∧ (c = '/' → u = [])

/-- What can be seen of a tree from above: the text of a token, or the kind of a node. -/
def Tree.HeadIs (P : List Char → Prop) (K : Kind → Prop) : Tree → Prop
  | token _ text => P text
  | node kind _ _ => K kind

namespace Rule

variable {P : List Char → Prop} {K : Kind → Prop}

mutual

/-- The tokens and the nodes that a rule mentions have some properties. -/
def Within (P : List Char → Prop) (K : Kind → Prop) : Rule → Prop
  | text w => P w.toList
  | pattern p => ∀ w, p w → P w
  | symbol kind => K kind
  | field _ body => Within P K body
  | seq parts => WithinAll P K parts
  | choice alternatives => WithinAll P K alternatives
  | optional body => Within P K body
  | repeated body => Within P K body

/-- The tokens and the nodes that some rules mention have some properties. -/
def WithinAll (P : List Char → Prop) (K : Kind → Prop) : List Rule → Prop
  | [] => True
  | e :: es => e.Within P K ∧ WithinAll P K es

end

mutual

/-- The trees that match a rule are those that it mentions. -/
theorem headIs_of_matches : ∀ (e : Rule) {ts : List Tree}, e.Within P K → e.Matches ts →
    ∀ t ∈ ts, t.HeadIs P K
  | text w, ts, h, hm => by
    obtain ⟨g, rfl⟩ := hm
    exact List.forall_mem_singleton.2 h
  | pattern p, ts, h, hm => by
    obtain ⟨g, w, rfl, hw⟩ := hm
    exact List.forall_mem_singleton.2 (h w hw)
  | symbol kind, ts, h, hm => by
    obtain ⟨cs, rfl⟩ := hm
    exact List.forall_mem_singleton.2 h
  | field role body, ts, h, hm => by
    obtain ⟨kind, cs, rfl, hbody⟩ := hm
    have hhead := headIs_of_matches body h hbody (.node kind none cs) List.mem_cons_self
    exact List.forall_mem_singleton.2 hhead
  | seq parts, ts, h, hm => headIs_of_matchesSeq parts h hm
  | choice alternatives, ts, h, hm => headIs_of_matchesSome alternatives h hm
  | optional body, ts, h, hm => by
    rw [Matches] at hm
    rcases hm with rfl | hm
    · simp
    · exact headIs_of_matches body h hm
  | repeated body, ts, h, hm => by
    rw [Matches] at hm
    obtain ⟨tss, rfl, hbody⟩ := hm
    intro t ht
    obtain ⟨us, hus, htus⟩ := List.mem_flatten.1 ht
    exact headIs_of_matches body h (hbody us hus) t htus

/-- What rules in sequence match consists of trees that fulfil what is asked of each part. -/
theorem headIs_of_matchesSeq : ∀ (es : List Rule) {ts : List Tree}, WithinAll P K es →
    MatchesSeq es ts → ∀ t ∈ ts, t.HeadIs P K
  | [], ts, h, hm => by
    obtain rfl := matchesSeq_nil_iff.1 hm
    simp
  | e :: es, ts, h, hm => by
    rw [MatchesSeq] at hm
    obtain ⟨us, vs, rfl, hu, hv⟩ := hm
    rw [List.forall_mem_append]
    exact ⟨headIs_of_matches e h.1 hu, headIs_of_matchesSeq es h.2 hv⟩

theorem headIs_of_matchesSome : ∀ (es : List Rule) {ts : List Tree},
    WithinAll P K es → MatchesSome es ts → ∀ t ∈ ts, t.HeadIs P K
  | [], ts, h, hm => hm.elim
  | e :: es, ts, h, hm => by
    rw [MatchesSome] at hm
    rcases hm with hm | hm
    · exact headIs_of_matches e h.1 hm
    · exact headIs_of_matchesSome es h.2 hm

end

end Rule

/-! ### The rules of the language -/

/-- A text is solid if its first character is neither a blank nor a slash. -/
theorem IsSolid.of_toNat {c : Char} {u : List Char} (hc : 33 ≤ c.toNat) (hne : c ≠ '/') :
    IsSolid (c :: u) :=
  ⟨hc, fun h ↦ absurd h hne⟩

theorem IsWord.isSolid {w : List Char} (h : IsWord w) : IsSolid w := by
  obtain ⟨c, u, rfl, hc⟩ := h.head
  have hrange := toNat_of_startsWord hc
  refine .of_toNat (by omega) ?_
  rintro rfl
  exact absurd hc (by decide)

theorem IsString.isSolid {w : List Char} (h : IsString w) : IsSolid w := by
  obtain ⟨u, rfl⟩ := h.head
  exact .of_toNat (by decide) (by decide)

/-- Numbers are solid, whatever comes after the integer they start with. -/
theorem IsInteger.isSolid_append {w : List Char} (h : IsInteger w) (u : List Char) :
    IsSolid (w ++ u) := by
  obtain ⟨c, v, rfl, hc⟩ := h.head
  refine .of_toNat ?_ ?_
  · rcases hc with hc | rfl
    · have hrange := toNat_of_isDigit hc
      omega
    · decide
  · rintro rfl
    exact absurd hc (by decide)

/-- Below a node that is no comment there are only solid tokens and nodes that are no comments. -/
theorem Kind.rule_within {kind : Kind} (h : kind ≠ .comment) :
    kind.rule.Within IsSolid (· ≠ .comment) := by
  cases kind with
  | comment => exact absurd rfl h
  | identifier | moduleIdentifier | stringValue => exact fun w hw ↦ hw.isSolid
  | integerValue => exact fun w hw ↦ by simpa using hw.isSolid_append []
  | doubleValue =>
    rintro w ⟨n, ds, hn, -, rfl⟩
    exact hn.isSolid_append _
  | _ =>
    simp [Kind.rule, Rule.Within, Rule.WithinAll, Rule.statement, Rule.type, Rule.expression,
      Rule.value, Rule.commaItems, Rule.oneOf, Rule.repeated1, Rule.sepBy, Rule.sepBy1, IsSolid]

namespace Tree

/-- The children of a node of the grammar are solid tokens and nodes that are no comments. -/
theorem Conforms.headIs {kind : Kind} {role : Option Role} {cs : List Tree}
    (h : (node kind role cs).Conforms) (hkind : kind ≠ .comment) :
    ∀ c ∈ cs, c.HeadIs IsSolid (· ≠ .comment) :=
  Rule.headIs_of_matches _ (Kind.rule_within hkind) (everywhere_node_iff.1 h).1

/-- The tokens of a conforming tree are solid. -/
theorem Conforms.isSolid {t : Tree} (h : t.Conforms) (hhead : t.HeadIs IsSolid (· ≠ .comment)) :
    ∀ l ∈ t.tokens, IsSolid l.text := by
  induction t using Tree.induction with
  | token gap text =>
    rw [tokens]
    exact List.forall_mem_singleton.2 hhead
  | node kind role cs ih =>
    -- the rule of a node speaks about its children, so what is known of the head is passed down
    have hcs := h.headIs hhead
    have hbelow := (everywhere_node_iff.1 h).2
    rw [tokens, tokensOfAll_eq_flatMap]
    intro l hl
    obtain ⟨c, hc, hlc⟩ := List.mem_flatMap.1 hl
    exact ih c hc (hbelow c hc) (hcs c hc) l hlc

theorem exists_of_mem_leavesFrom {kind : Kind} {lead : List String} {i : Nat} {ts : List Tree}
    {l : Leaf} (h : l ∈ leavesFrom kind lead i ts) :
    ∃ t ∈ ts, ∃ words, l ∈ t.leaves kind words := by
  induction ts generalizing i with
  | nil => simp [leavesFrom] at h
  | cons t ts ih =>
    rw [leavesFrom, List.mem_append] at h
    rcases h with h | h
    · exact ⟨t, by simp, _, h⟩
    · obtain ⟨u, hu, hl⟩ := ih h
      exact ⟨u, List.mem_cons_of_mem t hu, hl⟩

/-- A leaf of a conforming tree satisfies the pattern of its node, if its node has one. -/
theorem Conforms.of_mem_leaves {kind kind' : Kind} {role : Option Role} {cs : List Tree}
    {lead : List String} {l : Leaf} {p : List Char → Prop} (h : (node kind role cs).Conforms)
    (hl : l ∈ (node kind role cs).leaves kind' lead) (hp : l.kind.rule = .pattern p) :
    p l.text := by
  generalize ht : node kind role cs = t at h hl
  induction t using Tree.induction generalizing kind kind' role cs lead with
  | token => simp at ht
  | node k r us ih =>
    obtain ⟨here, below⟩ := everywhere_node_iff.1 h
    rw [leaves] at hl
    obtain ⟨c, hc, words, hlc⟩ := exists_of_mem_leavesFrom hl
    cases c with
    | node k' r' vs => exact ih _ hc rfl (below _ hc) hlc
    | token gap text =>
      rw [leaves, List.mem_singleton] at hlc
      subst hlc
      -- a node with a pattern has one child, which is the leaf
      rw [hp, Rule.Matches] at here
      obtain ⟨g, w, rfl, hw⟩ := here
      obtain ⟨-, rfl⟩ := token.inj (List.mem_singleton.1 hc)
      exact hw

end Tree

end GrammarExport.Syntax
