import GrammarExport.Syntax.Tree

/-!
# Rules of a grammar

A rule says which trees may stand below a node, one after the other. Rules are plain data, put
together from fixed tokens, tokens of a pattern, nodes and roles by sequence, choice, option and
repetition, and `Rule.Matches` gives their meaning.

Matching is **shallow**: of a child that is a node only its kind and its role are looked at. That
the children of the child match the rule of its own kind is said once for all nodes of a tree, in
`GrammarExport.Proofs.Grammar.Conformance`.

A match of a sequence is taken apart from its front: each lemma `matchesSeq_…_iff` removes or
replaces the first part of the sequence. Rewriting with them turns a match of a rule without
repetitions into the list of its children, and checks such a match as well.
-/

namespace GrammarExport.Syntax

/-- A rule of a grammar. -/
inductive Rule where
  /-- A fixed token. -/
  | text (w : String)
  /-- A token of a pattern. -/
  | pattern (p : List Char → Prop)
  /-- A node of a kind, in no role. -/
  | symbol (kind : Kind)
  /-- A node in a role. -/
  | field (role : Role) (body : Rule)
  | seq (parts : List Rule)
  | choice (alternatives : List Rule)
  | optional (body : Rule)
  | repeated (body : Rule)

namespace Rule

/-- At least once. -/
def repeated1 (body : Rule) : Rule := .seq [body, .repeated body]

/-- At least one item, with a separator between two. -/
def sepBy1 (separator : String) (item : Rule) : Rule :=
  .seq [item, .repeated (.seq [.text separator, item])]

/-- Any number of items, with a separator between two. -/
def sepBy (separator : String) (item : Rule) : Rule := .optional (sepBy1 separator item)

mutual

/-- Trees that stand one after the other match a rule. -/
def Matches : Rule → List Tree → Prop
  | text w, ts => ∃ g, ts = [.token g w.toList]
  | pattern p, ts => ∃ g w, ts = [.token g w] ∧ p w
  | symbol kind, ts => ∃ cs, ts = [.node kind none cs]
  | field role body, ts =>
    ∃ kind cs, ts = [.node kind (some role) cs] ∧ Matches body [.node kind none cs]
  | seq parts, ts => MatchesSeq parts ts
  | choice alternatives, ts => MatchesSome alternatives ts
  | optional body, ts => ts = [] ∨ Matches body ts
  | repeated body, ts => ∃ tss : List (List Tree), ts = tss.flatten ∧ ∀ us ∈ tss, Matches body us

/-- Trees match rules one after the other. -/
def MatchesSeq : List Rule → List Tree → Prop
  | [], ts => ts = []
  | part :: parts, ts => ∃ us vs, ts = us ++ vs ∧ Matches part us ∧ MatchesSeq parts vs

/-- Trees match one of some rules. -/
def MatchesSome : List Rule → List Tree → Prop
  | [], _ => False
  | alternative :: alternatives, ts => Matches alternative ts ∨ MatchesSome alternatives ts

end

variable {ts : List Tree} {es : List Rule}

theorem matches_choice_iff {alternatives : List Rule} :
    (Rule.choice alternatives).Matches ts ↔ ∃ e ∈ alternatives, e.Matches ts := by
  show MatchesSome alternatives ts ↔ _
  induction alternatives with
  | nil =>
    show False ↔ _
    simp
  | cons e alternatives ih =>
    show e.Matches ts ∨ MatchesSome alternatives ts ↔ _
    simp [ih]

/-! ### The front of a sequence -/

theorem matchesSeq_nil_iff : MatchesSeq [] ts ↔ ts = [] := Iff.rfl

/-- Rules in sequence match a list of trees part by part. -/
theorem matchesSeq_cons_iff {e : Rule} :
    MatchesSeq (e :: es) ts ↔ ∃ us vs, ts = us ++ vs ∧ e.Matches us ∧ MatchesSeq es vs := Iff.rfl

/-- A fixed text in a sequence takes one token. -/
theorem matchesSeq_text_iff {w : String} :
    MatchesSeq (.text w :: es) ts ↔ ∃ g us, ts = .token g w.toList :: us ∧ MatchesSeq es us := by
  rw [matchesSeq_cons_iff]
  constructor
  · rintro ⟨_, us, rfl, ⟨g, rfl⟩, h⟩
    exact ⟨g, us, rfl, h⟩
  · rintro ⟨g, us, rfl, h⟩
    exact ⟨[_], us, rfl, ⟨g, rfl⟩, h⟩

/-- A symbol in a sequence takes one node, which has no role. -/
theorem matchesSeq_symbol_iff {kind : Kind} :
    MatchesSeq (.symbol kind :: es) ts ↔
      ∃ cs us, ts = .node kind none cs :: us ∧ MatchesSeq es us := by
  rw [matchesSeq_cons_iff]
  constructor
  · rintro ⟨_, us, rfl, ⟨cs, rfl⟩, h⟩
    exact ⟨cs, us, rfl, h⟩
  · rintro ⟨cs, us, rfl, h⟩
    exact ⟨[_], us, rfl, ⟨cs, rfl⟩, h⟩

/-- A field in a sequence takes one node, which has the role of the field. -/
theorem matchesSeq_field_iff {role : Role} {body : Rule} :
    MatchesSeq (.field role body :: es) ts ↔
      ∃ kind cs us, ts = .node kind (some role) cs :: us ∧ body.Matches [.node kind none cs] ∧
        MatchesSeq es us := by
  rw [matchesSeq_cons_iff]
  constructor
  · rintro ⟨_, us, rfl, ⟨kind, cs, rfl, hb⟩, h⟩
    exact ⟨kind, cs, us, rfl, hb, h⟩
  · rintro ⟨kind, cs, us, rfl, hb, h⟩
    exact ⟨[_], us, rfl, ⟨kind, cs, rfl, hb⟩, h⟩

/-- An option in a sequence can be left out or put in. -/
theorem matchesSeq_optional_iff {body : Rule} :
    MatchesSeq (.optional body :: es) ts ↔ MatchesSeq es ts ∨ MatchesSeq (body :: es) ts := by
  rw [matchesSeq_cons_iff]
  constructor
  · rintro ⟨us, vs, rfl, rfl | hb, h⟩
    · exact .inl h
    · exact .inr ⟨us, vs, rfl, hb, h⟩
  · rintro (h | ⟨us, vs, rfl, hb, h⟩)
    · exact ⟨[], ts, rfl, .inl rfl, h⟩
    · exact ⟨us, vs, rfl, .inr hb, h⟩

theorem matchesSeq_seq_iff {parts : List Rule} :
    MatchesSeq (.seq parts :: es) ts ↔ MatchesSeq (parts ++ es) ts := by
  induction parts generalizing ts with
  | nil =>
    rw [matchesSeq_cons_iff, List.nil_append]
    constructor
    · rintro ⟨_, vs, rfl, rfl, h⟩
      exact h
    · intro h
      exact ⟨[], ts, rfl, rfl, h⟩
  | cons part parts ih =>
    rw [matchesSeq_cons_iff, List.cons_append, matchesSeq_cons_iff]
    constructor
    · rintro ⟨_, vs, rfl, ⟨us, ws, rfl, hp, hs⟩, h⟩
      exact ⟨us, ws ++ vs, List.append_assoc .., hp, ih.1 ⟨ws, vs, rfl, hs, h⟩⟩
    · rintro ⟨us, _, rfl, hp, h⟩
      obtain ⟨ws, vs, rfl, hs, h⟩ := ih.2 h
      exact ⟨us ++ ws, vs, (List.append_assoc ..).symm, ⟨us, ws, rfl, hp, hs⟩, h⟩

/-- A choice in a sequence can be replaced by one of its alternatives. -/
theorem matchesSeq_choice_iff {alternatives : List Rule} :
    MatchesSeq (.choice alternatives :: es) ts ↔
      ∃ e ∈ alternatives, MatchesSeq (e :: es) ts := by
  rw [matchesSeq_cons_iff]
  constructor
  · rintro ⟨us, vs, rfl, hchoice, h⟩
    obtain ⟨e, he, hm⟩ := matches_choice_iff.1 hchoice
    exact ⟨e, he, us, vs, rfl, hm, h⟩
  · rintro ⟨e, he, us, vs, rfl, hm, h⟩
    exact ⟨us, vs, rfl, matches_choice_iff.2 ⟨e, he, hm⟩, h⟩

/-- A repetition is over, or its body comes once and then the repetition again. -/
theorem matchesSeq_repeated_iff {body : Rule} :
    MatchesSeq (.repeated body :: es) ts ↔
      MatchesSeq es ts ∨ MatchesSeq (body :: .repeated body :: es) ts := by
  rw [matchesSeq_cons_iff]
  constructor
  · rintro ⟨_, vs, rfl, ⟨tss, rfl, hb⟩, h⟩
    cases tss with
    | nil => exact .inl h
    | cons us tss =>
      refine .inr ⟨us, tss.flatten ++ vs, by simp, hb us (by simp), tss.flatten, vs, rfl, ?_, h⟩
      exact ⟨tss, rfl, fun ws hws ↦ hb ws (by simp [hws])⟩
  · rintro (h | ⟨us, _, rfl, hu, _, vs, rfl, ⟨tss, rfl, hb⟩, h⟩)
    · exact ⟨[], ts, rfl, ⟨[], rfl, by simp⟩, h⟩
    · refine ⟨(us :: tss).flatten, vs, by simp, ⟨us :: tss, rfl, ?_⟩, h⟩
      rintro ws (_ | ⟨_, hws⟩)
      · exact hu
      · exact hb ws hws

end Rule

end GrammarExport.Syntax
