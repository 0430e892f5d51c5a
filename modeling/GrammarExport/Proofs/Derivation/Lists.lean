import GrammarExport.Proofs.Derivation.WellFormed

/-!
# Options, repetitions and lists in the grammar

Rules whose items are single trees match lists of trees: an option at most one, a repetition any
number, and the rules for lists with commas exactly the trees of a `CommaList`
(`Rule.exists_commaList_of_matchesSeq`, `Rule.matchesSeq_of_commaList`). Both forms of the last are
covered at once: those that may end with a comma and those that may not.
-/

namespace GrammarExport.Syntax

variable {α : Type} {e : Rule} {es : List Rule} {t : Tree} {ts us : List Tree}

namespace Rule

/-- A rule that matches one tree at a time. -/
def Single (e : Rule) : Prop := ∀ ⦃ts⦄, e.Matches ts → ∃ t, ts = [t]

theorem single_symbol (kind : Kind) : (symbol kind).Single := by
  intro ts h
  rw [Matches] at h
  obtain ⟨cs, rfl⟩ := h
  exact ⟨_, rfl⟩

theorem exists_node_of_matches_symbol {kind : Kind} (h : (symbol kind).Matches [t]) :
    ∃ cs, t = .node kind none cs := by
  rw [Matches] at h
  obtain ⟨cs, heq⟩ := h
  exact ⟨cs, (List.cons.inj heq).1⟩

theorem single_field (role : Role) (body : Rule) : (field role body).Single := by
  intro ts h
  rw [Matches] at h
  obtain ⟨k, cs, rfl, -⟩ := h
  exact ⟨_, rfl⟩

theorem single_choice {alternatives : List Rule} (h : ∀ e ∈ alternatives, e.Single) :
    (choice alternatives).Single := by
  intro ts hts
  obtain ⟨e, he, hmatch⟩ := matches_choice_iff.1 hts
  exact h e he hmatch

theorem matchesSeq_cons_of_matches (ht : e.Matches [t]) (h : MatchesSeq es us) :
    MatchesSeq (e :: es) (t :: us) := by
  rw [MatchesSeq]
  exact ⟨[t], us, rfl, ht, h⟩

/-- A rule for one tree takes the first tree of a list. -/
theorem Single.matchesSeq_cons_iff (he : e.Single) :
    MatchesSeq (e :: es) ts ↔ ∃ t us, ts = t :: us ∧ e.Matches [t] ∧ MatchesSeq es us := by
  constructor
  · intro h
    rw [MatchesSeq] at h
    obtain ⟨us, vs, rfl, hu, hv⟩ := h
    obtain ⟨t, rfl⟩ := he hu
    exact ⟨t, vs, rfl, hu, hv⟩
  · rintro ⟨t, us, rfl, ht, h⟩
    exact matchesSeq_cons_of_matches ht h

/-- An option takes one tree of a list or none. -/
theorem Single.matchesSeq_optional_iff (he : e.Single) :
    MatchesSeq (.optional e :: es) ts ↔
      ∃ (o : Option Tree) (us : List Tree), ts = o.toList ++ us ∧ (∀ t ∈ o, e.Matches [t]) ∧
        MatchesSeq es us := by
  rw [Rule.matchesSeq_optional_iff, he.matchesSeq_cons_iff]
  constructor
  · rintro (h | ⟨t, us, rfl, ht, h⟩)
    · exact ⟨none, ts, rfl, by simp, h⟩
    · exact ⟨some t, us, rfl, by simpa using ht, h⟩
  · rintro ⟨- | t, us, rfl, ht, h⟩
    · exact .inl h
    · exact .inr ⟨t, us, rfl, ht t rfl, h⟩

/-- A repetition takes trees from the front of a list, each of which its rule matches. -/
theorem Single.matchesSeq_repeated_iff (he : e.Single) :
    MatchesSeq (.repeated e :: es) ts ↔
      ∃ vs us : List Tree, ts = vs ++ us ∧ (∀ v ∈ vs, e.Matches [v]) ∧ MatchesSeq es us := by
  constructor
  · intro h
    simp only [MatchesSeq, Matches] at h
    obtain ⟨_, us, rfl, ⟨tss, rfl, hitems⟩, hus⟩ := h
    refine ⟨tss.flatten, us, rfl, ?_, hus⟩
    intro v hv
    obtain ⟨ws, hws, hv⟩ := List.mem_flatten.1 hv
    obtain ⟨t, rfl⟩ := he (hitems ws hws)
    rw [List.mem_singleton.1 hv]
    exact hitems [t] hws
  · rintro ⟨vs, us, rfl, hvs, hus⟩
    induction vs with
    | nil => exact Rule.matchesSeq_repeated_iff.2 (.inl hus)
    | cons v vs ih =>
      refine Rule.matchesSeq_repeated_iff.2 (.inr (matchesSeq_cons_of_matches ?_ (ih ?_)))
      · exact hvs v (by simp)
      · exact fun u hu ↦ hvs u (by simp [hu])

theorem Single.matches_repeated_iff (he : e.Single) :
    (Rule.repeated e).Matches ts ↔ ∀ t ∈ ts, e.Matches [t] := by
  have hseq : (Rule.repeated e).Matches ts ↔ MatchesSeq [.repeated e] ts := by
    simp [MatchesSeq]
  rw [hseq, he.matchesSeq_repeated_iff]
  simp [matchesSeq_nil_iff]

/-- What comes after the items of a list: perhaps one more comma. -/
def closers (trailing : Bool) : List Rule := if trailing then [.optional (.text ",")] else []

/-- The items of a list after the first, and what comes after them. -/
def moreItems (e : Rule) (trailing : Bool) (es : List Rule) : List Rule :=
  .repeated (.seq [.text ",", e]) :: (closers trailing ++ es)

/-- After one item, what the grammar has for more of them is the rest of a list with commas. The
induction is on the rounds of the repetition, which take a comma and an item each. -/
theorem exists_commaList_of_moreItems (he : e.Single) {trailing : Bool} (ht : e.Matches [t])
    (h : MatchesSeq (moreItems e trailing es) ts) :
    ∃ (l : CommaList Tree) (us : List Tree), t :: ts = l.trees id ++ us ∧
      (∀ u ∈ l.toList, e.Matches [u]) ∧ l.Ends trailing false ∧ MatchesSeq es us := by
  simp only [moreItems, MatchesSeq, Matches] at h
  obtain ⟨_, vs, rfl, ⟨tss, rfl, hitems⟩, hvs⟩ := h
  induction tss generalizing t with
  | nil =>
    cases trailing with
    | false => exact ⟨.last t, vs, rfl, by simpa [CommaList.toList] using ht, trivial, hvs⟩
    | true =>
      rcases matchesSeq_optional_iff.1 hvs with hvs | hvs
      · exact ⟨.last t, vs, rfl, by simpa [CommaList.toList] using ht, trivial, hvs⟩
      · obtain ⟨g, us, rfl, hus⟩ := matchesSeq_text_iff.1 hvs
        exact ⟨.cons t g .nil, us, rfl, by simpa [CommaList.toList] using ht, rfl, hus⟩
  -- one more round: a comma and an item, which is the first item of the list that is left
  | cons ws tss ih =>
    obtain ⟨_, _, rfl, ⟨g, rfl⟩, _, _, rfl, hu, rfl⟩ := hitems ws (by simp)
    obtain ⟨u, rfl⟩ := he hu
    obtain ⟨l, us, heq, hl, hends, hus⟩ := ih hu fun ws hws ↦ hitems ws (by simp [hws])
    refine ⟨.cons t g l, us, ?_, ?_, ?_, hus⟩
    · show _ = t :: fixed g "," :: (l.trees id ++ us)
      rw [← heq]
      rfl
    · simpa [CommaList.toList] using ⟨ht, hl⟩
    · cases l with
      | nil => exact absurd hends (by simp [CommaList.Ends])
      | last => trivial
      | cons => exact hends

/-- The rest of a list, after a comma, is what the grammar has for more items. -/
theorem moreItems_of_commaList {f : α → Tree} {trailing : Bool} {g : Gap} {l : CommaList α}
    (hl : ∀ a ∈ l.toList, e.Matches [f a]) (hends : l.Ends trailing trailing)
    (hus : MatchesSeq es us) :
    MatchesSeq (moreItems e trailing es) (fixed g "," :: (l.trees f ++ us)) := by
  have hclose : MatchesSeq (closers trailing ++ es) us := by
    cases trailing with
    | false => exact hus
    | true => exact matchesSeq_optional_iff.2 (.inl hus)
  have hend : MatchesSeq (moreItems e trailing es) us :=
    matchesSeq_repeated_iff.2 (.inl hclose)
  have hitem : ∀ {a g us}, e.Matches [f a] → MatchesSeq (moreItems e trailing es) us →
      MatchesSeq (moreItems e trailing es) (fixed g "," :: f a :: us) := by
    intro a g us ha hus
    refine matchesSeq_repeated_iff.2 (.inr (matchesSeq_seq_iff.2 (matchesSeq_text_iff.2 ?_)))
    exact ⟨g, f a :: us, rfl, matchesSeq_cons_of_matches ha hus⟩
  induction l generalizing g with
  | nil =>
    obtain rfl : trailing = true := hends
    refine matchesSeq_repeated_iff.2 (.inl (matchesSeq_optional_iff.2 (.inr ?_)))
    exact matchesSeq_text_iff.2 ⟨g, us, rfl, hus⟩
  | last a => exact hitem (hl a (by simp [CommaList.toList])) hend
  | cons a g' rest ih =>
    refine hitem (hl a (by simp [CommaList.toList])) (ih ?_ hends)
    exact fun b hb ↦ hl b (by simp [CommaList.toList, hb])

/-! ### Lists as wholes -/

/-- A list that may be empty, and what comes after it. -/
def itemsThen (e : Rule) (trailing : Bool) (es : List Rule) (ts : List Tree) : Prop :=
  MatchesSeq es ts ∨ MatchesSeq (e :: moreItems e trailing es) ts

/-- A list that may end with a comma, in the form that both kinds of lists share. -/
theorem matchesSeq_commaItems_iff :
    MatchesSeq (commaItems e :: es) ts ↔ itemsThen e true es ts := by
  rw [commaItems, sepBy1, matchesSeq_optional_iff, matchesSeq_seq_iff, List.cons_append,
    matchesSeq_seq_iff]
  rfl

/-- A list that does not end with a comma, in the form that both kinds of lists share. -/
theorem matchesSeq_sepBy_iff :
    MatchesSeq (.optional (sepBy "," e) :: es) ts ↔ itemsThen e false es ts := by
  rw [sepBy, sepBy1, matchesSeq_optional_iff, matchesSeq_optional_iff, ← or_assoc, or_self,
    matchesSeq_seq_iff]
  rfl

theorem matchesSeq_closing_iff {w : String} :
    MatchesSeq [.text w] ts ↔ ∃ g, ts = [fixed g w] := by
  rw [matchesSeq_text_iff]
  constructor
  · rintro ⟨g, us, rfl, hus⟩
    rw [matchesSeq_nil_iff.1 hus]
    exact ⟨g, rfl⟩
  · rintro ⟨g, rfl⟩
    exact ⟨g, [], rfl, matchesSeq_nil⟩

/-- What a list and the text after it match is the trees of some list and one token. -/
theorem exists_commaList_of_matchesSeq (he : e.Single) {trailing : Bool} {w : String}
    (h : itemsThen e trailing [.text w] ts) :
    ∃ (l : CommaList Tree) (closing : Gap), ts = l.trees id ++ [fixed closing w] ∧
      (∀ u ∈ l.toList, e.Matches [u]) ∧ l.Ends trailing true := by
  rcases h with h | h
  · obtain ⟨g, rfl⟩ := matchesSeq_closing_iff.1 h
    exact ⟨.nil, g, rfl, by simp [CommaList.toList], rfl⟩
  · obtain ⟨t, us, rfl, ht, hus⟩ := he.matchesSeq_cons_iff.1 h
    obtain ⟨l, vs, heq, hl, hends, hvs⟩ := exists_commaList_of_moreItems he ht hus
    obtain ⟨g, rfl⟩ := matchesSeq_closing_iff.1 hvs
    refine ⟨l, g, heq, hl, ?_⟩
    cases l with
    | nil => rfl
    | last => trivial
    | cons => exact hends

/-- The trees of a list are what the grammar has for one, if the list ends as it may. -/
theorem matchesSeq_of_commaList {f : α → Tree} {trailing : Bool} {l : CommaList α}
    (hl : ∀ a ∈ l.toList, e.Matches [f a]) (hends : l.Ends trailing true)
    (hus : MatchesSeq es us) : itemsThen e trailing es (l.trees f ++ us) := by
  cases l with
  | nil => exact .inl hus
  | last a =>
    refine .inr (matchesSeq_cons_of_matches (hl a (by simp [CommaList.toList])) ?_)
    refine matchesSeq_repeated_iff.2 (.inl ?_)
    cases trailing with
    | false => exact hus
    | true => exact matchesSeq_optional_iff.2 (.inl hus)
  | cons a g rest =>
    refine .inr (matchesSeq_cons_of_matches (hl a (by simp [CommaList.toList])) ?_)
    exact moreItems_of_commaList (fun b hb ↦ hl b (by simp [CommaList.toList, hb])) hends hus

end Rule

/-! ### Items -/

/-- Trees that are all trees of some items are the trees of a list of items. -/
theorem exists_map_eq {f : α → Tree} {P : α → Prop} (h : ∀ t ∈ ts, ∃ a, P a ∧ f a = t) :
    ∃ as : List α, as.map f = ts ∧ ∀ a ∈ as, P a := by
  induction ts with
  | nil => exact ⟨[], rfl, by simp⟩
  | cons t ts ih =>
    obtain ⟨a, ha, rfl⟩ := h t (by simp)
    obtain ⟨as, rfl, has⟩ := ih fun u hu ↦ h u (by simp [hu])
    exact ⟨a :: as, rfl, by simpa using ⟨ha, has⟩⟩

/-- The same for a tree that may be missing. -/
theorem exists_option_map_eq {f : α → Tree} {P : α → Prop} {o : Option Tree}
    (h : ∀ t ∈ o, ∃ a, P a ∧ f a = t) : ∃ o' : Option α, o'.map f = o ∧ ∀ a ∈ o', P a := by
  cases o with
  | none => exact ⟨none, rfl, by simp⟩
  | some t =>
    obtain ⟨a, ha, rfl⟩ := h t rfl
    exact ⟨some a, rfl, by simpa using ha⟩

/-- From the child number `n` on no words are offered. -/
theorem offered_eq_nil {kind : Kind} {lead : List String} {i n : Nat} (hi : n ≤ i)
    (h : ∀ j, kind.offered lead (j + n) = []) : ∀ j, i ≤ j → kind.offered lead j = [] := by
  intro j hj
  obtain ⟨m, rfl⟩ : ∃ m, j = m + n := ⟨j - n, by omega⟩
  exact h m

/-- Children are well formed if the same words are offered before each of them. -/
theorem wellFormedFrom_iff_of_offered {kind : Kind} {lead words : List String} {i : Nat}
    (hwords : ∀ j, i ≤ j → kind.offered lead j = words) :
    Tree.WellFormedFrom kind lead i ts ↔ ∀ t ∈ ts, t.WellFormed kind words := by
  induction ts generalizing i with
  | nil => simp
  | cons t ts ih =>
    rw [Tree.wellFormedFrom_cons_iff, hwords i (Nat.le_refl i), ih fun j hj ↦ hwords j (by omega),
      List.forall_mem_cons]

namespace CommaList

theorem mem_trees {l : CommaList Tree} (h : t ∈ l.toList) : t ∈ l.trees id := by
  induction l with
  | nil => exact absurd h (by simp [toList])
  | last u => exact h
  | cons u g rest ih =>
    rcases List.mem_cons.1 h with rfl | h
    · simp [trees]
    · simp [trees, ih h]

/-- Trees that are all trees of some items form the list of these items. -/
theorem exists_trees_eq {f : α → Tree} {P : α → Prop} {l : CommaList Tree}
    (h : ∀ t ∈ l.toList, ∃ a, P a ∧ f a = t) :
    ∃ l' : CommaList α, l'.trees f = l.trees id ∧ l'.toList.map f = l.toList ∧
      (∀ a ∈ l'.toList, P a) ∧
      ∀ {trailing mayEnd : Bool}, l.Ends trailing mayEnd → l'.Ends trailing mayEnd := by
  induction l with
  | nil => exact ⟨.nil, rfl, rfl, by simp [toList], id⟩
  | last t =>
    obtain ⟨a, ha, rfl⟩ := h t (by simp [toList])
    exact ⟨.last a, rfl, rfl, by simpa [toList] using ha, id⟩
  | cons t g rest ih =>
    obtain ⟨a, ha, rfl⟩ := h t (by simp [toList])
    obtain ⟨l', htrees, hmap, hP, hends⟩ := ih fun u hu ↦ h u (by simp [toList, hu])
    refine ⟨.cons a g l', ?_, ?_, ?_, fun h ↦ hends h⟩
    · rw [trees, trees, htrees]
      rfl
    · simp [toList, hmap]
    · simpa [toList] using ⟨ha, hP⟩

/-- The items of a list are well formed if the same words are offered before each of them. -/
theorem wellFormedFrom_trees_iff {f : α → Tree} {kind : Kind} {lead : List String} {i : Nat}
    {l : CommaList α} (words : List String)
    (hfixed : kind.isVerbal = false)
    (hwords : ∀ j, i ≤ j → kind.offered lead j = words) :
    Tree.WellFormedFrom kind lead i (l.trees f) ↔
      ∀ a ∈ l.toList, (f a).WellFormed kind words := by
  rw [wellFormedFrom_iff_of_offered hwords]
  induction l with
  | nil => simp [trees, toList]
  | last a => simp [trees, toList]
  | cons a g rest ih =>
    have hcomma : (fixed g ",").WellFormed kind words := Tree.wellFormed_token hfixed
    simp only [trees, toList, List.forall_mem_cons, ih, hcomma, true_and]

/-- The items of a list are well formed if the first of them is, with the words offered there, and
the same words are offered before the others. -/
theorem wellFormedFrom_trees_of_head {f : α → Tree} {kind : Kind} {lead : List String}
    {i : Nat} {l : CommaList α} (words : List String)
    (hfixed : kind.isVerbal = false)
    (hhead : ∀ a ∈ l.toList.head?, (f a).WellFormed kind (kind.offered lead i))
    (hwords : ∀ j, i < j → kind.offered lead j = words)
    (hl : ∀ a ∈ l.toList, (f a).WellFormed kind words) :
    Tree.WellFormedFrom kind lead i (l.trees f) := by
  cases l with
  | nil => trivial
  | last a => exact ⟨hhead a rfl, trivial⟩
  | cons a g rest =>
    refine ⟨hhead a rfl, Tree.wellFormed_token hfixed, ?_⟩
    rw [wellFormedFrom_trees_iff words hfixed fun j hj ↦ hwords j (by omega)]
    exact fun b hb ↦ hl b (by simp [toList, hb])

/-- The first item of a list of well-formed trees, with the words offered there. -/
theorem wellFormed_head {f : α → Tree} {kind : Kind} {lead : List String} {i : Nat}
    {l : CommaList α} (h : Tree.WellFormedFrom kind lead i (l.trees f)) :
    ∀ a ∈ l.toList.head?, (f a).WellFormed kind (kind.offered lead i) := by
  rintro a ha
  cases l with
  | nil => exact absurd ha (by simp [toList])
  | last b =>
    obtain rfl : b = a := by simpa [toList] using ha
    exact h.1
  | cons b g rest =>
    obtain rfl : b = a := by simpa [toList] using ha
    exact h.1

/-- An item of a list of well-formed trees, with some of the words offered in the list. -/
theorem exists_wellFormed_of_mem {f : α → Tree} {kind : Kind} {lead : List String} {i : Nat}
    {l : CommaList α} (h : Tree.WellFormedFrom kind lead i (l.trees f)) :
    ∀ a ∈ l.toList, ∃ words, (f a).WellFormed kind words := by
  induction l generalizing i with
  | nil => simp [toList]
  | last a => simpa [toList] using ⟨_, h.1⟩
  | cons a g rest ih =>
    rw [toList, List.forall_mem_cons]
    exact ⟨⟨_, h.1⟩, ih h.2.2⟩

end CommaList

end GrammarExport.Syntax
