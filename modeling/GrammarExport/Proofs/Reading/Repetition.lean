import GrammarExport.Proofs.Reading.Token

/-!
# Options, repetitions and lists

What is read as an option, by a repetition or in a list with commas, in terms of what is read by
the reader of the items. In one direction (`Sound.option`, `Sound.many`, `Sound.commaList`) nothing
else is needed. In the other direction (`option_eq_some`, `many_eq_some`,
`commaList_read_eq_some`) it matters what follows: an item is read back only if what follows does
not prolong it, and the repetition ends only where no other item starts.
-/

namespace GrammarExport.Syntax

variable {α : Type} {s r : List Char} {p : Reader α} {tok : α → List Lexeme} {Q : α → Prop}

/-- What a reader gives stands in the text, token by token, and has a property. -/
def Sound (p : Reader α) (tok : α → List Lexeme) (Q : α → Prop) : Prop :=
  ∀ ⦃s a r⦄, p s = some (a, r) → Spells (tok a) s r ∧ Q a

/-- An item is read back, between two places of a text, before everything of a kind. -/
def ReadsBack (p : Reader α) (tok : α → List Lexeme) (follow : List Char → Prop)
    (first last : List Char) (a : α) : Prop :=
  ∀ ⦃s r⦄, s.length ≤ first.length → last.length ≤ r.length → Spells (tok a) s r → follow r →
    p s = some (a, r)

/-! ### Options -/

/-- What an option reads is the tokens of what it gives, if there is any. -/
theorem Sound.option (hp : Sound p tok Q) :
    Sound (Reader.option p) (fun o ↦ o.toList.flatMap tok) (∀ a ∈ ·, Q a) := by
  intro s o r h
  cases o with
  | none => exact ⟨(Reader.option_eq_some_none_iff.1 h).2, by simp⟩
  | some a =>
    obtain ⟨hspell, hQ⟩ := hp (Reader.option_eq_some_some_iff.1 h)
    exact ⟨by simpa using hspell, by simpa using hQ⟩

/-- Something that may be absent is read back, if it is not read where it is absent. -/
theorem option_eq_some {o : Option α} (hread : ∀ a ∈ o, Spells (tok a) s r → p s = some (a, r))
    (hend : o = none → p s = none) (h : Spells (o.toList.flatMap tok) s r) :
    Reader.option p s = some (o, r) := by
  cases o with
  | none => exact Reader.option_eq_some_none_iff.2 ⟨hend rfl, h⟩
  | some a => exact Reader.option_eq_some_some_iff.2 (hread a rfl (by simpa using h))

/-! ### Repetitions -/

/-- What a repetition reads is the tokens of its items, in order. -/
theorem Sound.many (hp : Sound p tok Q) :
    Sound (Reader.many p) (List.flatMap tok) (∀ a ∈ ·, Q a) := by
  intro s as r h
  induction as generalizing s with
  | nil => exact ⟨(Reader.many_eq_nil_iff.1 h).2, by simp⟩
  | cons a as ih =>
    obtain ⟨m, ha, -, has⟩ := Reader.many_eq_cons_iff.1 h
    obtain ⟨hspell, hQ⟩ := hp ha
    obtain ⟨hspells, hQs⟩ := ih has
    refine ⟨spells_append_iff.2 ⟨m, hspell, hspells⟩, ?_⟩
    simpa using ⟨hQ, hQs⟩

/-- A repetition reads all items back, if each of them is read back and the next one, or what comes
after the last one, may follow it. -/
theorem many_eq_some {follow : List Char → Prop} {as : List α}
    (hread : ∀ a ∈ as, ReadsBack p tok follow s r a)
    (hstart : ∀ a ∈ as, ∀ {s r}, Spells (tok a) s r → follow s ∧ r.length < s.length)
    (hend : p r = none) (hr : follow r) (h : Spells (as.flatMap tok) s r) :
    Reader.many p s = some (as, r) := by
  induction as generalizing s with
  | nil =>
    obtain rfl : s = r := h
    exact Reader.many_eq_nil_iff.2 ⟨hend, rfl⟩
  | cons a as ih =>
    obtain ⟨m, ha, has⟩ := spells_append_iff.1 h
    -- what follows the first item is the next one, or the end of the repetition
    have hm : follow m := by
      cases as with
      | nil =>
        obtain rfl : m = r := has
        exact hr
      | cons b bs =>
        obtain ⟨m', hb, -⟩ := spells_append_iff.1 has
        exact (hstart b (by simp) hb).1
    have hlt := (hstart a (by simp) ha).2
    have hpa : p s = some (a, m) := hread a (by simp) (Nat.le_refl _) has.length_le ha hm
    refine Reader.many_eq_cons_iff.2 ⟨m, hpa, hlt, ih ?_ ?_ has⟩
    · intro b hb u v hu hv hspell hfollow
      exact hread b (by simp [hb]) (by omega) hv hspell hfollow
    · intro b hb u v hspell
      exact hstart b (by simp [hb]) hspell

/-- Single tokens are read back one after the other, if each of them is read wherever it leads. -/
theorem many_eq_some_of_leads {p : Reader Lexeme} {ts : List Lexeme}
    (hread : ∀ t ∈ ts, ∀ {s r}, t.Leads s r → p s = some (t, r)) (htext : ∀ t ∈ ts, t.text ≠ [])
    (hend : p r = none) (h : Spells ts s r) : Reader.many p s = some (ts, r) := by
  have hback : ∀ t ∈ ts, ReadsBack p (fun t ↦ [t]) (fun _ ↦ True) s r t := by
    intro t ht u w _ _ hspell _
    exact hread t ht (spells_singleton_iff.1 hspell)
  refine many_eq_some hback (fun t ht u w hspell ↦ ?_) hend trivial (by simpa using h)
  exact ⟨trivial, (spells_singleton_iff.1 hspell).length_lt (htext t ht)⟩

/-! ### Lists with commas -/

namespace CommaList

/-- The tokens of a list: those of its items, and the commas. -/
def tokens (tok : α → List Lexeme) : CommaList α → List Lexeme
  | nil => []
  | last a => tok a
  | cons a comma rest => tok a ++ ⟨comma, [',']⟩ :: rest.tokens tok

/-- A list may end before its first item if `mayEnd` says so, and after a comma if `trailing`
does. -/
def Ends (trailing : Bool) : (mayEnd : Bool) → CommaList α → Prop
  | mayEnd, nil => mayEnd = true
  | _, last _ => True
  | _, cons _ _ rest => rest.Ends trailing trailing

/-- Any list ends as it may, if it may end after a comma and before its first item. -/
theorem ends_true (l : CommaList α) : l.Ends true true := by
  induction l with
  | nil => rfl
  | last => trivial
  | cons _ _ _ ih => exact ih

theorem eq_of_spells_of_head?_eq_none {l : CommaList α} (hl : l.toList.head? = none)
    (h : Spells (l.tokens tok) s r) : s = r := by
  cases l with
  | nil => exact h
  | last | cons => simp [toList] at hl

/-- The first item of a list comes first in the text. -/
theorem exists_spells_of_head?_eq_some {l : CommaList α} {a : α} (hl : l.toList.head? = some a)
    (h : Spells (l.tokens tok) s r) : ∃ m, Spells (tok a) s m := by
  cases l with
  | nil => simp [toList] at hl
  | last b =>
    obtain rfl : b = a := by simpa [toList] using hl
    exact ⟨r, h⟩
  | cons b comma rest =>
    obtain rfl : b = a := by simpa [toList] using hl
    obtain ⟨m, hb, -⟩ := spells_append_iff.1 h
    exact ⟨m, hb⟩

theorem tokensOfAll_trees (f : α → Tree) (l : CommaList α) :
    Tree.tokensOfAll (l.trees f) = l.tokens fun a ↦ (f a).tokens := by
  induction l with
  | nil => rfl
  | last a => simp [trees, tokens, Tree.tokensOfAll]
  | cons a comma rest ih => simp [trees, tokens, Tree.tokensOfAll, ih, fixed, Tree.tokens]

variable {closing : List Char} {trailing mayEnd : Bool}

/-- What one step of reading a list does: it ends before an item, or reads an item and ends there,
or reads an item and a comma and goes on. -/
theorem read_cases {l : CommaList α} (h : read closing trailing p mayEnd s = some (l, r)) :
    (l = nil ∧ mayEnd = true ∧ Token.nextIs closing s = true ∧ s = r) ∨
      (∃ a, l = last a ∧ p s = some (a, r)) ∨
      ∃ a comma rest m m', l = cons a comma rest ∧ p s = some (a, m) ∧
        Token.mark [','] m = some (comma, m') ∧
        read closing trailing p trailing m' = some (rest, r) := by
  rw [read] at h
  split at h
  · rename_i hend
    rw [Bool.and_eq_true] at hend
    simp only [Option.some.injEq, Prod.mk.injEq] at h
    exact .inl ⟨h.1.symm, hend.1, hend.2, h.2⟩
  · rcases hp : p s with - | ⟨a, m⟩
    · simp [hp] at h
    · rcases hm : Token.mark [','] m with - | ⟨comma, m'⟩
      · simp only [hp, hm, Option.some.injEq, Prod.mk.injEq] at h
        obtain ⟨rfl, rfl⟩ := h
        exact .inr (.inl ⟨a, rfl, rfl⟩)
      · simp only [hp, hm] at h
        split at h
        · simp only [Option.map_eq_some_iff, Prod.exists, Prod.mk.injEq] at h
          obtain ⟨rest, q, hrest, rfl, rfl⟩ := h
          exact .inr (.inr ⟨a, comma, rest, m, m', rfl, rfl, hm, hrest⟩)
        · simp at h

/-- The first item of a list is read where the list starts, unless the closing mark stands there. -/
theorem exists_head_of_read {l : CommaList α} (h : read closing trailing p mayEnd s = some (l, r))
    (hopen : Token.nextIs closing s = false) :
    ∃ a m, l.toList.head? = some a ∧ p s = some (a, m) := by
  obtain ⟨-, -, hclose, -⟩ | ⟨a, rfl, ha⟩ | ⟨a, comma, rest, m, m', rfl, ha, -⟩ := read_cases h
  · rw [hopen] at hclose
    exact absurd hclose (by decide)
  · exact ⟨a, r, rfl, ha⟩
  · exact ⟨a, m, rfl, ha⟩

end CommaList

/-- What a list between commas reads is the tokens of its items with the commas, and the list ends
as it may. -/
theorem Sound.commaList (hp : Sound p tok Q) {closing : List Char} {trailing mayEnd : Bool} :
    Sound (CommaList.read closing trailing p mayEnd) (CommaList.tokens tok)
      fun l ↦ (∀ a ∈ l.toList, Q a) ∧ l.Ends trailing mayEnd := by
  intro s l r h
  induction l generalizing s mayEnd with
  | nil =>
    obtain ⟨-, hmay, -, rfl⟩ | ⟨a, hl, -⟩ | ⟨a, comma, rest, m, m', hl, -⟩ :=
      CommaList.read_cases h
    · exact ⟨rfl, by simp [CommaList.toList], hmay⟩
    · simp at hl
    · simp at hl
  | last a =>
    obtain ⟨hl, -⟩ | ⟨b, hl, ha⟩ | ⟨b, comma, rest, m, m', hl, -⟩ := CommaList.read_cases h
    · simp at hl
    · obtain rfl : a = b := by simpa using hl
      obtain ⟨hspell, hQ⟩ := hp ha
      exact ⟨hspell, by simpa [CommaList.toList] using hQ, trivial⟩
    · simp at hl
  | cons a comma rest ih =>
    obtain ⟨hl, -⟩ | ⟨b, hl, -⟩ | ⟨b, comma', rest', m, m', hl, ha, hcomma, hrest⟩ :=
      CommaList.read_cases h
    · simp at hl
    · simp at hl
    · obtain ⟨rfl, rfl, rfl⟩ : a = b ∧ comma = comma' ∧ rest = rest' := by simpa using hl
      obtain ⟨hspell, hQ⟩ := hp ha
      obtain ⟨hspells, hQs, hends⟩ := ih hrest
      have hlead := leads_of_mark hcomma rfl
      refine ⟨spells_append_iff.2 ⟨m, hspell, m', hlead, hspells⟩, ?_, hends⟩
      simpa [CommaList.toList] using ⟨hQ, hQs⟩

/-- A list with commas is read back if its items are, each before a comma or the closing mark. -/
theorem commaList_read_eq_some {c : Char} {trailing mayEnd : Bool} {l : CommaList α}
    (hc : c ≠ ',')
    (hread : ∀ a ∈ l.toList,
      ReadsBack p tok (fun r ↦ next? r = some ',' ∨ next? r = some c) s r a)
    (hstart : ∀ a ∈ l.toList, ∀ {s r}, Spells (tok a) s r → next? s ≠ some c)
    (hends : l.Ends trailing mayEnd) (hr : next? r = some c) (h : Spells (l.tokens tok) s r) :
    CommaList.read [c] trailing p mayEnd s = some (l, r) := by
  -- where an item starts the list does not end, whether or not it may
  have hopen : ∀ a ∈ l.toList, ∀ {s r}, Spells (tok a) s r →
      ∀ b, ¬ (b && Token.nextIs [c] s) = true := by
    intro a ha s r hspell b
    rw [Bool.and_eq_true, nextIs_singleton_iff]
    exact fun h ↦ hstart a ha hspell h.2
  induction l generalizing s mayEnd with
  | nil =>
    obtain rfl : s = r := h
    have hmay : mayEnd = true := hends
    rw [CommaList.read, hmay, nextIs_singleton_iff.2 hr]
    rfl
  | last a =>
    have ha : a ∈ (CommaList.last a).toList := by simp [CommaList.toList]
    have hpa : p s = some (a, r) := hread a ha (Nat.le_refl _) (Nat.le_refl _) h (.inr hr)
    have hcomma : Token.mark [','] r = none := by
      refine mark_eq_none ?_
      rw [hr]
      simpa using hc
    rw [CommaList.read, if_neg (hopen a ha h mayEnd), hpa]
    simp only [hcomma]
  | cons a comma rest ih =>
    obtain ⟨m, hspell, m', hlead, hspells⟩ := spells_append_iff.1 h
    have ha : a ∈ (CommaList.cons a comma rest).toList := by simp [CommaList.toList]
    have hsm := hspell.length_le
    have hmm : m'.length < m.length := hlead.length_lt (by simp)
    have hmr := hspells.length_le
    have hpa : p s = some (a, m) :=
      hread a ha (Nat.le_refl _) (by omega) hspell (.inl (hlead.next?_eq rfl))
    have hcomma : Token.mark [','] m = some (comma, m') := hlead.mark_eq rfl
    have hrest : CommaList.read [c] trailing p trailing m' = some (rest, r) := by
      refine ih ?_ ?_ hends hspells ?_
      · intro b hb u v hu hv
        exact hread b (by simp [CommaList.toList, hb]) (by omega) hv
      · intro b hb u v hspell
        exact hstart b (by simp [CommaList.toList, hb]) hspell
      · intro b hb u v hspell
        exact hopen b (by simp [CommaList.toList, hb]) hspell
    rw [CommaList.read, if_neg (hopen a ha hspell mayEnd), hpa]
    simp only [hcomma]
    -- the reader goes on only if the text got shorter, which the comma sees to
    rw [if_pos (by omega), hrest]
    rfl

end GrammarExport.Syntax
