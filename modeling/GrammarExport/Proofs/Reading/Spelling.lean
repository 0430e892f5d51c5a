import GrammarExport.Proofs.Grammar.Part

/-!
# Spelling tokens anew

Solid tokens, written one after the other, are found again where they are written if their gaps are
closed and each of them ends before what follows (`spells_cons_iff`). A blank ends every token. So
tokens are found again with other gaps between them, if these keep them apart (`Gap.Separates`,
`spells_of_separates`).

Whether a token ends depends little on what follows it: what follows may start with another word
where a word started before (`StartAlike`, `EndsBefore.of_startAlike`). So a word among tokens can
be replaced by another, and a string by another (`Replaces`, `Spells.replace`).
-/

namespace GrammarExport.Syntax

variable {s m n r u w : List Char} {t : Lexeme} {ts us : List Lexeme}

/-! ### Where a token ends -/

/-- A token ends before a text: a word does not go on there, and a slash is not followed by another,
with which it would start a comment. -/
structure EndsBefore (w n : List Char) : Prop where
  word : ∀ c ∈ w.head?, startsWord c = true → ∀ d ∈ n.head?, inWord d = false
  slash : w = ['/'] → n.head? ≠ some '/'

/-- A text starts with a token if its first character is neither a blank nor the first slash of a
comment. -/
theorem startsWithGap_cons_iff {c : Char} :
    Gap.startsWithGap (c :: s) = false ↔ isBlank c = false ∧ (c = '/' → s.head? ≠ some '/') := by
  rcases s with - | ⟨d, s⟩
  · simp [Gap.startsWithGap]
  · by_cases h : c = '/' ∧ d = '/'
    · obtain ⟨rfl, rfl⟩ := h
      simp [Gap.startsWithGap]
    · rw [Gap.startsWithGap]
      · simp only [List.head?_cons, ne_eq, Option.some.injEq]
        constructor
        · intro hc
          exact ⟨hc, fun h₁ h₂ ↦ h ⟨h₁, h₂⟩⟩
        · exact And.left
      · rintro rest rfl heq
        exact h ⟨rfl, (List.cons.inj heq).1⟩

/-- The only solid token that could turn into a gap is a slash before another slash. -/
theorem IsSolid.startsWithGap_eq_false_iff (h : IsSolid w) :
    Gap.startsWithGap (w ++ n) = false ↔ (w = ['/'] → n.head? ≠ some '/') := by
  rcases w with - | ⟨c, u⟩
  · exact h.elim
  · have hblank : isBlank c = false := by
      rw [Bool.eq_false_iff]
      intro hb
      have hle := toNat_of_isBlank hb
      have hge := h.1
      omega
    rw [List.cons_append, startsWithGap_cons_iff]
    constructor
    · rintro ⟨-, hslash⟩ heq
      obtain ⟨rfl, rfl⟩ := List.cons.inj heq
      exact hslash rfl
    · intro hslash
      refine ⟨hblank, ?_⟩
      rintro rfl
      obtain rfl := h.2 rfl
      exact hslash rfl

/-- No solid token starts with a line break, so none ends a comment before it. -/
theorem IsSolid.inComment {c : Char} (h : IsSolid (c :: u)) : inComment c = true := by
  have hge := h.1
  rw [Syntax.inComment, Bool.and_eq_true, bne_iff_ne, bne_iff_ne]
  constructor <;> rintro rfl <;> exact absurd hge (by decide)

/-- A solid token is found where it is written if its gap is closed and it ends there. -/
theorem Lexeme.leads_iff (ht : IsSolid t.text) :
    t.Leads (t.spelling ++ n) n ↔ t.gap.Closed ∧ EndsBefore t.text n := by
  rw [Lexeme.spelling, List.append_assoc]
  constructor
  · intro h
    have hbefore := Gap.split_text_append_iff.1 h.split
    have hstart := Gap.split_rest (t.gap.text ++ (t.text ++ n))
    rw [h.split] at hstart
    refine ⟨?_, h.ends, ht.startsWithGap_eq_false_iff.1 hstart⟩
    obtain ⟨g, - | ⟨c, u⟩⟩ := t
    · exact ht.elim
    · exact (Gap.standsBefore_iff_closed ht.inComment hstart).1 hbefore
  · rintro ⟨hgap, hends⟩
    have hstart := ht.startsWithGap_eq_false_iff.2 hends.slash
    exact ⟨Gap.split_text_append_iff.2 (hgap.standsBefore hstart), hends.word⟩

theorem spelling_cons_append :
    spelling (t :: ts) ++ r = t.gap.text ++ (t.text ++ (spelling ts ++ r)) := by
  rw [spelling, List.flatMap_cons, Lexeme.spelling, List.append_assoc, List.append_assoc]
  rfl

/-- Solid tokens are found where they are written if their gaps are closed and each of them ends
before the next one. -/
theorem spells_cons_iff (ht : IsSolid t.text) :
    Spells (t :: ts) (spelling (t :: ts) ++ r) r ↔
      (t.gap.Closed ∧ EndsBefore t.text (spelling ts ++ r)) ∧ Spells ts (spelling ts ++ r) r := by
  rw [← Lexeme.leads_iff ht, spelling, List.flatMap_cons, List.append_assoc]
  constructor
  · rintro ⟨m, hlead, hts⟩
    obtain rfl := hts.eq_spelling
    exact ⟨hlead, hts⟩
  · rintro ⟨hlead, hts⟩
    exact ⟨_, hlead, hts⟩

/-! ### Gaps that separate -/

/-- A gap that keeps tokens apart, whatever they are: it starts with a blank, and a line break
follows each of its comments. -/
def Gap.Separates (g : Gap) : Prop := (∃ c g', g = .blank c :: g') ∧ g.Closed

theorem Gap.Separates.isBlank_head {g : Gap} (h : g.Separates) :
    ∀ d ∈ (g.text ++ s).head?, isBlank d = true := by
  obtain ⟨⟨c, g', rfl⟩, hc, -⟩ := h
  intro d hd
  obtain rfl : c = d := by simpa [text, Trivia.text] using hd
  exact hc

/-- The only gap of a text that is a closed gap. -/
theorem Gap.Closed.split_text {g : Gap} (h : g.Closed) : split g.text = (g, []) := by
  have hsplit := split_text_append_iff.2 (h.standsBefore (s := []) rfl)
  rwa [List.append_nil] at hsplit

theorem inWord_eq_false_of_isBlank {c : Char} (h : isBlank c = true) : inWord c = false := by
  have hle := toNat_of_isBlank h
  rw [inWord, Bool.or_eq_false_iff, Bool.eq_false_iff, Bool.eq_false_iff]
  refine ⟨fun hword ↦ ?_, fun hdigit ↦ ?_⟩
  · have hrange := toNat_of_startsWord hword
    omega
  · have hrange := toNat_of_isDigit hdigit
    omega

/-- A token that is neither a word nor a slash ends before anything. -/
theorem EndsBefore.of_head {c : Char} (hword : startsWord c = false) (hslash : c ≠ '/') :
    EndsBefore (c :: u) n := by
  refine ⟨fun d hd hstart ↦ ?_, fun heq ↦ absurd (List.cons.inj heq).1 hslash⟩
  obtain rfl : c = d := by simpa using hd
  rw [hword] at hstart
  exact absurd hstart (by decide)

/-- A word ends before a closed gap and a character that is in no word. -/
theorem IsWord.endsBefore {g : Gap} {c : Char} (hw : IsWord w) (hg : g.Closed)
    (hc : inWord c = false) : EndsBefore w (g.text ++ c :: n) := by
  refine ⟨fun _ _ _ d hd ↦ ?_, ?_⟩
  · rcases g with - | ⟨b | body, g⟩
    · obtain rfl : c = d := by simpa [Gap.text] using hd
      exact hc
    · obtain rfl : b = d := by simpa [Gap.text, Trivia.text] using hd
      exact inWord_eq_false_of_isBlank hg.1
    · obtain rfl : '/' = d := by simpa [Gap.text, Trivia.text] using hd
      decide
  · rintro rfl
    exact absurd hw (by decide)

/-- Every token ends before a blank. -/
theorem EndsBefore.of_isBlank (h : ∀ d ∈ n.head?, isBlank d = true) : EndsBefore w n := by
  refine ⟨fun _ _ _ d hd ↦ inWord_eq_false_of_isBlank (h d hd), fun _ hslash ↦ ?_⟩
  exact absurd (h '/' hslash) (by decide)

/-- Tokens are found where they are written with gaps between them that keep them apart. -/
theorem spells_of_separates (hsolid : ∀ t ∈ ts, IsSolid t.text)
    (hclosed : ∀ t ∈ ts, t.gap.Closed) (hgaps : ∀ t ∈ ts.tail, t.gap.Separates)
    (hr : ∀ d ∈ r.head?, isBlank d = true) : Spells ts (spelling ts ++ r) r := by
  induction ts with
  | nil => rfl
  | cons t ts ih =>
    rw [List.forall_mem_cons] at hsolid hclosed
    -- a blank comes next, either in the gap of the next token or in what is left
    have hnext : ∀ d ∈ (spelling ts ++ r).head?, isBlank d = true := by
      cases ts with
      | nil => exact hr
      | cons u us =>
        have hu := hgaps u (by simp)
        rw [spelling_cons_append]
        exact hu.isBlank_head
    have hrest := ih hsolid.2 hclosed.2 fun u hu ↦ hgaps u (List.mem_of_mem_tail hu)
    exact (spells_cons_iff hsolid.1).2 ⟨⟨hclosed.1, .of_isBlank hnext⟩, hrest⟩

/-! ### Another token among tokens -/

/-- Two texts start with the same character, or both with a word. -/
def StartAlike (m n : List Char) : Prop :=
  m.head? = n.head? ∨
    (∃ c ∈ m.head?, startsWord c = true) ∧ ∃ d ∈ n.head?, startsWord d = true

theorem StartAlike.append (h : StartAlike m n) (u : List Char) : StartAlike (u ++ m) (u ++ n) := by
  cases u with
  | nil => exact h
  | cons => exact .inl rfl

/-- Where a token ends does not depend on which word follows. -/
theorem EndsBefore.of_startAlike (h : EndsBefore w m) (hn : StartAlike m n) : EndsBefore w n := by
  rcases hn with heq | ⟨⟨c, hc, hword⟩, d, hd, hword'⟩
  · exact ⟨heq ▸ h.word, heq ▸ h.slash⟩
  · constructor
    · intro e he hstart
      have hfalse := h.word e he hstart c hc
      rw [inWord, hword, Bool.true_or] at hfalse
      exact absurd hfalse (by decide)
    · intro _ hslash
      obtain rfl : d = '/' := Option.mem_unique hd hslash
      exact absurd hword' (by decide)

/-- Tokens are found again before what starts alike. -/
theorem Spells.of_startAlike (h : Spells ts (spelling ts ++ m) m)
    (hsolid : ∀ t ∈ ts, IsSolid t.text) (hn : StartAlike m n) :
    Spells ts (spelling ts ++ n) n := by
  induction ts with
  | nil => rfl
  | cons t ts ih =>
    rw [List.forall_mem_cons] at hsolid
    obtain ⟨⟨hgap, hends⟩, hts⟩ := (spells_cons_iff hsolid.1).1 h
    rw [spells_cons_iff hsolid.1]
    exact ⟨⟨hgap, hends.of_startAlike (hn.append _)⟩, ih hts hsolid.2⟩

/-- A token can stand in the place of another, whatever stands around it: the two start alike, and
what ends the one ends the other. -/
structure Replaces (w u : List Char) : Prop where
  isSolid : IsSolid w
  startAlike (n : List Char) : StartAlike (u ++ n) (w ++ n)
  endsBefore {n : List Char} : EndsBefore u n → EndsBefore w n

/-- Among tokens, any word can stand in the place of a word. -/
theorem IsWord.replaces (hw : IsWord w) (hu : IsWord u) : Replaces w u := by
  obtain ⟨c, u, rfl, hc⟩ := hu.head
  refine ⟨hw.isSolid, fun n ↦ ?_, fun h ↦ ⟨fun _ _ _ ↦ h.word c rfl hc, ?_⟩⟩
  · obtain ⟨d, w, rfl, hd⟩ := hw.head
    exact .inr ⟨⟨c, rfl, hc⟩, d, rfl, hd⟩
  · rintro rfl
    exact absurd hw (by decide)

/-- A string ends before anything. -/
theorem IsString.endsBefore (h : IsString w) (n : List Char) : EndsBefore w n := by
  obtain ⟨u, rfl⟩ := h.head
  exact .of_head (by decide) (by decide)

theorem IsString.replaces (hw : IsString w) (hu : IsString u) : Replaces w u := by
  refine ⟨hw.isSolid, fun n ↦ .inl ?_, fun {n} _ ↦ hw.endsBefore n⟩
  obtain ⟨w, rfl⟩ := hw.head
  obtain ⟨u, rfl⟩ := hu.head
  rfl

/-- A token among others can be replaced. -/
theorem Spells.replace (h : Spells (ts ++ t :: us) s r)
    (hsolid : ∀ t' ∈ ts ++ t :: us, IsSolid t'.text) (hw : Replaces w t.text) :
    Spells (ts ++ { t with text := w } :: us)
      (spelling (ts ++ { t with text := w } :: us) ++ r) r := by
  rw [List.forall_mem_append, List.forall_mem_cons] at hsolid
  obtain ⟨m, hts, hus⟩ := spells_append_iff.1 h
  obtain rfl := hus.eq_spelling
  obtain rfl := hts.eq_spelling
  obtain ⟨⟨hgap, hends⟩, hus⟩ := (spells_cons_iff hsolid.2.1).1 hus
  have hnew : Spells ({ t with text := w } :: us) (spelling ({ t with text := w } :: us) ++ r) r :=
    (spells_cons_iff hw.isSolid).2 ⟨⟨hgap, hw.endsBefore hends⟩, hus⟩
  have hold : Spells ts (spelling ts ++ (spelling ({ t with text := w } :: us) ++ r))
      (spelling ({ t with text := w } :: us) ++ r) := by
    -- the tokens before it see only how the text after them starts
    refine hts.of_startAlike hsolid.1 ?_
    rw [spelling_cons_append, spelling_cons_append]
    exact (hw.startAlike _).append _
  rw [spelling, List.flatMap_append, List.append_assoc, spells_append_iff]
  exact ⟨_, hold, hnew⟩

end GrammarExport.Syntax
