import GrammarExport.Proofs.Grammar.Conformance
import GrammarExport.Proofs.Reading.Gap
import GrammarExport.Proofs.Reading.Reader

/-!
# Tokens at the front of a text

`Lexeme.Leads t s r` says that the text `s` starts with the token `t` and goes on with `r`: the gap
of the token is the longest gap of `s`, and a word does not go on in `r`. `Spells ts s r` says the
same of several tokens. Every reader of tokens is characterized by these two relations, and so is
every reader that is put together from them: it succeeds on a text if and only if the text starts
with the tokens of what is read.

What may follow is often a matter of one character, the first one after the gap (`next?`).
-/

namespace GrammarExport.Syntax

variable {s m r : List Char} {c : Char} {t : Lexeme} {ts us : List Lexeme}

/-- The first character after the gap at the front of a text. -/
def next? (s : List Char) : Option Char := (Gap.split s).2.head?

/-- A text starts with a token and goes on with another text. -/
structure Lexeme.Leads (t : Lexeme) (s r : List Char) : Prop where
  split : Gap.split s = (t.gap, t.text ++ r)
  ends : ∀ c ∈ t.text.head?, startsWord c = true → ∀ d ∈ r.head?, inWord d = false

/-- A text starts with some tokens, one after the other, and goes on with another text. -/
def Spells : List Lexeme → List Char → List Char → Prop
  | [], s, r => s = r
  | t :: ts, s, r => ∃ m, t.Leads s m ∧ Spells ts m r

/-- A token that is not a word ends where it ends, whatever follows. -/
theorem Lexeme.Leads.of_split (h : Gap.split s = (t.gap, t.text ++ r))
    (ht : ∀ c ∈ t.text.head?, startsWord c = false) : t.Leads s r := by
  refine ⟨h, fun c hc hword ↦ ?_⟩
  rw [ht c hc] at hword
  exact absurd hword (by decide)

/-! ### Several tokens -/

/-- A text that starts with a token is the spelling of the token and what follows. -/
theorem Lexeme.Leads.eq_spelling (h : t.Leads s r) : s = t.spelling ++ r := by
  have hs := Gap.text_split s
  rw [h.split] at hs
  rw [Lexeme.spelling, List.append_assoc]
  exact hs.symm

/-- A text that starts with tokens is their spelling and what follows. -/
theorem Spells.eq_spelling (h : Spells ts s r) : s = spelling ts ++ r := by
  induction ts generalizing s with
  | nil => exact h
  | cons t ts ih =>
    obtain ⟨m, ht, hts⟩ := h
    rw [ht.eq_spelling, ih hts, spelling, spelling, List.flatMap_cons, List.append_assoc]

/-- Tokens can be spelled in two parts, the second where the first ends. -/
theorem spells_append_iff : Spells (ts ++ us) s r ↔ ∃ m, Spells ts s m ∧ Spells us m r := by
  induction ts generalizing s with
  | nil =>
    constructor
    · intro h
      exact ⟨s, rfl, h⟩
    · rintro ⟨m, rfl, h⟩
      exact h
  | cons t ts ih =>
    simp only [List.cons_append, Spells, ih]
    constructor
    · rintro ⟨m, ht, m', hts, hus⟩
      exact ⟨m', ⟨m, ht, hts⟩, hus⟩
    · rintro ⟨m', ⟨m, ht, hts⟩, hus⟩
      exact ⟨m, ht, m', hts, hus⟩

theorem spells_singleton_iff : Spells [t] s r ↔ t.Leads s r := by
  constructor
  · rintro ⟨m, ht, rfl⟩
    exact ht
  · intro h
    exact ⟨r, h, rfl⟩

theorem Spells.length_le (h : Spells ts s r) : r.length ≤ s.length := by
  rw [h.eq_spelling, List.length_append]
  exact Nat.le_add_left _ _

/-- To take a token off makes a text shorter. -/
theorem Lexeme.Leads.length_lt (h : t.Leads s r) (ht : t.text ≠ []) : r.length < s.length := by
  have hpos : 0 < t.text.length := List.length_pos_iff.2 ht
  rw [h.eq_spelling, Lexeme.spelling, List.length_append, List.length_append]
  omega

/-! ### The next character -/

/-- The first character after the gap is that of the token. -/
theorem Lexeme.Leads.next?_eq {w : List Char} (h : t.Leads s r) (ht : t.text = c :: w) :
    next? s = some c := by
  rw [next?, h.split, ht]
  rfl

theorem next?_eq_of_head (hc : Gap.startsWithGap (c :: s) = false) : next? (c :: s) = some c := by
  rw [next?, Gap.split_eq_self_iff.2 hc]
  rfl

/-- To look ahead for one character is to look at the first one after the gap. -/
theorem nextIs_singleton_iff : Token.nextIs [c] s = true ↔ next? s = some c := by
  rw [Token.nextIs, next?]
  rcases (Gap.split s).2 with - | ⟨d, u⟩
  · simp [dropPrefix?]
  · by_cases hcd : c = d
    · simp [dropPrefix?, hcd]
    · simp [dropPrefix?, hcd, Ne.symm hcd]

/-- A mark is not read where the next character is another than its first. -/
theorem mark_eq_none {w : List Char} (h : next? s ≠ some c) :
    Token.mark (c :: w) s = none := by
  rw [next?] at h
  rw [Token.mark]
  rcases hs : (Gap.split s).2 with - | ⟨d, u⟩
  · simp [hs, dropPrefix?]
  · have hcd : c ≠ d := by
      rintro rfl
      simp [hs] at h
    simp [hs, dropPrefix?, hcd]

/-! ### Character classes -/

/-- The places of letters and of the underscore, as far as they are needed. -/
theorem toNat_of_startsWord (h : startsWord c = true) : 65 ≤ c.toNat ∧ c.toNat ≤ 122 := by
  simp only [startsWord, Bool.or_eq_true, Bool.and_eq_true, decide_eq_true_eq, beq_iff_eq] at h
  rcases h with (⟨h₁, h₂⟩ | ⟨h₁, h₂⟩) | rfl
  · have hle : 97 ≤ c.toNat := h₁
    have hge : c.toNat ≤ 122 := h₂
    omega
  · have hle : 65 ≤ c.toNat := h₁
    have hge : c.toNat ≤ 90 := h₂
    omega
  · decide

theorem toNat_of_isDigit (h : isDigit c = true) : 48 ≤ c.toNat ∧ c.toNat ≤ 57 := by
  simp only [isDigit, Bool.and_eq_true, decide_eq_true_eq] at h
  exact h

theorem toNat_of_isBlank (h : isBlank c = true) : c.toNat ≤ 32 := by
  simp only [isBlank, Bool.or_eq_true, Bool.and_eq_true, decide_eq_true_eq, beq_iff_eq] at h
  rcases h with rfl | ⟨-, h⟩
  · decide
  · have hle : c.toNat ≤ 13 := h
    omega

theorem isDigit_eq_false_of_startsWord (h : startsWord c = true) : isDigit c = false := by
  rw [Bool.eq_false_iff]
  intro hd
  have h₁ := toNat_of_startsWord h
  have h₂ := toNat_of_isDigit hd
  omega

/-- A character with which a gap neither starts nor goes on. -/
theorem startsWithGap_eq_false (hc : 33 ≤ c.toNat) (hne : c ≠ '/') (s : List Char) :
    Gap.startsWithGap (c :: s) = false := by
  have hblank : isBlank c = false := by
    rw [Bool.eq_false_iff]
    intro hb
    have hle := toNat_of_isBlank hb
    omega
  cases s <;> simp_all [Gap.startsWithGap]

/-- A character that is no part of a gap is the next one if it comes first. -/
theorem next?_of_head {d : Char} (hd : d ∈ s.head?) (hge : 33 ≤ d.toNat) (hne : d ≠ '/') :
    next? s = some d := by
  obtain ⟨u, rfl⟩ := List.head?_eq_some_iff.1 hd
  exact next?_eq_of_head (startsWithGap_eq_false hge hne u)

/-- Digits end before a text whose next character is no digit. -/
theorem head_not_digit (h : next? s = some c) (hc : isDigit c = false) :
    ∀ d ∈ s.head?, isDigit d = false := by
  intro d hd
  rw [Bool.eq_false_iff]
  intro hdigit
  have hrange := toNat_of_isDigit hdigit
  have hne : d ≠ '/' := by
    rintro rfl
    exact absurd hdigit (by decide)
  rw [next?_of_head hd (by omega) hne] at h
  obtain rfl : d = c := by simpa using h
  rw [hc] at hdigit
  exact absurd hdigit (by decide)

/-! ### Cutting tokens off -/

/-- The token that a function cuts off after the gap, if the function is known. -/
theorem lexeme_eq_some_iff {cut : List Char → Option (List Char × List Char)}
    {P : List Char → List Char → Prop}
    (hcut : ∀ {s w r}, cut s = some (w, r) ↔ s = w ++ r ∧ P w r)
    (hends : ∀ {w r}, P w r → ∀ c ∈ w.head?, startsWord c = true →
      ∀ d ∈ r.head?, inWord d = false) :
    Token.lexeme cut s = some (t, r) ↔ t.Leads s r ∧ P t.text r := by
  rw [Token.lexeme]
  simp only [Option.map_eq_some_iff, Prod.exists, Prod.mk.injEq, hcut]
  constructor
  · rintro ⟨w, m, ⟨hs, hP⟩, rfl, rfl⟩
    exact ⟨⟨Prod.ext rfl hs, hends hP⟩, hP⟩
  · rintro ⟨h, hP⟩
    exact ⟨t.text, r, ⟨by rw [h.split], hP⟩, by rw [h.split], rfl⟩

/-- A run of characters is cut off where its characters end. -/
theorem cutRun_eq_some_iff {p q : Char → Bool} {w : List Char} :
    (if p c then some (c :: s.takeWhile q, s.dropWhile q) else none) = some (w, r) ↔
      c :: s = w ++ r ∧ (∃ u, w = c :: u ∧ p c = true ∧ ∀ d ∈ u, q d = true) ∧
        ∀ d ∈ r.head?, q d = false := by
  constructor
  · intro h
    split at h
    · rename_i hc
      simp only [Option.some.injEq, Prod.mk.injEq] at h
      obtain ⟨rfl, rfl⟩ := h
      refine ⟨?_, ⟨_, rfl, hc, fun d hd ↦ List.all_eq_true.1 List.all_takeWhile d hd⟩, ?_⟩
      · rw [List.cons_append, List.takeWhile_append_dropWhile]
      · intro d hd
        have hlast := List.head?_dropWhile_not q s
        rw [Option.mem_def.1 hd] at hlast
        exact hlast
    · simp at h
  · rintro ⟨hs, ⟨u, rfl, hc, hu⟩, hr⟩
    obtain rfl : s = u ++ r := List.tail_eq_of_cons_eq hs
    have htake : (u ++ r).takeWhile q = u := List.takeWhile_append_eq_left_iff.2 ⟨hu, hr⟩
    rw [if_pos hc, htake, List.dropWhile_append_of_takeWhile_eq htake]

/-! ### Words -/

theorem IsWord.head {w : List Char} (h : IsWord w) : ∃ c u, w = c :: u ∧ startsWord c = true := by
  obtain ⟨c, u, hw, hc, -⟩ := h
  exact ⟨c, u, hw, hc⟩

theorem IsWord.ne_nil {w : List Char} (h : IsWord w) : w ≠ [] := by
  obtain ⟨c, u, rfl, -⟩ := h
  exact List.cons_ne_nil c u

/-- The next character where a word stands is no mark. -/
theorem Lexeme.Leads.next?_ne (h : t.Leads s r) (ht : IsWord t.text)
    (hc : startsWord c = false) : next? s ≠ some c := by
  obtain ⟨d, u, htext, hd⟩ := ht.head
  rw [h.next?_eq htext]
  rintro ⟨⟩
  rw [hc] at hd
  exact absurd hd (by decide)

/-- The word that is cut off a text is the longest one: it does not go on after it. -/
theorem splitWord?_eq_some_iff {w : List Char} :
    splitWord? s = some (w, r) ↔
      s = w ++ r ∧ IsWord w ∧ ∀ d ∈ r.head?, inWord d = false := by
  rcases s with - | ⟨c, s⟩
  · constructor
    · intro h
      simp [splitWord?] at h
    · rintro ⟨hs, ⟨c, u, rfl, -⟩, -⟩
      simp at hs
  · rw [splitWord?, cutRun_eq_some_iff]
    constructor
    · rintro ⟨hs, ⟨u, rfl, hc, hu⟩, hr⟩
      exact ⟨hs, ⟨c, u, rfl, hc, hu⟩, hr⟩
    · rintro ⟨hs, ⟨d, u, rfl, hc, hu⟩, hr⟩
      obtain rfl : c = d := List.head_eq_of_cons_eq hs
      exact ⟨hs, ⟨u, rfl, hc, hu⟩, hr⟩

theorem word_eq_some_iff : Token.word s = some (t, r) ↔ t.Leads s r ∧ IsWord t.text := by
  rw [Token.word, lexeme_eq_some_iff splitWord?_eq_some_iff fun h _ _ _ ↦ h.2]
  constructor
  · rintro ⟨h, hw, -⟩
    exact ⟨h, hw⟩
  · rintro ⟨h, hw⟩
    obtain ⟨c, w, ht, hc⟩ := hw.head
    exact ⟨h, hw, h.ends c (by simp [ht]) hc⟩

/-- The word at the front of a text is determined. -/
theorem Lexeme.Leads.eq_of_isWord {t' : Lexeme} {r' : List Char} (h : t.Leads s r)
    (h' : t'.Leads s r') (hw : IsWord t.text) (hw' : IsWord t'.text) : t = t' ∧ r = r' := by
  have hread := word_eq_some_iff.2 ⟨h, hw⟩
  rw [word_eq_some_iff.2 ⟨h', hw'⟩] at hread
  simpa [eq_comm] using hread

/-- A word is found if it is at the front of a text and fulfils the condition. -/
theorem wordWhere_eq_some_iff {p : List Char → Bool} :
    Token.wordWhere p s = some (t, r) ↔ t.Leads s r ∧ IsWord t.text ∧ p t.text = true := by
  rw [Token.wordWhere, Reader.bind_eq_some_iff]
  constructor
  · rintro ⟨u, m, hu, h⟩
    split at h
    · rename_i hp
      obtain ⟨rfl, rfl⟩ := Reader.pure_eq_some_iff.1 h
      obtain ⟨hl, hw⟩ := word_eq_some_iff.1 hu
      exact ⟨hl, hw, hp⟩
    · exact absurd h (by simp [Reader.failure_eq_none])
  · rintro ⟨hl, hw, hp⟩
    refine ⟨t, r, word_eq_some_iff.2 ⟨hl, hw⟩, ?_⟩
    rw [if_pos hp]
    exact Reader.pure_eq_some_iff.2 ⟨rfl, rfl⟩

/-- A word outside of a list of words. -/
def Lexeme.FreeName (reserved : List String) (t : Lexeme) : Prop :=
  IsWord t.text ∧ ∀ w ∈ reserved, w.toList ≠ t.text

/-- One of some words is found if it is at the front of a text, as a whole word. -/
theorem oneOf_eq_some_iff {words : List String} :
    Token.oneOf words s = some (t, r) ↔
      t.Leads s r ∧ IsWord t.text ∧ ∃ w ∈ words, w.toList = t.text := by
  rw [Token.oneOf, wordWhere_eq_some_iff]
  simp only [List.any_eq_true, beq_iff_eq]

/-- A name is found if it is at the front of a text and is not reserved. -/
theorem name_eq_some_iff {reserved : List String} :
    Token.name reserved s = some (t, r) ↔ t.Leads s r ∧ t.FreeName reserved := by
  rw [Token.name, wordWhere_eq_some_iff, Lexeme.FreeName]
  simp only [Bool.not_eq_true', List.any_eq_false, beq_iff_eq, ne_eq]

/-- A name is none of the words that are no names. -/
theorem oneOf_eq_none_of_freeName {words : List String} (h : t.Leads s r)
    (ht : t.FreeName words) : Token.oneOf words s = none := by
  rcases ho : Token.oneOf words s with - | ⟨t', r'⟩
  · rfl
  · obtain ⟨h', hw, w, hmem, htext⟩ := oneOf_eq_some_iff.1 ho
    obtain ⟨rfl, -⟩ := h.eq_of_isWord h' ht.1 hw
    exact absurd htext (ht.2 w hmem)

/-- A keyword is found if it is at the front of a text, as a whole word. -/
theorem keyword_eq_some_iff {w : String} {g : Gap} (hw : IsWord w.toList) :
    Token.keyword w s = some (g, r) ↔ (Lexeme.mk g w.toList).Leads s r := by
  rw [Token.keyword, Reader.bind_eq_some_iff]
  constructor
  · rintro ⟨t, m, ht, h⟩
    obtain ⟨rfl, rfl⟩ := Reader.pure_eq_some_iff.1 h
    obtain ⟨hl, -, w', hw', htw⟩ := oneOf_eq_some_iff.1 ht
    rw [List.mem_singleton.1 hw'] at htw
    obtain ⟨gap, text⟩ := t
    exact htw ▸ hl
  · intro h
    exact ⟨⟨g, w.toList⟩, r, oneOf_eq_some_iff.2 ⟨h, hw, w, by simp, rfl⟩,
      Reader.pure_eq_some_iff.2 ⟨rfl, rfl⟩⟩

theorem leads_of_keyword {w : String} {g : Gap} (h : Token.keyword w s = some (g, r))
    (hw : IsWord w.toList) : (Lexeme.mk g w.toList).Leads s r :=
  (keyword_eq_some_iff hw).1 h

theorem Lexeme.Leads.keyword_eq {w : String} {g : Gap} (h : (Lexeme.mk g w.toList).Leads s r)
    (hw : IsWord w.toList) : Token.keyword w s = some (g, r) :=
  (keyword_eq_some_iff hw).2 h

/-- A keyword fails where a choice of this word alone fails. -/
theorem keyword_eq_none_iff {w : String} :
    Token.keyword w s = none ↔ Token.oneOf [w] s = none := by
  constructor
  · intro h
    rcases ho : Token.oneOf [w] s with - | ⟨t, m⟩
    · rfl
    · have hsome : Token.keyword w s = some (t.gap, m) :=
        Reader.bind_eq_some_iff.2 ⟨t, m, ho, Reader.pure_eq_some_iff.2 ⟨rfl, rfl⟩⟩
      exact absurd (h.symm.trans hsome) (by simp)
  · exact Reader.bind_eq_none_of_left

/-- A keyword fails at a name that may not be this word. -/
theorem keyword_eq_none_of_freeName {w : String} (h : t.Leads s r) (ht : t.FreeName [w]) :
    Token.keyword w s = none :=
  keyword_eq_none_iff.2 (oneOf_eq_none_of_freeName h ht)

/-- No word is read where the next character does not start one. -/
theorem wordWhere_eq_none {p : List Char → Bool}
    (h : ∀ c ∈ next? s, startsWord c = false) : Token.wordWhere p s = none := by
  rcases hw : Token.wordWhere p s with - | ⟨t, r⟩
  · rfl
  · obtain ⟨hl, hword, -⟩ := wordWhere_eq_some_iff.1 hw
    obtain ⟨c, w, ht, hc⟩ := hword.head
    have hfalse := h c (hl.next?_eq ht)
    rw [hc] at hfalse
    exact absurd hfalse (by decide)

/-! ### Marks -/

/-- A mark is found if it is at the front of a text; what follows does not matter. -/
theorem mark_eq_some_iff {w : List Char} {g : Gap} (hc : startsWord c = false) :
    Token.mark (c :: w) s = some (g, r) ↔ (Lexeme.mk g (c :: w)).Leads s r := by
  rw [Token.mark]
  simp only [Option.map_eq_some_iff, Prod.mk.injEq, dropPrefix?_eq_some_iff]
  constructor
  · rintro ⟨m, hs, rfl, rfl⟩
    refine .of_split (Prod.ext rfl hs) ?_
    simpa using hc
  · intro h
    exact ⟨r, by rw [h.split], by rw [h.split], rfl⟩

theorem leads_of_mark {w : List Char} {g : Gap} (h : Token.mark (c :: w) s = some (g, r))
    (hc : startsWord c = false) : (Lexeme.mk g (c :: w)).Leads s r :=
  (mark_eq_some_iff hc).1 h

theorem Lexeme.Leads.mark_eq {w : List Char} {g : Gap} (h : (Lexeme.mk g (c :: w)).Leads s r)
    (hc : startsWord c = false) : Token.mark (c :: w) s = some (g, r) :=
  (mark_eq_some_iff hc).2 h

end GrammarExport.Syntax
