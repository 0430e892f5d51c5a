import GrammarExport.Proofs.Reading.Pattern
import GrammarExport.Proofs.Reading.Valid

/-!
# Reading values

A value that is read is valid and stands in the text (`Value.sound_read`). Conversely a valid value
is read back from any text that starts with its tokens, if what follows can follow a value
(`Value.Valid.readWithin_eq`). The depth up to which values are read inside one another is no
limit: each level takes a brace off the text.
-/

namespace GrammarExport.Syntax

variable {s m r : List Char} {c : Char}

/-! ### What follows -/

/-- The next character is one of some characters. -/
def Follows (cs : List Char) (r : List Char) : Prop := ∃ c ∈ cs, next? r = some c

/-- What can follow a value or a literal. -/
def valueEnds : List Char := [',', '}', ')', ';', '+', '-', '*', '/']

theorem Follows.mono {cs cs' : List Char} (h : Follows cs r) (hsub : cs ⊆ cs') :
    Follows cs' r := by
  obtain ⟨c, hc, hr⟩ := h
  exact ⟨c, hsub hc, hr⟩

/-- The character that follows is one of those that may. -/
theorem Follows.next?_ne {cs : List Char} (h : Follows cs r) (hc : c ∉ cs) :
    next? r ≠ some c := by
  obtain ⟨d, hd, hr⟩ := h
  rw [hr]
  rintro ⟨⟩
  exact hc hd

/-- A number is complete before what can follow a value. -/
theorem Follows.head_not_digit (h : Follows valueEnds r) :
    ∀ d ∈ r.head?, isDigit d = false := by
  obtain ⟨c, hc, hr⟩ := h
  refine Syntax.head_not_digit hr ?_
  simp only [valueEnds, List.mem_cons, List.not_mem_nil, or_false] at hc
  rcases hc with rfl | rfl | rfl | rfl | rfl | rfl | rfl | rfl <;> decide

/-- What can follow a value is no fraction, so an integer before it stays an integer. -/
theorem Follows.splitFraction?_eq_none (h : Follows valueEnds r) : splitFraction? r = none := by
  rcases hf : splitFraction? r with - | ⟨w, m⟩
  · rfl
  · obtain ⟨rfl, ⟨ds, -, rfl⟩, -⟩ := splitFraction?_eq_some_iff.1 hf
    exact absurd (next?_of_head (d := '.') rfl (by decide) (by decide)) (h.next?_ne (by decide))

namespace Value

/-! ### Numbers, ranges and items of enumerations -/

/-- What the reader of numbers reads is one token: the digits before a point and those after it
belong together. -/
theorem sound_readNumber (lead : List String) : Sound readNumber tokens (Valid lead) := by
  intro s v r h
  rw [readNumber] at h
  rcases ht : Token.integer s with - | ⟨t, m⟩
  · simp [ht] at h
  · obtain ⟨hlead, hint, -⟩ := integer_eq_some_iff.1 ht
    rcases hf : splitFraction? m with - | ⟨fraction, m'⟩
    · simp only [ht, hf, Option.some.injEq, Prod.mk.injEq] at h
      obtain ⟨rfl, rfl⟩ := h
      exact ⟨spells_singleton_iff.2 hlead, .integer hint⟩
    · simp only [ht, hf, Option.some.injEq, Prod.mk.injEq] at h
      obtain ⟨rfl, rfl⟩ := h
      obtain ⟨rfl, ⟨ds, hds, rfl⟩, -⟩ := splitFraction?_eq_some_iff.1 hf
      refine ⟨spells_singleton_iff.2 (.of_split ?_ ?_), .double ⟨t.text, ds, hint, hds, rfl⟩⟩
      · rw [hlead.split, List.append_assoc]
      · obtain ⟨d, u, htext, -⟩ := hint.head
        simpa [htext] using hint.not_startsWord

/-- An integer is read back before what can follow a value. -/
theorem readNumber_integer {t : Lexeme} (ht : IsInteger t.text) (h : t.Leads s r)
    (hr : Follows valueEnds r) : readNumber s = some (.integer t, r) := by
  have hint : Token.integer s = some (t, r) := integer_eq_some_iff.2 ⟨h, ht, hr.head_not_digit⟩
  simp only [readNumber, hint, hr.splitFraction?_eq_none]

theorem readNumber_double {t : Lexeme} (ht : IsDouble t.text) (h : t.Leads s r)
    (hr : Follows valueEnds r) : readNumber s = some (.double t, r) := by
  obtain ⟨gap, text⟩ := t
  obtain ⟨n, ds, hn, hds, rfl⟩ := ht
  have hint : Token.integer s = some (⟨gap, n⟩, '.' :: ds ++ r) := by
    refine integer_eq_some_iff.2 ⟨.of_split ?_ hn.not_startsWord, hn, ?_⟩
    · rw [h.split, List.append_assoc]
    · simpa using (by decide : isDigit '.' = false)
  have hfraction : splitFraction? ('.' :: ds ++ r) = some ('.' :: ds, r) :=
    splitFraction?_eq_some_iff.2 ⟨rfl, ⟨ds, hds, rfl⟩, hr.head_not_digit⟩
  simp only [readNumber, hint, hfraction]

theorem sound_readRange (lead : List String) : Sound readRange tokens (Valid lead) := by
  intro s v r h
  simp only [readRange, Reader.bind_eq_some_iff, Reader.pure_eq_some_iff] at h
  obtain ⟨opening, m₁, h₁, low, m₂, h₂, slash, m₃, h₃, high, m₄, h₄, closing, m₅, h₅, rfl, rfl⟩ := h
  obtain ⟨hlow, hlowInt, -⟩ := integer_eq_some_iff.1 h₂
  obtain ⟨hhigh, hhighInt, -⟩ := integer_eq_some_iff.1 h₄
  refine ⟨?_, .range hlowInt hhighInt⟩
  rw [tokens_range]
  exact ⟨m₁, leads_of_mark h₁ rfl, m₂, hlow, m₃,
    leads_of_mark h₃ rfl, m₄, hhigh, m₅, leads_of_mark h₅ rfl, rfl⟩

theorem readRange_eq_some {opening slash closing : Gap} {low high : Lexeme}
    (hlow : IsInteger low.text) (hhigh : IsInteger high.text)
    (h : Spells (range opening low slash high closing).tokens s r) :
    readRange s = some (range opening low slash high closing, r) := by
  rw [tokens_range] at h
  obtain ⟨m₁, h₁, m₂, h₂, m₃, h₃, m₄, h₄, m₅, h₅, rfl⟩ := h
  simp only [readRange, Reader.bind_eq_some_iff, Reader.pure_eq_some_iff]
  exact ⟨opening, m₁, h₁.mark_eq rfl,
    low, m₂, integer_eq_some_iff.2 ⟨h₂, hlow, head_not_digit (h₃.next?_eq rfl) (by decide)⟩,
    slash, m₃, h₃.mark_eq rfl,
    high, m₄, integer_eq_some_iff.2 ⟨h₄, hhigh, head_not_digit (h₅.next?_eq rfl) (by decide)⟩,
    closing, m₅, h₅.mark_eq rfl, rfl, rfl⟩

theorem readEnumItem_eq_some_iff {v : Value} :
    readEnumItem s = some (v, r) ↔
      ∃ type dot item, v = .enumItem type dot item ∧ type.FreeName booleanWords ∧
        item.FreeName [] ∧ Spells (enumItem type dot item).tokens s r := by
  simp only [readEnumItem, Reader.bind_eq_some_iff, Reader.pure_eq_some_iff, name_eq_some_iff,
    tokens_enumItem]
  constructor
  · rintro ⟨type, m₁, ⟨h₁, htype⟩, dot, m₂, h₂, item, m₃, ⟨h₃, hitem⟩, rfl, rfl⟩
    exact ⟨type, dot, item, rfl, htype, hitem, m₁, h₁, m₂, leads_of_mark h₂ rfl, m₃,
      h₃, rfl⟩
  · rintro ⟨type, dot, item, rfl, htype, hitem, m₁, h₁, m₂, h₂, m₃, h₃, rfl⟩
    exact ⟨type, m₁, ⟨h₁, htype⟩, dot, m₂, h₂.mark_eq rfl, item, m₃,
      ⟨h₃, hitem⟩, rfl, rfl⟩

/-! ### Fields -/

/-- What the reader of fields reads is the tokens of one, if the same holds of the values inside
it. -/
theorem sound_readField {inner : Reader Value} (hin : Sound inner tokens (Valid booleanWords)) :
    Sound (readField inner) entryTokens
      fun f ↦ f.key.FreeName [] ∧ f.value.Valid booleanWords := by
  intro s f r h
  simp only [readField, Reader.bind_eq_some_iff, Reader.pure_eq_some_iff, name_eq_some_iff] at h
  obtain ⟨key, m₁, ⟨h₁, hkey⟩, colon, m₂, h₂, v, m₃, h₃, rfl, rfl⟩ := h
  obtain ⟨hspell, hv⟩ := hin h₃
  exact ⟨⟨m₁, h₁, m₂, leads_of_mark h₂ rfl, hspell⟩, hkey, hv⟩

/-- A field lies ahead if there is a name and then a colon. -/
theorem fieldAhead_eq_true_iff :
    fieldAhead s = true ↔
      ∃ (t : Lexeme) (m : List Char),
        t.Leads s m ∧ t.FreeName booleanWords ∧ next? m = some ':' := by
  rw [fieldAhead]
  rcases h : Token.name booleanWords s with - | ⟨t, m⟩
  · simp only [Bool.false_eq_true, false_iff]
    rintro ⟨t, m, ht, hname, -⟩
    rw [name_eq_some_iff.2 ⟨ht, hname⟩] at h
    exact absurd h (by simp)
  · obtain ⟨ht, hname⟩ := name_eq_some_iff.1 h
    simp only [nextIs_singleton_iff]
    constructor
    · intro hnext
      exact ⟨t, m, ht, hname, hnext⟩
    · rintro ⟨t', m', ht', hname', hnext⟩
      obtain ⟨-, rfl⟩ := ht.eq_of_isWord ht' hname.1 hname'.1
      exact hnext

/-- No field lies ahead where there is no word. -/
theorem fieldAhead_eq_false_of_next? (h : next? s = some c) (hc : startsWord c = false) :
    fieldAhead s = false := by
  rw [Bool.eq_false_iff, ne_eq, fieldAhead_eq_true_iff]
  rintro ⟨t, m, ht, hname, -⟩
  exact ht.next?_ne hname.1 hc h

/-! ### How values start -/

/-- The characters that a value can start with. -/
def Starts : Value → Char → Prop
  | integer _, c | double _, c => isDigit c = true ∨ c = '-'
  | boolean _, c | enumItem .., c => startsWord c = true
  | string _, c => c = '"'
  | range .., c => c = '['
  | array .., c | record .., c => c = '{'

theorem Valid.exists_next {lead : List String} {v : Value} (hv : v.Valid lead)
    (h : Spells v.tokens s r) : ∃ c, next? s = some c ∧ v.Starts c := by
  cases hv with
  | integer ht =>
    obtain ⟨c, u, htext, hc⟩ := ht.head
    exact ⟨c, (spells_singleton_iff.1 h).next?_eq htext, hc⟩
  | double ht =>
    obtain ⟨n, ds, hn, -, htext⟩ := ht
    obtain ⟨c, u, rfl, hc⟩ := hn.head
    exact ⟨c, (spells_singleton_iff.1 h).next?_eq htext, hc⟩
  | boolean ht =>
    obtain ⟨c, u, htext, hc⟩ := (ht.isWord (by decide)).head
    exact ⟨c, (spells_singleton_iff.1 h).next?_eq htext, hc⟩
  | string ht =>
    obtain ⟨u, htext, -⟩ := isString_iff.1 ht
    exact ⟨'"', (spells_singleton_iff.1 h).next?_eq htext, rfl⟩
  | range =>
    rw [tokens_range] at h
    obtain ⟨m, hlead, -⟩ := h
    exact ⟨'[', hlead.next?_eq rfl, rfl⟩
  | enumItem htype =>
    rw [tokens_enumItem] at h
    obtain ⟨m, hlead, -⟩ := h
    obtain ⟨c, u, htext, hc⟩ := htype.1.head
    exact ⟨c, hlead.next?_eq htext, hc⟩
  | array =>
    rw [tokens_array] at h
    obtain ⟨m, hlead, -⟩ := h
    exact ⟨'{', hlead.next?_eq rfl, rfl⟩
  | record =>
    rw [tokens_record] at h
    obtain ⟨m, hlead, -⟩ := h
    exact ⟨'{', hlead.next?_eq rfl, rfl⟩

/-- A value is valid where more words are taken, if none of them is read there. -/
theorem Valid.of_oneOf_eq_none {lead lead' words : List String} {v : Value} (hv : v.Valid lead)
    (h : Spells v.tokens s r) (hnone : Token.oneOf words s = none)
    (hsub : lead' ⊆ words ++ lead) : v.Valid lead' := by
  cases hv with
  | integer ht => exact .integer ht
  | double ht => exact .double ht
  | boolean ht => exact .boolean ht
  | string ht hnul => exact .string ht hnul
  | range hlow hhigh => exact .range hlow hhigh
  | enumItem htype hitem =>
    rw [tokens_enumItem] at h
    obtain ⟨m, hlead, -⟩ := h
    exact .enumItem (htype.of_oneOf_eq_none hlead hnone hsub) hitem
  | array hitems => exact .array hitems
  | record hfirst hname hkeys hvalues => exact .record hfirst hname hkeys hvalues

/-- A value that starts with a word is a boolean or an item of an enumeration. -/
theorem Starts.of_word {v : Value} (h : v.Starts c) (hc : startsWord c = true) :
    (∃ t, v = boolean t) ∨ ∃ type dot item, v = enumItem type dot item := by
  cases v with
  | boolean t => exact .inl ⟨t, rfl⟩
  | enumItem type dot item => exact .inr ⟨type, dot, item, rfl⟩
  | integer | double =>
    rw [not_startsWord_of_number h] at hc
    exact absurd hc (by decide)
  | string | range | array | record =>
    obtain rfl : c = _ := h
    exact absurd hc (by decide)

/-- A value does not start with a word that is taken. -/
theorem Valid.oneOf_eq_none {lead words : List String} {v : Value} (hv : v.Valid lead)
    (h : Spells v.tokens s r) (hsub : words ⊆ lead) (hbool : ∀ w ∈ words, w ∉ booleanWords) :
    Token.oneOf words s = none := by
  obtain ⟨c, hnext, hstarts⟩ := hv.exists_next h
  by_cases hc : startsWord c = true
  · rcases hstarts.of_word hc with ⟨t, rfl⟩ | ⟨type, dot, item, rfl⟩
    · cases hv with
      | boolean ht =>
        refine oneOf_eq_none_of_freeName (spells_singleton_iff.1 h) ⟨ht.isWord (by decide), ?_⟩
        obtain ⟨b, hb, htext⟩ := ht
        intro w hw hwt
        rw [← htext, String.toList_inj] at hwt
        exact hbool w hw (hwt ▸ hb)
    · cases hv with
      | enumItem htype =>
        rw [tokens_enumItem] at h
        obtain ⟨m, hlead, -⟩ := h
        exact oneOf_eq_none_of_freeName hlead (htype.mono hsub)
  · exact wordWhere_eq_none (by simpa [hnext] using hc)

/-- An item of an array is not mistaken for the name of a field: a name is followed by a point. -/
theorem Valid.fieldAhead_eq_false {v : Value} (hv : v.Valid booleanWords)
    (h : Spells v.tokens s r) : fieldAhead s = false := by
  rw [Bool.eq_false_iff, ne_eq, fieldAhead_eq_true_iff]
  rintro ⟨t, m, ht, hname, hcolon⟩
  obtain ⟨c, u, htext, hc⟩ := hname.1.head
  obtain ⟨d, hnext, hstarts⟩ := hv.exists_next h
  rw [ht.next?_eq htext] at hnext
  obtain rfl : c = d := by simpa using hnext
  -- a name comes first, so the value can only be a boolean or an item of an enumeration
  rcases hstarts.of_word hc with ⟨t', rfl⟩ | ⟨type, dot, item, rfl⟩
  · cases hv with
    | boolean hbool =>
      obtain ⟨rfl, -⟩ :=
        ht.eq_of_isWord (spells_singleton_iff.1 h) hname.1 (hbool.isWord (by decide))
      exact hbool.not_freeName (List.Subset.refl _) hname
  · cases hv with
    | enumItem htype =>
      rw [tokens_enumItem] at h
      obtain ⟨m', hlead, m'', hdot, -⟩ := h
      obtain ⟨-, rfl⟩ := ht.eq_of_isWord hlead hname.1 htype.1
      rw [hdot.next?_eq rfl] at hcolon
      exact absurd hcolon (by decide)

/-! ### Braces -/

/-- What stands first in braces decides between fields and items. -/
theorem readBraces_eq_some_iff {inner : Reader Value} {v : Value} :
    readBraces inner s = some (v, r) ↔
      ∃ opening m₁ m₂ closing, (Lexeme.mk opening ['{']).Leads s m₁ ∧
        (Lexeme.mk closing ['}']).Leads m₂ r ∧
        ((fieldAhead m₁ = true ∧ ∃ entries, v = .record opening entries closing ∧
            CommaList.read ['}'] true (readField inner) true m₁ = some (entries, m₂)) ∨
          fieldAhead m₁ = false ∧ ∃ items, v = .array opening items closing ∧
            CommaList.read ['}'] true inner true m₁ = some (items, m₂)) := by
  simp only [readBraces, Reader.bind_eq_some_iff, Reader.get_eq_some_iff]
  constructor
  · rintro ⟨opening, m₁, h₁, _, _, ⟨rfl, rfl⟩, h⟩
    split at h
    · rename_i hahead
      simp only [Reader.bind_eq_some_iff, Reader.pure_eq_some_iff] at h
      obtain ⟨entries, m₂, h₂, closing, m₃, h₃, rfl, rfl⟩ := h
      exact ⟨opening, m₁, m₂, closing, leads_of_mark h₁ rfl, leads_of_mark h₃ rfl,
        .inl ⟨hahead, entries, rfl, h₂⟩⟩
    · rename_i hahead
      simp only [Reader.bind_eq_some_iff, Reader.pure_eq_some_iff] at h
      obtain ⟨items, m₂, h₂, closing, m₃, h₃, rfl, rfl⟩ := h
      exact ⟨opening, m₁, m₂, closing, leads_of_mark h₁ rfl, leads_of_mark h₃ rfl,
        .inr ⟨Bool.eq_false_iff.2 hahead, items, rfl, h₂⟩⟩
  · rintro ⟨opening, m₁, m₂, closing, h₁, h₃, h⟩
    refine ⟨opening, m₁, h₁.mark_eq rfl, m₁, m₁, ⟨rfl, rfl⟩, ?_⟩
    rcases h with ⟨hahead, entries, rfl, h₂⟩ | ⟨hahead, items, rfl, h₂⟩
    · rw [if_pos hahead]
      simp only [Reader.bind_eq_some_iff, Reader.pure_eq_some_iff]
      exact ⟨entries, m₂, h₂, closing, r, h₃.mark_eq rfl, rfl, rfl⟩
    · rw [if_neg (by simp [hahead])]
      simp only [Reader.bind_eq_some_iff, Reader.pure_eq_some_iff]
      exact ⟨items, m₂, h₂, closing, r, h₃.mark_eq rfl, rfl, rfl⟩

/-- What is read in braces is an array or a record, with the tokens that were there, if the same
holds of the values inside it. -/
theorem sound_readBraces {inner : Reader Value} (hin : Sound inner tokens (Valid booleanWords))
    (lead : List String) : Sound (readBraces inner) tokens (Valid lead) := by
  intro s v r h
  obtain ⟨opening, m₁, m₂, closing, h₁, h₃, h⟩ := readBraces_eq_some_iff.1 h
  rcases h with ⟨hahead, entries, rfl, h₂⟩ | ⟨-, items, rfl, h₂⟩
  · obtain ⟨hspells, hentries, -⟩ := (sound_readField hin).commaList h₂
    obtain ⟨t, m, ht, hname, -⟩ := fieldAhead_eq_true_iff.1 hahead
    -- a name comes first, so the list has a first field, and its key is that name
    have hopen : Token.nextIs ['}'] m₁ = false := by
      rw [Bool.eq_false_iff, ne_eq, nextIs_singleton_iff]
      exact ht.next?_ne hname.1 rfl
    obtain ⟨first, m', hfirst, hread⟩ := CommaList.exists_head_of_read h₂ hopen
    obtain ⟨⟨m'', hkey, -⟩, hkeyName, -⟩ := sound_readField hin hread
    obtain ⟨rfl, -⟩ := ht.eq_of_isWord hkey hname.1 hkeyName.1
    refine ⟨?_, .record hfirst hname (fun f hf ↦ (hentries f hf).1) fun f hf ↦ (hentries f hf).2⟩
    rw [tokens_record]
    exact ⟨m₁, h₁, spells_append_iff.2 ⟨m₂, hspells, r, h₃, rfl⟩⟩
  · obtain ⟨hspells, hitems, -⟩ := hin.commaList h₂
    refine ⟨?_, .array hitems⟩
    rw [tokens_array]
    exact ⟨m₁, h₁, spells_append_iff.2 ⟨m₂, hspells, r, h₃, rfl⟩⟩

/-- What can follow an item in braces can follow a value. -/
theorem follows_of_brace (h : next? r = some ',' ∨ next? r = some '}') : Follows valueEnds r := by
  rcases h with h | h
  · exact ⟨',', by decide, h⟩
  · exact ⟨'}', by decide, h⟩

/-- An array is read back, if its items are: its first item does not look like a field. -/
theorem readBraces_array {inner : Reader Value} {opening closing : Gap} {items : CommaList Value}
    (hitems : ∀ v ∈ items.toList, v.Valid booleanWords)
    (hread : ∀ v ∈ items.toList, ∀ {u w}, u.length < s.length → r.length < w.length →
      Spells v.tokens u w → Follows valueEnds w → inner u = some (v, w))
    (h : Spells (array opening items closing).tokens s r) :
    readBraces inner s = some (array opening items closing, r) := by
  rw [tokens_array] at h
  obtain ⟨m₁, h₁, h⟩ := h
  obtain ⟨m₂, h₂, m₃, h₃, rfl⟩ := spells_append_iff.1 h
  have hahead : fieldAhead m₁ = false := by
    rcases hfirst : items.toList.head? with - | v
    -- nothing between the braces: the closing brace is no name
    · obtain rfl : m₁ = m₂ := CommaList.eq_of_spells_of_head?_eq_none hfirst h₂
      exact fieldAhead_eq_false_of_next? (h₃.next?_eq rfl) (by decide)
    · obtain ⟨m, hv⟩ := CommaList.exists_spells_of_head?_eq_some hfirst h₂
      exact (hitems v (List.mem_of_head? hfirst)).fieldAhead_eq_false hv
  have hlt₁ : m₁.length < s.length := h₁.length_lt (by simp)
  have hlt₂ : m₃.length < m₂.length := h₃.length_lt (by simp)
  have hlist : CommaList.read ['}'] true inner true m₁ = some (items, m₂) := by
    refine commaList_read_eq_some (by decide) ?_ ?_ items.ends_true (h₃.next?_eq rfl) h₂
    · intro v hv u w hu hw hspell hfollow
      exact hread v hv (by omega) (by omega) hspell (follows_of_brace hfollow)
    · intro v hv u w hspell
      obtain ⟨c, hc, hstarts⟩ := (hitems v hv).exists_next hspell
      rw [hc]
      rintro ⟨⟩
      cases v <;> exact absurd hstarts (by simp only [Starts]; decide)
  exact readBraces_eq_some_iff.2
    ⟨opening, m₁, m₂, closing, h₁, h₃, .inr ⟨hahead, items, rfl, hlist⟩⟩

/-- A field is read back, if its value is. -/
theorem readField_eq_some {inner : Reader Value} {f : Field Value} (hkey : f.key.FreeName [])
    (hread : ∀ {u}, u.length < s.length → Spells f.value.tokens u r → inner u = some (f.value, r))
    (h : Spells (entryTokens f) s r) : readField inner s = some (f, r) := by
  obtain ⟨m₁, h₁, m₂, h₂, hvalue⟩ := h
  have hlt₁ : m₁.length < s.length := h₁.length_lt hkey.1.ne_nil
  have hlt₂ : m₂.length < m₁.length := h₂.length_lt (by simp)
  simp only [readField, Reader.bind_eq_some_iff, Reader.pure_eq_some_iff]
  exact ⟨f.key, m₁, name_eq_some_iff.2 ⟨h₁, hkey⟩, f.colon, m₂, h₂.mark_eq rfl, f.value, r,
    hread (by omega) hvalue, rfl, rfl⟩

/-- A record is read back, if the values in it are: its first entry looks like a field. -/
theorem readBraces_record {inner : Reader Value} {opening closing : Gap}
    {entries : CommaList (Field Value)} {first : Field Value}
    (hfirst : entries.toList.head? = some first) (hname : first.key.FreeName booleanWords)
    (hkeys : ∀ f ∈ entries.toList, f.key.FreeName [])
    (hread : ∀ f ∈ entries.toList, ∀ {u w}, u.length < s.length → r.length < w.length →
      Spells f.value.tokens u w → Follows valueEnds w → inner u = some (f.value, w))
    (h : Spells (record opening entries closing).tokens s r) :
    readBraces inner s = some (record opening entries closing, r) := by
  rw [tokens_record] at h
  obtain ⟨m₁, h₁, h⟩ := h
  obtain ⟨m₂, h₂, m₃, h₃, rfl⟩ := spells_append_iff.1 h
  have hahead : fieldAhead m₁ = true := by
    obtain ⟨m, m', hkey, m'', hcolon, -⟩ := CommaList.exists_spells_of_head?_eq_some hfirst h₂
    exact fieldAhead_eq_true_iff.2 ⟨first.key, m', hkey, hname, hcolon.next?_eq rfl⟩
  have hlt₁ : m₁.length < s.length := h₁.length_lt (by simp)
  have hlt₂ : m₃.length < m₂.length := h₃.length_lt (by simp)
  have hlist : CommaList.read ['}'] true (readField inner) true m₁ = some (entries, m₂) := by
    refine commaList_read_eq_some (by decide) ?_ ?_ entries.ends_true (h₃.next?_eq rfl) h₂
    · intro f hf u w hu hw hspell hfollow
      refine readField_eq_some (hkeys f hf) (fun hlt hvalue ↦ ?_) hspell
      exact hread f hf (by omega) (by omega) hvalue (follows_of_brace hfollow)
    · rintro f hf u w ⟨n₁, hkey, -⟩
      exact hkey.next?_ne (hkeys f hf).1 rfl
  exact readBraces_eq_some_iff.2
    ⟨opening, m₁, m₂, closing, h₁, h₃, .inl ⟨hahead, entries, rfl, hlist⟩⟩

/-! ### Values -/

/-- The next character decides which kind of value is read. -/
theorem readAround_eq (inner : Reader Value) (h : next? s = some c) :
    readAround inner s =
      if c = '"' then (Value.string <$> Token.string) s
      else if c = '[' then readRange s
      else if c = '{' then readBraces inner s
      else if startsWord c then
        match Token.oneOf booleanWords s with
        | some (t, r) => some (.boolean t, r)
        | none => readEnumItem s
      else readNumber s := by
  obtain ⟨u, hu⟩ := List.head?_eq_some_iff.1 h
  rewrite [readAround, hu]
  rfl

/-- What is read around values is the tokens of a value, if the same holds of the values inside
it. -/
theorem sound_readAround {inner : Reader Value} (hin : Sound inner tokens (Valid booleanWords)) :
    Sound (readAround inner) tokens (Valid booleanWords) := by
  intro s v r h
  rcases hnext : next? s with - | c
  · rw [next?, List.head?_eq_none_iff] at hnext
    simp [readAround, hnext] at h
  · rw [readAround_eq inner hnext] at h
    split at h
    · obtain ⟨t, ht, rfl⟩ := Reader.map_eq_some_iff.1 h
      obtain ⟨hlead, hstring, hnul⟩ := string_eq_some_iff.1 ht
      exact ⟨by simpa using spells_singleton_iff.2 hlead, .string hstring hnul⟩
    · split at h
      · exact sound_readRange _ h
      · split at h
        · exact sound_readBraces hin _ h
        · split at h
          · rcases hbool : Token.oneOf booleanWords s with - | ⟨t, m⟩
            · simp only [hbool] at h
              obtain ⟨type, dot, item, rfl, htype, hitem, hspell⟩ :=
                readEnumItem_eq_some_iff.1 h
              exact ⟨hspell, .enumItem htype hitem⟩
            · simp only [hbool, Option.some.injEq, Prod.mk.injEq] at h
              obtain ⟨rfl, rfl⟩ := h
              obtain ⟨hlead, -, hword⟩ := oneOf_eq_some_iff.1 hbool
              exact ⟨by simpa using spells_singleton_iff.2 hlead, .boolean hword⟩
          · exact sound_readNumber _ h

theorem sound_readWithin (depth : Nat) : Sound (readWithin depth) tokens (Valid booleanWords) := by
  induction depth with
  | zero =>
    refine sound_readAround ?_
    intro s v r h
    exact absurd h (by simp [Reader.failure_eq_none])
  | succ depth ih => exact sound_readAround ih

theorem sound_read : Sound read tokens (Valid booleanWords) := by
  intro s v r h
  exact sound_readWithin s.length h

theorem exists_readAround (depth : Nat) : ∃ inner, readWithin depth = readAround inner := by
  cases depth with
  | zero => exact ⟨_, rfl⟩
  | succ depth => exact ⟨_, rfl⟩

theorem readAround_number (inner : Reader Value) (h : next? s = some c)
    (hc : isDigit c = true ∨ c = '-') : readAround inner s = readNumber s := by
  have hmark : c ≠ '"' ∧ c ≠ '[' ∧ c ≠ '{' := by
    refine ⟨?_, ?_, ?_⟩ <;> rintro rfl <;> exact absurd hc (by decide)
  rw [readAround_eq inner h, if_neg hmark.1, if_neg hmark.2.1, if_neg hmark.2.2,
    if_neg (by simp [not_startsWord_of_number hc])]

/-- Where a word starts, a truth value is read, or else an item of an enumeration. -/
theorem readAround_word (inner : Reader Value) (h : next? s = some c)
    (hc : startsWord c = true) :
    readAround inner s =
      match Token.oneOf booleanWords s with
      | some (t, r) => some (.boolean t, r)
      | none => readEnumItem s := by
  have hmark : c ≠ '"' ∧ c ≠ '[' ∧ c ≠ '{' := by
    refine ⟨?_, ?_, ?_⟩ <;> rintro rfl <;> exact absurd hc (by decide)
  rw [readAround_eq inner h, if_neg hmark.1, if_neg hmark.2.1, if_neg hmark.2.2, if_pos hc]

/-- Where a brace opens, an array or a record is read. -/
theorem readAround_brace (inner : Reader Value) (h : next? s = some '{') :
    readAround inner s = readBraces inner s := by
  rw [readAround_eq inner h, if_neg (by decide), if_neg (by decide), if_pos rfl]

/-- A valid value is read back, at a depth that grows with its length. -/
theorem Valid.readWithin_eq {lead : List String} {v : Value} (hv : v.Valid lead)
    (hlead : booleanWords ⊆ lead) {depth : Nat} (hdepth : s.length ≤ depth + r.length)
    (h : Spells v.tokens s r) (hr : Follows valueEnds r) :
    readWithin depth s = some (v, r) := by
  induction hv generalizing s r depth with
  | integer ht =>
    obtain ⟨inner, hinner⟩ := exists_readAround depth
    obtain ⟨c, u, htext, hc⟩ := ht.head
    have hl := spells_singleton_iff.1 h
    rw [hinner, readAround_number inner (hl.next?_eq htext) hc]
    exact readNumber_integer ht hl hr
  | double ht =>
    obtain ⟨inner, hinner⟩ := exists_readAround depth
    obtain ⟨n, ds, hn, -, htext⟩ := id ht
    obtain ⟨c, u, rfl, hc⟩ := hn.head
    have hl := spells_singleton_iff.1 h
    rw [hinner, readAround_number inner (hl.next?_eq htext) hc]
    exact readNumber_double ht hl hr
  | boolean ht =>
    obtain ⟨inner, hinner⟩ := exists_readAround depth
    have hword := ht.isWord (by decide)
    obtain ⟨c, u, htext, hc⟩ := hword.head
    have hl := spells_singleton_iff.1 h
    rw [hinner, readAround_word inner (hl.next?_eq htext) hc, oneOf_eq_some_iff.2 ⟨hl, hword, ht⟩]
  | string ht hnul =>
    obtain ⟨inner, hinner⟩ := exists_readAround depth
    obtain ⟨u, htext, -⟩ := isString_iff.1 ht
    have hl := spells_singleton_iff.1 h
    rw [hinner, readAround_eq inner (hl.next?_eq htext), if_pos rfl]
    exact Reader.map_eq_some_iff.2 ⟨_, string_eq_some_iff.2 ⟨hl, ht, hnul⟩, rfl⟩
  | range hlow hhigh =>
    obtain ⟨inner, hinner⟩ := exists_readAround depth
    have hspell := h
    rw [tokens_range] at h
    obtain ⟨m, hl, -⟩ := h
    rw [hinner, readAround_eq inner (hl.next?_eq rfl), if_neg (by decide), if_pos rfl]
    exact readRange_eq_some hlow hhigh hspell
  | @enumItem lead type item dot htype hitem =>
    obtain ⟨inner, hinner⟩ := exists_readAround depth
    have hspell := h
    rw [tokens_enumItem] at h
    obtain ⟨m, hl, -⟩ := h
    obtain ⟨c, u, htext, hc⟩ := htype.1.head
    have hfree := htype.mono hlead
    have hbool : Token.oneOf booleanWords s = none := oneOf_eq_none_of_freeName hl hfree
    rw [hinner, readAround_word inner (hl.next?_eq htext) hc, hbool]
    exact readEnumItem_eq_some_iff.2 ⟨type, dot, item, rfl, hfree, hitem, hspell⟩
  | @array lead opening closing items hitems ih =>
    have hspell := h
    rw [tokens_array] at h
    obtain ⟨m, hl, htail⟩ := h
    have hlt := hl.length_lt (by simp)
    have hle := htail.length_le
    -- the opening brace makes up for one level
    cases depth with
    | zero => omega
    | succ depth =>
      rw [readWithin, readAround_brace _ (hl.next?_eq rfl)]
      refine readBraces_array hitems ?_ hspell
      intro v hv u w hu hw hitem hfollow
      exact ih v hv (List.Subset.refl _) (by omega) hitem hfollow
  | @record lead opening closing entries first hfirst hname hkeys hvalues ih =>
    have hspell := h
    rw [tokens_record] at h
    obtain ⟨m, hl, htail⟩ := h
    have hlt := hl.length_lt (by simp)
    have hle := htail.length_le
    cases depth with
    | zero => omega
    | succ depth =>
      rw [readWithin, readAround_brace _ (hl.next?_eq rfl)]
      refine readBraces_record hfirst hname hkeys ?_ hspell
      intro f hf u w hu hw hvalue hfollow
      exact ih f hf (List.Subset.refl _) (by omega) hvalue hfollow

/-- A valid value is read back from the texts that spell it, where at least the words for truth
values are taken. -/
theorem Valid.read_eq {lead : List String} {v : Value} (hv : v.Valid lead)
    (hlead : booleanWords ⊆ lead) (h : Spells v.tokens s r) (hr : Follows valueEnds r) :
    read s = some (v, r) :=
  hv.readWithin_eq hlead (Nat.le_add_right _ _) h hr

end Value

end GrammarExport.Syntax
