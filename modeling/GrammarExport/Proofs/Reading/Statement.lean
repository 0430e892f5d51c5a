import GrammarExport.Proofs.Reading.Expression
import GrammarExport.Proofs.Reading.TypeName

/-!
# Reading statements

A statement that is read is valid and stands in the text (`Statement.sound_read`). A valid
statement is read back where nothing follows that would prolong it (`Statement.Valid.read_eq`); only
a function declaration depends on that, since it has no terminator. A row of statements is read back
where, besides, no other one starts (`Statement.many_read_eq`).
-/

namespace GrammarExport.Syntax

variable {s m r : List Char} {c : Char}

/-- The reader of names reads one token, which is a name. -/
theorem sound_name (reserved : List String) :
    Sound (Token.name reserved) (fun t ↦ [t]) (Lexeme.FreeName reserved) := by
  intro s t r h
  obtain ⟨hlead, hname⟩ := name_eq_some_iff.1 h
  exact ⟨spells_singleton_iff.2 hlead, hname⟩

theorem sound_string : Sound Token.string (fun t ↦ [t]) Lexeme.IsText := by
  intro s t r h
  obtain ⟨hlead, htext⟩ := string_eq_some_iff.1 h
  exact ⟨spells_singleton_iff.2 hlead, htext⟩

namespace Statement

/-! ### Coherence checks and views -/

/-- Coherence checks are read from the texts that spell them. Nothing in them is optional, so one
statement says both directions. -/
theorem readCoherenceCheck_eq_some_iff {t : Statement} :
    readCoherenceCheck s = some (t, r) ↔
      ∃ keyword name semicolon, t = .coherenceCheck keyword name semicolon ∧ name.FreeName [] ∧
        Spells (coherenceCheck keyword name semicolon).tokens s r := by
  simp only [readCoherenceCheck, Reader.bind_eq_some_iff, Reader.pure_eq_some_iff,
    name_eq_some_iff, tokens_coherenceCheck]
  constructor
  · rintro ⟨keyword, m₁, h₁, name, m₂, ⟨h₂, hname⟩, semicolon, m₃, h₃, rfl, rfl⟩
    exact ⟨keyword, name, semicolon, rfl, hname, m₁, leads_of_keyword h₁ (by decide), m₂,
      h₂, m₃, leads_of_mark h₃ rfl, rfl⟩
  · rintro ⟨keyword, name, semicolon, rfl, hname, m₁, h₁, m₂, h₂, m₃, h₃, rfl⟩
    exact ⟨keyword, m₁, h₁.keyword_eq (by decide), name, m₂, ⟨h₂, hname⟩, semicolon,
      m₃, h₃.mark_eq rfl, rfl, rfl⟩

theorem sound_readView : Sound readView tokens Valid := by
  intro s t r h
  simp only [readView, Reader.bind_eq_some_iff, Reader.pure_eq_some_iff, name_eq_some_iff] at h
  obtain ⟨keyword, m₁, h₁, name, m₂, ⟨h₂, hname⟩, first, m₃, ⟨h₃, hfirst⟩, more, m₄, h₄,
    semicolon, m₅, h₅, rfl, rfl⟩ := h
  obtain ⟨hspells, hmore⟩ := (sound_name []).many h₄
  refine ⟨?_, by simpa [Valid] using ⟨hname, hfirst, hmore⟩⟩
  rw [tokens_view]
  refine ⟨m₁, leads_of_keyword h₁ (by decide), m₂, h₂, m₃, h₃, spells_append_iff.2
    ⟨m₄, by simpa using hspells, m₅, leads_of_mark h₅ rfl, rfl⟩⟩

/-- A view assignment is read back: the names go on up to the semicolon. -/
theorem readView_eq_some {keyword semicolon : Gap} {name first : Lexeme} {more : List Lexeme}
    (hvalid : (view keyword name first more semicolon).Valid)
    (h : Spells (view keyword name first more semicolon).tokens s r) :
    readView s = some (view keyword name first more semicolon, r) := by
  rw [tokens_view] at h
  obtain ⟨m₁, h₁, m₂, h₂, m₃, h₃, h⟩ := h
  obtain ⟨m₄, h₄, m₅, h₅, rfl⟩ := spells_append_iff.1 h
  have hfree : ∀ t ∈ name :: first :: more, t.FreeName [] := hvalid
  have hmany : Reader.many (Token.name []) m₃ = some (more, m₄) := by
    refine many_eq_some_of_leads ?_ ?_ ?_ h₄
    · intro t ht u w hlead
      exact name_eq_some_iff.2 ⟨hlead, hfree t (by simp [ht])⟩
    · intro t ht
      exact (hfree t (by simp [ht])).1.ne_nil
    · exact wordWhere_eq_none (by simpa [h₅.next?_eq rfl] using (by decide))
  simp only [readView, Reader.bind_eq_some_iff, Reader.pure_eq_some_iff, name_eq_some_iff]
  exact ⟨keyword, m₁, h₁.keyword_eq (by decide), name, m₂, ⟨h₂, hfree _ (by simp)⟩,
    first, m₃, ⟨h₃, hfree _ (by simp)⟩, more, m₄, hmany, semicolon, m₅,
    h₅.mark_eq rfl, rfl, rfl⟩

/-! ### Assignments -/

theorem sound_readAssignment : Sound readAssignment tokens Valid := by
  intro s t r h
  simp only [readAssignment, Reader.bind_eq_some_iff, Reader.pure_eq_some_iff,
    name_eq_some_iff] at h
  obtain ⟨target, m₁, ⟨h₁, htarget⟩, equals, m₂, h₂, matrix, m₃, h₃, value, m₄, h₄, semicolon, m₅,
    h₅, rfl, rfl⟩ := h
  obtain ⟨hspell, hvalue⟩ := Expression.sound_read h₄
  have hmatrix : Spells (matrix.toList.map (Lexeme.mk · "mat".toList)) m₂ m₃ ∧
      value.Valid (if matrix.isSome then [] else ["mat"]) := by
    cases matrix with
    | none =>
      obtain ⟨hnone, rfl⟩ := Reader.option_eq_some_none_iff.1 h₃
      exact ⟨rfl, hvalue.of_oneOf_eq_none hspell (keyword_eq_none_iff.1 hnone)⟩
    | some g =>
      have hlead := leads_of_keyword (Reader.option_eq_some_some_iff.1 h₃) (by decide)
      exact ⟨spells_singleton_iff.2 hlead, hvalue⟩
  refine ⟨?_, htarget, hmatrix.2⟩
  rw [tokens_assignment]
  exact ⟨m₁, h₁, m₂, leads_of_mark h₂ rfl, spells_append_iff.2
    ⟨m₃, hmatrix.1, spells_append_iff.2
      ⟨m₄, hspell, m₅, leads_of_mark h₅ rfl, rfl⟩⟩⟩

/-- An assignment is read back. Without the matrix keyword its value must not start with the word
`mat`, which would be taken for it. -/
theorem readAssignment_eq_some {target : Lexeme} {equals semicolon : Gap} {matrix : Option Gap}
    {value : Expression} (hvalid : (assignment target equals matrix value semicolon).Valid)
    (h : Spells (assignment target equals matrix value semicolon).tokens s r) :
    readAssignment s = some (assignment target equals matrix value semicolon, r) := by
  rw [tokens_assignment] at h
  obtain ⟨m₁, h₁, m₂, h₂, h⟩ := h
  obtain ⟨m₃, h₃, h⟩ := spells_append_iff.1 h
  obtain ⟨m₄, h₄, m₅, h₅, rfl⟩ := spells_append_iff.1 h
  obtain ⟨htarget, hvalue⟩ := hvalid
  have hmatrix : Reader.option (Token.keyword "mat") m₂ = some (matrix, m₃) := by
    cases matrix with
    | none =>
      obtain rfl : m₂ = m₃ := h₃
      refine Reader.option_eq_some_none_iff.2 ⟨keyword_eq_none_iff.2 ?_, rfl⟩
      exact Expression.Valid.oneOf_eq_none hvalue h₄ (by decide)
    | some g =>
      have hlead := spells_singleton_iff.1 h₃
      exact Reader.option_eq_some_some_iff.2 (hlead.keyword_eq (by decide))
  simp only [readAssignment, Reader.bind_eq_some_iff, Reader.pure_eq_some_iff, name_eq_some_iff]
  exact ⟨target, m₁, ⟨h₁, htarget⟩, equals, m₂, h₂.mark_eq rfl, matrix, m₃,
    hmatrix, value, m₄, hvalue.read_eq h₄ ⟨';', by decide, h₅.next?_eq rfl⟩, semicolon, m₅,
    h₅.mark_eq rfl, rfl, rfl⟩

/-! ### Enumerations -/

theorem sound_readEnumeration : Sound readEnumeration tokens Valid := by
  intro s t r h
  simp only [readEnumeration, Reader.bind_eq_some_iff, Reader.pure_eq_some_iff,
    name_eq_some_iff] at h
  obtain ⟨keyword, m₁, h₁, name, m₂, ⟨h₂, hname⟩, opening, m₃, h₃, items, m₄, h₄, closing, m₅, h₅,
    rfl, rfl⟩ := h
  obtain ⟨hspells, hitems, -⟩ := (sound_name []).commaList h₄
  refine ⟨?_, hname, hitems⟩
  rw [tokens_enumeration]
  exact ⟨m₁, leads_of_keyword h₁ (by decide), m₂, h₂, m₃,
    leads_of_mark h₃ rfl, spells_append_iff.2
      ⟨m₄, hspells, m₅, leads_of_mark h₅ rfl, rfl⟩⟩

/-- An enumeration is read back, with or without a comma after its last name. -/
theorem readEnumeration_eq_some {keyword opening closing : Gap} {name : Lexeme}
    {items : CommaList Lexeme} (hvalid : (enumeration keyword name opening items closing).Valid)
    (h : Spells (enumeration keyword name opening items closing).tokens s r) :
    readEnumeration s = some (enumeration keyword name opening items closing, r) := by
  rw [tokens_enumeration] at h
  obtain ⟨m₁, h₁, m₂, h₂, m₃, h₃, h⟩ := h
  obtain ⟨m₄, h₄, m₅, h₅, rfl⟩ := spells_append_iff.1 h
  obtain ⟨hname, hitems⟩ := hvalid
  have hlist : CommaList.read ['}'] true (Token.name []) true m₃ = some (items, m₄) := by
    refine commaList_read_eq_some (by decide) ?_ ?_ items.ends_true (h₅.next?_eq rfl) h₄
    · intro t ht u w _ _ hspell _
      exact name_eq_some_iff.2 ⟨spells_singleton_iff.1 hspell, hitems t ht⟩
    · intro t ht u w hspell
      exact (spells_singleton_iff.1 hspell).next?_ne (hitems t ht).1 rfl
  simp only [readEnumeration, Reader.bind_eq_some_iff, Reader.pure_eq_some_iff, name_eq_some_iff]
  exact ⟨keyword, m₁, h₁.keyword_eq (by decide), name, m₂, ⟨h₂, hname⟩, opening, m₃,
    h₃.mark_eq rfl, items, m₄, hlist, closing, m₅,
    h₅.mark_eq rfl, rfl, rfl⟩

/-! ### Declarations of variables -/

/-- Rotations are read from the texts that spell them. -/
theorem readRotation_eq_some_iff {x : Rotation} :
    readRotation s = some (x, r) ↔ Spells x.tokens s r ∧ x.name.FreeName [] := by
  obtain ⟨rotate, preposition, name⟩ := x
  simp only [readRotation, Reader.bind_eq_some_iff, Reader.pure_eq_some_iff, name_eq_some_iff,
    Rotation.mk.injEq]
  constructor
  · rintro ⟨_, m₁, h₁, _, m₂, h₂, _, m₃, ⟨h₃, hname⟩, ⟨rfl, rfl, rfl⟩, rfl⟩
    exact ⟨⟨m₁, leads_of_keyword h₁ (by decide), m₂, leads_of_keyword h₂ (by decide),
      m₃, h₃, rfl⟩, hname⟩
  · rintro ⟨⟨m₁, h₁, m₂, h₂, m₃, h₃, rfl⟩, hname⟩
    exact ⟨rotate, m₁, h₁.keyword_eq (by decide), preposition, m₂,
      h₂.keyword_eq (by decide), name, m₃, ⟨h₃, hname⟩, ⟨rfl, rfl, rfl⟩, rfl⟩

theorem sound_readInitial :
    Sound readInitial initialTokens fun i ↦ i.2.Valid booleanWords := by
  intro s i r h
  simp only [readInitial, Reader.bind_eq_some_iff, Reader.pure_eq_some_iff] at h
  obtain ⟨equals, m₁, h₁, value, m₂, h₂, rfl, rfl⟩ := h
  obtain ⟨hspell, hvalue⟩ := Value.sound_read h₂
  exact ⟨⟨m₁, leads_of_mark h₁ rfl, hspell⟩, hvalue⟩

/-- An initial value is read back before a semicolon. -/
theorem readInitial_eq_some {i : Gap × Value} (hvalue : i.2.Valid booleanWords)
    (h : Spells (initialTokens i) s r) (hr : next? r = some ';') :
    readInitial s = some (i, r) := by
  obtain ⟨m, hlead, hspell⟩ := h
  simp only [readInitial, Reader.bind_eq_some_iff, Reader.pure_eq_some_iff]
  exact ⟨i.1, m, hlead.mark_eq rfl, i.2, r,
    hvalue.read_eq (List.Subset.refl _) hspell ⟨';', by decide, hr⟩, rfl, rfl⟩

/-- What the reader of variable declarations reads is the tokens of one that is valid. Where no word
says who can see the variable, its name is none of these words. -/
theorem sound_readVariableDeclaration : Sound readVariableDeclaration tokens Valid := by
  intro s t r h
  simp only [readVariableDeclaration, Reader.bind_eq_some_iff, Reader.pure_eq_some_iff,
    name_eq_some_iff, oneOf_eq_some_iff] at h
  obtain ⟨keyword, m₁, ⟨h₁, -, hkeyword⟩, visibility, m₂, h₂, name, m₃, ⟨h₃, hname⟩, rotation, m₄,
    h₄, colon, m₅, h₅, type, m₆, h₆, initial, m₇, h₇, semicolon, m₈, h₈, rfl, rfl⟩ := h
  have hvisibility : Spells visibility.toList m₁ m₂ ∧
      (∀ t ∈ visibility, t.IsOneOf visibilityWords) ∧
      name.FreeName (if visibility.isSome then [] else visibilityWords) := by
    cases visibility with
    | none =>
      obtain ⟨hnone, rfl⟩ := Reader.option_eq_some_none_iff.1 h₂
      exact ⟨rfl, by simp, hname.of_oneOf_eq_none h₃ hnone (by simp)⟩
    | some t =>
      obtain ⟨hlead, -, hword⟩ := oneOf_eq_some_iff.1 (Reader.option_eq_some_some_iff.1 h₂)
      refine ⟨spells_singleton_iff.2 hlead, ?_, hname⟩
      rintro _ ⟨⟩
      exact hword
  have hsound : Sound readRotation Rotation.tokens fun x ↦ x.name.FreeName [] :=
    fun _ _ _ h ↦ readRotation_eq_some_iff.1 h
  obtain ⟨hspell₄, hrotation⟩ := hsound.option h₄
  obtain ⟨hspell₆, htype⟩ := TypeName.sound_read h₆
  obtain ⟨hspell₇, hinitial⟩ := sound_readInitial.option h₇
  refine ⟨?_, hkeyword, hvisibility.2.1, hvisibility.2.2, hrotation, htype, hinitial⟩
  rw [tokens_variableDeclaration]
  exact ⟨m₁, h₁, spells_append_iff.2 ⟨m₂, hvisibility.1, m₃, h₃, spells_append_iff.2
    ⟨m₄, hspell₄, m₅, leads_of_mark h₅ rfl, spells_append_iff.2
      ⟨m₆, hspell₆, spells_append_iff.2
        ⟨m₇, hspell₇, m₈, leads_of_mark h₈ rfl, rfl⟩⟩⟩⟩⟩

/-- A variable declaration is read back, whichever of its parts are there: each part is told from
the next one by its first token. -/
theorem readVariableDeclaration_eq_some {keyword name : Lexeme} {visibility : Option Lexeme}
    {rotation : Option Rotation} {colon semicolon : Gap} {type : TypeName}
    {initial : Option (Gap × Value)}
    (hvalid : (variableDeclaration keyword visibility name rotation colon type initial
      semicolon).Valid)
    (h : Spells (variableDeclaration keyword visibility name rotation colon type initial
      semicolon).tokens s r) :
    readVariableDeclaration s =
      some (variableDeclaration keyword visibility name rotation colon type initial semicolon,
        r) := by
  rw [tokens_variableDeclaration] at h
  obtain ⟨m₁, h₁, h⟩ := h
  obtain ⟨m₂, h₂, m₃, h₃, h⟩ := spells_append_iff.1 h
  obtain ⟨m₄, h₄, m₅, h₅, h⟩ := spells_append_iff.1 h
  obtain ⟨m₆, h₆, h⟩ := spells_append_iff.1 h
  obtain ⟨m₇, h₇, m₈, h₈, rfl⟩ := spells_append_iff.1 h
  obtain ⟨hkeyword, hvisibility, hname, hrotation, htype, hinitial⟩ := hvalid
  have hcolon : next? m₄ = some ':' := h₅.next?_eq rfl
  have hsemicolon : next? m₇ = some ';' := h₈.next?_eq rfl
  have hread₂ : Reader.option (Token.oneOf visibilityWords) m₁ = some (visibility, m₂) := by
    have hspells : Spells (visibility.toList.flatMap fun t ↦ [t]) m₁ m₂ := by simpa using h₂
    refine option_eq_some ?_ ?_ hspells
    · intro t ht hspell
      have hword := hvisibility t ht
      exact oneOf_eq_some_iff.2
        ⟨spells_singleton_iff.1 hspell, hword.isWord (by decide), hword⟩
    · rintro rfl
      obtain rfl : m₁ = m₂ := h₂
      exact oneOf_eq_none_of_freeName h₃ hname
  have hread₄ : Reader.option readRotation m₃ = some (rotation, m₄) := by
    refine option_eq_some ?_ ?_ h₄
    · intro x hx hspell
      exact readRotation_eq_some_iff.2 ⟨hspell, hrotation x hx⟩
    · rintro rfl
      obtain rfl : m₃ = m₄ := h₄
      refine Reader.bind_eq_none_of_left (keyword_eq_none_iff.2 (wordWhere_eq_none ?_))
      simpa [hcolon] using (by decide)
  have hread₇ : Reader.option readInitial m₆ = some (initial, m₇) := by
    refine option_eq_some ?_ ?_ h₇
    · intro i hi hspell
      exact readInitial_eq_some (hinitial i hi) hspell hsemicolon
    · rintro rfl
      obtain rfl : m₆ = m₇ := h₇
      exact Reader.bind_eq_none_of_left (mark_eq_none (by simp [hsemicolon]))
  have hends : TypeName.EndsBefore m₆ := by
    cases initial with
    | none =>
      obtain rfl : m₆ = m₇ := h₇
      simp [TypeName.EndsBefore, hsemicolon]
    | some i =>
      obtain ⟨m, hlead, -⟩ : Spells (initialTokens i) m₆ m₇ := by simpa using h₇
      simp [TypeName.EndsBefore, hlead.next?_eq rfl]
  simp only [readVariableDeclaration, Reader.bind_eq_some_iff, Reader.pure_eq_some_iff,
    name_eq_some_iff]
  exact ⟨keyword, m₁, oneOf_eq_some_iff.2 ⟨h₁, hkeyword.isWord (by decide), hkeyword⟩, visibility,
    m₂, hread₂, name, m₃, ⟨h₃, hname.mono (by simp)⟩, rotation, m₄, hread₄, colon, m₅,
    h₅.mark_eq rfl, type, m₆, htype.read_eq h₆ hends, initial, m₇, hread₇,
    semicolon, m₈, h₈.mark_eq rfl, rfl, rfl⟩

/-! ### Declarations of functions -/

theorem sound_readParameter :
    Sound readParameter Parameter.tokens fun p ↦ p.name.FreeName [] ∧ p.type.Valid := by
  intro s p r h
  simp only [readParameter, Reader.bind_eq_some_iff, Reader.pure_eq_some_iff, name_eq_some_iff] at h
  obtain ⟨name, m₁, ⟨h₁, hname⟩, colon, m₂, h₂, type, m₃, h₃, rfl, rfl⟩ := h
  obtain ⟨hspell, htype⟩ := TypeName.sound_read h₃
  exact ⟨⟨m₁, h₁, m₂, leads_of_mark h₂ rfl, hspell⟩, hname, htype⟩

/-- A parameter is read back where its type ends. -/
theorem readParameter_eq_some {p : Parameter} (hname : p.name.FreeName []) (htype : p.type.Valid)
    (h : Spells p.tokens s r) (hr : TypeName.EndsBefore r) : readParameter s = some (p, r) := by
  obtain ⟨m₁, h₁, m₂, h₂, h₃⟩ := h
  simp only [readParameter, Reader.bind_eq_some_iff, Reader.pure_eq_some_iff, name_eq_some_iff]
  exact ⟨p.name, m₁, ⟨h₁, hname⟩, p.colon, m₂, h₂.mark_eq rfl, p.type, r,
    htype.read_eq h₃ hr, rfl, rfl⟩

theorem sound_readResult : Sound readResult resultTokens fun i ↦ i.2.Valid := by
  intro s i r h
  simp only [readResult, Reader.bind_eq_some_iff, Reader.pure_eq_some_iff] at h
  obtain ⟨arrow, m₁, h₁, type, m₂, h₂, rfl, rfl⟩ := h
  obtain ⟨hspell, htype⟩ := TypeName.sound_read h₂
  exact ⟨⟨m₁, leads_of_mark h₁ rfl, hspell⟩, htype⟩

theorem readResult_eq_some {i : Gap × TypeName} (htype : i.2.Valid)
    (h : Spells (resultTokens i) s r) (hr : TypeName.EndsBefore r) :
    readResult s = some (i, r) := by
  obtain ⟨m, hlead, hspell⟩ := h
  simp only [readResult, Reader.bind_eq_some_iff, Reader.pure_eq_some_iff]
  exact ⟨i.1, m, hlead.mark_eq rfl, i.2, r, htype.read_eq hspell hr, rfl, rfl⟩

/-- What the reader of bodies reads is the tokens of strings in braces. -/
theorem sound_readBody :
    Sound readBody Body.tokens fun b ↦ ∀ t ∈ b.first :: b.more, t.IsText := by
  intro s b r h
  simp only [readBody, Reader.bind_eq_some_iff, Reader.pure_eq_some_iff] at h
  obtain ⟨opening, m₁, h₁, first, m₂, h₂, more, m₃, h₃, closing, m₄, h₄, rfl, rfl⟩ := h
  obtain ⟨hlead, hfirst⟩ := string_eq_some_iff.1 h₂
  obtain ⟨hspells, hmore⟩ := sound_string.many h₃
  refine ⟨⟨m₁, leads_of_mark h₁ rfl, m₂, hlead, spells_append_iff.2
    ⟨m₃, by simpa using hspells, m₄, leads_of_mark h₄ rfl, rfl⟩⟩, ?_⟩
  exact List.forall_mem_cons.2 ⟨hfirst, hmore⟩

/-- A body is read back: the strings go on up to the closing brace. -/
theorem readBody_eq_some {b : Body} (hb : ∀ t ∈ b.first :: b.more, t.IsText)
    (h : Spells b.tokens s r) : readBody s = some (b, r) := by
  obtain ⟨m₁, h₁, m₂, h₂, h⟩ := h
  obtain ⟨m₃, h₃, m₄, h₄, rfl⟩ := spells_append_iff.1 h
  rw [List.forall_mem_cons] at hb
  have hmany : Reader.many Token.string m₂ = some (b.more, m₃) := by
    refine many_eq_some_of_leads ?_ ?_ ?_ h₃
    · intro t ht u w hlead
      exact string_eq_some_iff.2 ⟨hlead, hb.2 t ht⟩
    · intro t ht
      obtain ⟨v, htext, -⟩ := isString_iff.1 (hb.2 t ht).1
      simp [htext]
    -- the closing brace starts no string
    · rcases hstring : Token.string m₃ with - | ⟨t, m⟩
      · rfl
      · obtain ⟨hlead, ht, -⟩ := string_eq_some_iff.1 hstring
        obtain ⟨v, htext, -⟩ := isString_iff.1 ht
        have hnext := hlead.next?_eq htext
        rw [h₄.next?_eq rfl] at hnext
        exact absurd hnext (by decide)
  simp only [readBody, Reader.bind_eq_some_iff, Reader.pure_eq_some_iff]
  exact ⟨b.opening, m₁, h₁.mark_eq rfl, b.first, m₂,
    string_eq_some_iff.2 ⟨h₂, hb.1⟩, b.more, m₃, hmany, b.closing, m₄,
    h₄.mark_eq rfl, rfl, rfl⟩

theorem sound_readFunction : Sound readFunction tokens Valid := by
  intro s t r h
  simp only [readFunction, Reader.bind_eq_some_iff, Reader.pure_eq_some_iff, name_eq_some_iff] at h
  obtain ⟨keyword, m₁, h₁, name, m₂, ⟨h₂, hname⟩, opening, m₃, h₃, parameters, m₄, h₄, closing, m₅,
    h₅, result, m₆, h₆, body, m₇, h₇, rfl, rfl⟩ := h
  obtain ⟨hspell₄, hparameters, -⟩ := sound_readParameter.commaList h₄
  obtain ⟨hspell₆, hresult⟩ := sound_readResult.option h₆
  obtain ⟨hspell₇, hbody⟩ := sound_readBody.option h₇
  refine ⟨?_, hname, hparameters, hresult, hbody⟩
  rw [tokens_function]
  exact ⟨m₁, leads_of_keyword h₁ (by decide), m₂, h₂, m₃,
    leads_of_mark h₃ rfl, spells_append_iff.2 ⟨m₄, hspell₄, m₅,
      leads_of_mark h₅ rfl, spells_append_iff.2 ⟨m₆, hspell₆, hspell₇⟩⟩⟩

/-- A word or nothing follows. -/
def EndsBefore (r : List Char) : Prop := ∀ c ∈ next? r, startsWord c = true

/-- Nothing follows that would prolong a statement: no arrow, no brackets and no brace. -/
def StopsBefore (r : List Char) : Prop := ∀ c ∈ ['-', '[', '<', '{'], next? r ≠ some c

/-- Where another statement begins or the text ends, a function without a body stops as well. -/
theorem EndsBefore.stopsBefore (h : EndsBefore r) : StopsBefore r := by
  intro c hc hnext
  have hword := h c hnext
  have hmark : startsWord c = false := by
    simp only [List.mem_cons, List.not_mem_nil, or_false] at hc
    rcases hc with rfl | rfl | rfl | rfl <;> decide
  rw [hmark] at hword
  exact absurd hword (by decide)

/-- A function is read back, whichever of its parts are there, if nothing follows that could be one
of those that are missing. -/
theorem readFunction_eq_some {keyword opening closing : Gap} {name : Lexeme}
    {parameters : CommaList Parameter} {result : Option (Gap × TypeName)} {body : Option Body}
    (hvalid : (function keyword name opening parameters closing result body).Valid)
    (h : Spells (function keyword name opening parameters closing result body).tokens s r)
    (hr : StopsBefore r) :
    readFunction s = some (function keyword name opening parameters closing result body, r) := by
  rw [tokens_function] at h
  obtain ⟨m₁, h₁, m₂, h₂, m₃, h₃, h⟩ := h
  obtain ⟨m₄, h₄, m₅, h₅, h⟩ := spells_append_iff.1 h
  obtain ⟨m₆, h₆, h₇⟩ := spells_append_iff.1 h
  obtain ⟨hname, hparameters, hresult, hbody⟩ := hvalid
  have hlist : CommaList.read [')'] true readParameter true m₃ = some (parameters, m₄) := by
    refine commaList_read_eq_some (by decide) ?_ ?_ parameters.ends_true (h₅.next?_eq rfl) h₄
    · intro p hp u w _ _ hspell hfollow
      refine readParameter_eq_some (hparameters p hp).1 (hparameters p hp).2 hspell ?_
      rcases hfollow with hfollow | hfollow <;> simp [TypeName.EndsBefore, hfollow]
    · rintro p hp u w ⟨m, hlead, -⟩
      exact hlead.next?_ne (hparameters p hp).1.1 rfl
  have hread₇ : Reader.option readBody m₆ = some (body, r) := by
    refine option_eq_some ?_ ?_ h₇
    · intro b hb hspell
      exact readBody_eq_some (hbody b hb) hspell
    · rintro rfl
      obtain rfl : m₆ = r := h₇
      exact Reader.bind_eq_none_of_left (mark_eq_none (hr '{' (by decide)))
  -- the body or the next statement begins after the result type, and neither prolongs it
  have hnext : ∀ d ∈ ['-', '[', '<'], next? m₆ ≠ some d := by
    intro d hd
    cases body with
    | none =>
      obtain rfl : m₆ = r := h₇
      exact hr d (List.mem_append_left ['{'] hd)
    | some b =>
      obtain ⟨m, hlead, -⟩ : Spells b.tokens m₆ r := by simpa using h₇
      rw [hlead.next?_eq rfl]
      intro heq
      obtain rfl := Option.some.inj heq
      exact absurd hd (by decide)
  have hread₆ : Reader.option readResult m₅ = some (result, m₆) := by
    refine option_eq_some ?_ ?_ h₆
    · intro i hi hspell
      exact readResult_eq_some (hresult i hi) hspell
        ⟨hnext '[' (by decide), hnext '<' (by decide)⟩
    · rintro rfl
      obtain rfl : m₅ = m₆ := h₆
      exact Reader.bind_eq_none_of_left (mark_eq_none (hnext '-' (by decide)))
  simp only [readFunction, Reader.bind_eq_some_iff, Reader.pure_eq_some_iff, name_eq_some_iff]
  exact ⟨keyword, m₁, h₁.keyword_eq (by decide), name, m₂, ⟨h₂, hname⟩, opening, m₃,
    h₃.mark_eq rfl, parameters, m₄, hlist, closing, m₅,
    h₅.mark_eq rfl, result, m₆, hread₆, body, r, hread₇, rfl, rfl⟩

/-! ### Statements -/

/-- The first word decides which kind of statement is read. -/
theorem read_eq {t : Lexeme} (h : t.Leads s m) (ht : IsWord t.text) :
    read s =
      if t.text = "cc".toList then readCoherenceCheck s
      else if t.text = "view".toList then readView s
      else if t.text = "enum".toList then readEnumeration s
      else if t.text = "fn".toList then readFunction s
      else if declarationWords.any (·.toList == t.text) then readVariableDeclaration s
      else readAssignment s := by
  rw [read, word_eq_some_iff.2 ⟨h, ht⟩]

/-- There is no statement where there is no word. -/
theorem read_eq_none (h : ∀ c ∈ next? s, startsWord c = false) : read s = none := by
  rcases hw : Token.word s with - | ⟨t, m⟩
  · rw [read, hw]
  · obtain ⟨hlead, hword⟩ := word_eq_some_iff.1 hw
    obtain ⟨c, u, htext, hc⟩ := hword.head
    rw [h c (hlead.next?_eq htext)] at hc
    exact absurd hc (by decide)

/-- What the reader of statements reads is the tokens of a valid statement. -/
theorem sound_read : Sound read tokens Valid := by
  intro s t r h
  rcases hw : Token.word s with - | ⟨w, m⟩
  · simp [read, hw] at h
  · obtain ⟨hlead, hword⟩ := word_eq_some_iff.1 hw
    rw [read_eq hlead hword] at h
    split at h
    · obtain ⟨keyword, name, semicolon, rfl, hname, hspell⟩ := readCoherenceCheck_eq_some_iff.1 h
      exact ⟨hspell, hname⟩
    · split at h
      · exact sound_readView h
      · split at h
        · exact sound_readEnumeration h
        · split at h
          · exact sound_readFunction h
          · split at h
            · exact sound_readVariableDeclaration h
            · exact sound_readAssignment h

/-- The first token of a statement is a word. -/
theorem Valid.exists_first {t : Statement} (ht : t.Valid) :
    ∃ w ts, t.tokens = w :: ts ∧ IsWord w.text := by
  cases t with
  | coherenceCheck => exact ⟨_, _, tokens_coherenceCheck .., (by decide : IsWord "cc".toList)⟩
  | view => exact ⟨_, _, tokens_view .., (by decide : IsWord "view".toList)⟩
  | assignment => exact ⟨_, _, tokens_assignment .., ht.1.1⟩
  | enumeration => exact ⟨_, _, tokens_enumeration .., (by decide : IsWord "enum".toList)⟩
  | variableDeclaration =>
    exact ⟨_, _, tokens_variableDeclaration .., ht.1.isWord (by decide)⟩
  | function => exact ⟨_, _, tokens_function .., (by decide : IsWord "fn".toList)⟩

/-- A valid statement begins with a word, so the statement before it ends there. -/
theorem Valid.endsBefore {t : Statement} (ht : t.Valid) (h : Spells t.tokens s r) :
    EndsBefore s ∧ r.length < s.length := by
  obtain ⟨w, ts, htokens, hword⟩ := ht.exists_first
  rw [htokens] at h
  obtain ⟨m, hlead, hspells⟩ := h
  obtain ⟨c, u, htext, hc⟩ := hword.head
  have hlt := hlead.length_lt hword.ne_nil
  have hle := hspells.length_le
  refine ⟨?_, by omega⟩
  intro d hd
  rw [hlead.next?_eq htext] at hd
  obtain rfl : c = d := by simpa using hd
  exact hc

/-- A valid statement is read back from the texts that spell it. -/
theorem Valid.read_eq {t : Statement} (ht : t.Valid) (h : Spells t.tokens s r)
    (hr : StopsBefore r) : read s = some (t, r) := by
  cases t with
  | coherenceCheck keyword name semicolon =>
    obtain ⟨m, hlead, -⟩ := tokens_coherenceCheck .. ▸ h
    rw [Statement.read_eq hlead (by decide : IsWord "cc".toList), if_pos rfl]
    exact readCoherenceCheck_eq_some_iff.2 ⟨keyword, name, semicolon, rfl, ht, h⟩
  | view =>
    obtain ⟨m, hlead, -⟩ := tokens_view .. ▸ h
    rw [Statement.read_eq hlead (by decide : IsWord "view".toList),
      if_neg (by decide : "view".toList ≠ "cc".toList), if_pos rfl]
    exact readView_eq_some ht h
  | assignment target =>
    obtain ⟨m, hlead, -⟩ := tokens_assignment .. ▸ h
    have hfree : target.FreeName statementWords := ht.1
    have hne : ∀ w ∈ statementWords, target.text ≠ w.toList := fun w hw ↦ (hfree.2 w hw).symm
    have hany : ¬ declarationWords.any (·.toList == target.text) = true := by
      simp only [List.any_eq_true, beq_iff_eq, not_exists, not_and]
      exact fun w hw ↦ hfree.2 w (List.mem_append_right _ hw)
    rw [Statement.read_eq hlead hfree.1, if_neg (hne "cc" (by decide)),
      if_neg (hne "view" (by decide)), if_neg (hne "enum" (by decide)),
      if_neg (hne "fn" (by decide)), if_neg hany]
    exact readAssignment_eq_some ht h
  | enumeration =>
    obtain ⟨m, hlead, -⟩ := tokens_enumeration .. ▸ h
    rw [Statement.read_eq hlead (by decide : IsWord "enum".toList),
      if_neg (by decide : "enum".toList ≠ "cc".toList),
      if_neg (by decide : "enum".toList ≠ "view".toList), if_pos rfl]
    exact readEnumeration_eq_some ht h
  | variableDeclaration keyword =>
    obtain ⟨m, hlead, -⟩ := tokens_variableDeclaration .. ▸ h
    have hkeyword : keyword.IsOneOf declarationWords := ht.1
    have hne : ∀ w ∈ ["cc", "view", "enum", "fn"], keyword.text ≠ w.toList := by
      obtain ⟨v, hv, htext⟩ := hkeyword
      rw [← htext]
      exact (by decide : ∀ v ∈ declarationWords, ∀ w ∈ ["cc", "view", "enum", "fn"],
        v.toList ≠ w.toList) v hv
    have hany : declarationWords.any (·.toList == keyword.text) = true := by
      simp only [List.any_eq_true, beq_iff_eq]
      exact hkeyword
    rw [Statement.read_eq hlead (hkeyword.isWord (by decide)), if_neg (hne "cc" (by decide)),
      if_neg (hne "view" (by decide)), if_neg (hne "enum" (by decide)),
      if_neg (hne "fn" (by decide)), if_pos hany]
    exact readVariableDeclaration_eq_some ht h
  | function =>
    obtain ⟨m, hlead, -⟩ := tokens_function .. ▸ h
    rw [Statement.read_eq hlead (by decide : IsWord "fn".toList),
      if_neg (by decide : "fn".toList ≠ "cc".toList),
      if_neg (by decide : "fn".toList ≠ "view".toList),
      if_neg (by decide : "fn".toList ≠ "enum".toList), if_pos rfl]
    exact readFunction_eq_some ht h hr

/-- Statements are read back where no other one starts and nothing prolongs the last of them. -/
theorem many_read_eq {ts : List Statement} (hvalid : ∀ t ∈ ts, t.Valid)
    (h : Spells (ts.flatMap tokens) s r) (hr : StopsBefore r)
    (hend : ∀ c ∈ next? r, startsWord c = false) : Reader.many read s = some (ts, r) := by
  refine many_eq_some ?_ ?_ (read_eq_none hend) hr h
  · intro t ht u w _ _ hspell hfollow
    exact (hvalid t ht).read_eq hspell hfollow
  · intro t ht u w hspell
    obtain ⟨hends, hlt⟩ := (hvalid t ht).endsBefore hspell
    exact ⟨hends.stopsBefore, hlt⟩

end Statement

end GrammarExport.Syntax
