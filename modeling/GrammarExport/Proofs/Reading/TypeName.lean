import GrammarExport.Proofs.Reading.Pattern
import GrammarExport.Proofs.Reading.Valid

/-!
# Reading types

A type is an element with its pairs of brackets (`TypeName.dimensioned`), which is how it is read.
A type that is read is valid and stands in the text (`TypeName.sound_read`), and a valid type is
read back where neither a bracket nor an angle bracket follows (`TypeName.Valid.read_eq`).
-/

namespace GrammarExport.Syntax

namespace TypeName

variable {s m r : List Char}

/-- A type with pairs of brackets after it. -/
def dimensioned (element : TypeName) (dimensions : List Gap) : TypeName :=
  dimensions.foldl .array element

/-- A type that is not an array. -/
def IsElement : TypeName → Prop
  | array .. => False
  | _ => True

/-- The token of a pair of brackets. -/
def bracketTokens (g : Gap) : List Lexeme := [⟨g, ['[', ']']⟩]

/-- Nothing follows that could still belong to a type. -/
def EndsBefore (r : List Char) : Prop := next? r ≠ some '[' ∧ next? r ≠ some '<'

/-- Every type is an element with some number of dimensions. -/
theorem exists_eq_dimensioned : ∀ t : TypeName,
    ∃ element dimensions, element.IsElement ∧ t = dimensioned element dimensions
  | primitive t => ⟨primitive t, [], trivial, rfl⟩
  | decision t => ⟨decision t, [], trivial, rfl⟩
  | named t => ⟨named t, [], trivial, rfl⟩
  | template t opening argument closing =>
    ⟨template t opening argument closing, [], trivial, rfl⟩
  | array element brackets => by
    obtain ⟨first, dimensions, hfirst, rfl⟩ := exists_eq_dimensioned element
    refine ⟨first, dimensions ++ [brackets], hfirst, ?_⟩
    rw [dimensioned, dimensioned, List.foldl_append]
    rfl

/-- The brackets of the dimensions come after the element. -/
theorem tokens_dimensioned (element : TypeName) (dimensions : List Gap) :
    (dimensioned element dimensions).tokens =
      element.tokens ++ dimensions.flatMap bracketTokens := by
  induction dimensions generalizing element with
  | nil => simp [dimensioned]
  | cons g dimensions ih =>
    show (dimensioned (array element g) dimensions).tokens = _
    rw [ih, tokens_array, List.flatMap_cons, List.append_assoc]
    rfl

theorem valid_dimensioned_iff {element : TypeName} {dimensions : List Gap} :
    (dimensioned element dimensions).Valid ↔ element.Valid := by
  induction dimensions generalizing element with
  | nil => rfl
  | cons g dimensions ih =>
    show (dimensioned (array element g) dimensions).Valid ↔ _
    rw [ih, Valid]

/-! ### Elements -/

theorem sound_readDecision : Sound readDecision tokens Valid := by
  intro s t r h
  simp only [readDecision, Reader.bind_eq_some_iff, oneOf_eq_some_iff] at h
  obtain ⟨word, m, ⟨hlead, -, hword⟩, argument, m', hoption, h⟩ := h
  cases argument with
  | none =>
    obtain ⟨-, rfl⟩ := Reader.option_eq_some_none_iff.1 hoption
    obtain ⟨rfl, rfl⟩ := Reader.pure_eq_some_iff.1 h
    exact ⟨by simpa using spells_singleton_iff.2 hlead, hword⟩
  | some x =>
    obtain ⟨opening, argument, closing⟩ := x
    obtain ⟨rfl, rfl⟩ := Reader.pure_eq_some_iff.1 h
    have hread := Reader.option_eq_some_some_iff.1 hoption
    simp only [readArgument, Reader.bind_eq_some_iff, Reader.pure_eq_some_iff,
      name_eq_some_iff] at hread
    obtain ⟨_, m₁, h₁, _, m₂, ⟨h₂, hargument⟩, _, m₃, h₃, heq, rfl⟩ := hread
    obtain ⟨rfl, rfl, rfl⟩ : _ = opening ∧ _ = argument ∧ _ = closing := by simpa using heq
    refine ⟨?_, hword, hargument⟩
    rw [tokens_template]
    exact ⟨m, hlead, m₁, leads_of_mark h₁ rfl, m₂, h₂, m₃,
      leads_of_mark h₃ rfl, rfl⟩

/-- What the reader of elements reads is the tokens of a valid type. -/
theorem sound_readElement : Sound readElement tokens Valid := by
  intro s t r h
  rw [readElement] at h
  rcases hprimitive : Token.oneOf primitiveWords s with - | ⟨word, m⟩
  · rcases hdecision : Token.oneOf decisionWords s with - | ⟨word, m⟩
    · simp only [hprimitive, hdecision] at h
      obtain ⟨name, hname, rfl⟩ := Reader.map_eq_some_iff.1 h
      obtain ⟨hlead, hfree⟩ := name_eq_some_iff.1 hname
      -- neither a primitive type nor a decision type was read, so the name is free of both
      have hfree' := hfree.of_oneOf_eq_none hlead hdecision (List.Subset.refl _)
      refine ⟨by simpa using spells_singleton_iff.2 hlead,
        hfree'.of_oneOf_eq_none hlead hprimitive ?_⟩
      simp
    · simp only [hprimitive, hdecision] at h
      exact sound_readDecision h
  · simp only [hprimitive, Option.some.injEq, Prod.mk.injEq] at h
    obtain ⟨rfl, rfl⟩ := h
    obtain ⟨hlead, -, hword⟩ := oneOf_eq_some_iff.1 hprimitive
    exact ⟨by simpa using spells_singleton_iff.2 hlead, hword⟩

theorem sound_bracket :
    Sound (Token.mark ['[', ']']) bracketTokens fun _ ↦ True := by
  intro s g r h
  exact ⟨spells_singleton_iff.2 (leads_of_mark h rfl), trivial⟩

/-- What the reader of types reads is the tokens of a valid type. -/
theorem sound_read : Sound read tokens Valid := by
  intro s t r h
  simp only [read, Reader.bind_eq_some_iff, Reader.pure_eq_some_iff] at h
  obtain ⟨element, m, h₁, dimensions, m', h₂, rfl, rfl⟩ := h
  obtain ⟨hspell, helement⟩ := sound_readElement h₁
  obtain ⟨hspells, -⟩ := sound_bracket.many h₂
  show Spells (dimensioned element dimensions).tokens s m' ∧
    (dimensioned element dimensions).Valid
  rw [tokens_dimensioned, valid_dimensioned_iff]
  exact ⟨spells_append_iff.2 ⟨m, hspell, hspells⟩, helement⟩

/-- A word for a decision type is read back, with what the type has in angle brackets. -/
theorem readElement_decision {word : Lexeme} (hword : word.IsOneOf decisionWords)
    (h : word.Leads s m) : readElement s = readDecision s := by
  have hisWord := hword.isWord (by decide)
  have hprimitive : Token.oneOf primitiveWords s = none := by
    refine oneOf_eq_none_of_freeName h ⟨hisWord, ?_⟩
    obtain ⟨w, hw, htext⟩ := hword
    rw [← htext]
    exact (by decide : ∀ w ∈ decisionWords, ∀ p ∈ primitiveWords, p.toList ≠ w.toList) w hw
  rw [readElement, hprimitive, oneOf_eq_some_iff.2 ⟨h, hisWord, hword⟩]

/-- A valid element is read back, unless an angle bracket follows, which could open an argument. -/
theorem Valid.readElement_eq {t : TypeName} (ht : t.Valid) (helement : t.IsElement)
    (h : Spells t.tokens s r) (hr : next? r ≠ some '<') : readElement s = some (t, r) := by
  cases t with
  | primitive word =>
    have hlead := spells_singleton_iff.1 (by simpa using h)
    have hword : word.IsOneOf primitiveWords := ht
    rw [readElement, oneOf_eq_some_iff.2 ⟨hlead, hword.isWord (by decide), hword⟩]
  | decision word =>
    have hlead := spells_singleton_iff.1 (by simpa using h)
    have hword : word.IsOneOf decisionWords := ht
    rw [readElement_decision hword hlead]
    simp only [readDecision, Reader.bind_eq_some_iff]
    refine ⟨word, r, oneOf_eq_some_iff.2 ⟨hlead, hword.isWord (by decide), hword⟩, none, r, ?_,
      Reader.pure_eq_some_iff.2 ⟨rfl, rfl⟩⟩
    exact Reader.option_eq_some_none_iff.2 ⟨Reader.bind_eq_none_of_left (mark_eq_none hr), rfl⟩
  | named name =>
    have hlead := spells_singleton_iff.1 (by simpa using h)
    have hname : name.FreeName (primitiveWords ++ decisionWords) := ht
    have hprimitive : Token.oneOf primitiveWords s = none :=
      oneOf_eq_none_of_freeName hlead (hname.mono (List.subset_append_left _ _))
    have hdecision : Token.oneOf decisionWords s = none :=
      oneOf_eq_none_of_freeName hlead (hname.mono (List.subset_append_right _ _))
    rw [readElement, hprimitive, hdecision]
    exact Reader.map_eq_some_iff.2
      ⟨name, name_eq_some_iff.2 ⟨hlead, hname.mono (by simp)⟩, rfl⟩
  | template word opening argument closing =>
    rw [tokens_template] at h
    obtain ⟨m, hlead, m₁, h₁, m₂, h₂, m₃, h₃, rfl⟩ := h
    obtain ⟨hword, hargument⟩ : word.IsOneOf decisionWords ∧ argument.FreeName [] := ht
    rw [readElement_decision hword hlead]
    have hread : readArgument m = some ((opening, argument, closing), m₃) := by
      simp only [readArgument, Reader.bind_eq_some_iff, Reader.pure_eq_some_iff]
      exact ⟨opening, m₁, h₁.mark_eq rfl, argument, m₂,
        name_eq_some_iff.2 ⟨h₂, hargument⟩, closing, m₃, h₃.mark_eq rfl, rfl,
        rfl⟩
    simp only [readDecision, Reader.bind_eq_some_iff]
    exact ⟨word, m, oneOf_eq_some_iff.2 ⟨hlead, hword.isWord (by decide), hword⟩, _, m₃,
      Reader.option_eq_some_some_iff.2 hread, Reader.pure_eq_some_iff.2 ⟨rfl, rfl⟩⟩
  | array => exact absurd helement id

/-- A valid type is read back where it ends. -/
theorem Valid.read_eq {t : TypeName} (ht : t.Valid) (h : Spells t.tokens s r)
    (hr : EndsBefore r) : read s = some (t, r) := by
  obtain ⟨element, dimensions, helement, rfl⟩ := t.exists_eq_dimensioned
  rw [valid_dimensioned_iff] at ht
  rw [tokens_dimensioned] at h
  obtain ⟨m, hspell, hspells⟩ := spells_append_iff.1 h
  have hstart : ∀ g : Gap, ∀ {u w}, Spells (bracketTokens g) u w →
      next? u ≠ some '<' ∧ w.length < u.length := by
    intro g u w hbracket
    have hlead := spells_singleton_iff.1 hbracket
    exact ⟨by simp [hlead.next?_eq rfl], hlead.length_lt (by simp)⟩
  -- a bracket or the end comes after the element, so a decision type takes no argument from there
  have hm : next? m ≠ some '<' := by
    cases dimensions with
    | nil =>
      obtain rfl : m = r := hspells
      exact hr.2
    | cons g dimensions =>
      obtain ⟨m', hbracket, -⟩ := spells_append_iff.1 hspells
      exact (hstart g hbracket).1
  have hmany : Reader.many (Token.mark ['[', ']']) m = some (dimensions, r) := by
    refine many_eq_some ?_ (fun g _ ↦ hstart g) (mark_eq_none hr.1) hr.2 hspells
    intro g _ u w _ _ hbracket _
    exact (spells_singleton_iff.1 hbracket).mark_eq rfl
  simp only [read, Reader.bind_eq_some_iff, Reader.pure_eq_some_iff]
  exact ⟨element, m, ht.readElement_eq helement hspell hm, dimensions, r, hmany, rfl, rfl⟩

end TypeName

end GrammarExport.Syntax
