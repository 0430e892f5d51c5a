import GrammarExport.Proofs.Reading.Statement

/-!
# Reading sources

A source is read from exactly those texts that its statements spell, with a byte order mark before
them or not and a gap after them (`Source.read?_eq_some_iff`).
-/

namespace GrammarExport.Syntax

variable {s r : List Char}

namespace Source

/-- The tokens of a source. -/
def tokens (src : Source) : List Lexeme := src.statements.flatMap Statement.tokens

/-- The tokens of a source are those of its tree. -/
theorem tokens_tree (src : Source) : src.tree.tokens = src.tokens := by
  rw [tree, Tree.tokens, Tree.tokensOfAll_map]
  rfl

/-- What can follow a statement does not start with the byte order mark. -/
theorem head_ne_mark (h : Statement.EndsBefore s) : mark ∉ s.head? := by
  intro hmark
  have hnext := next?_of_head hmark (by decide) (by decide)
  exact absurd (h mark hnext) (by decide)

/-- A byte order mark is taken off, and what comes after it is read as statements up to the end of
the text. -/
theorem read?_append {b : Bool} (hb : b = false → mark ∉ s.head?) :
    read? ((if b then [mark] else []) ++ s) =
      (Reader.many Statement.read s).bind fun x ↦
        match Gap.split x.2 with
        | (trailing, []) => some ⟨b, x.1, trailing⟩
        | _ => none := by
  cases b with
  | true =>
    show read? (mark :: s) = _
    simp only [read?, if_true]
    rfl
  | false =>
    show read? s = _
    cases s with
    | nil => rfl
    | cons c u =>
      have hc : c ≠ mark := by simpa [eq_comm] using hb rfl
      simp only [read?, hc, if_false]
      rfl

/-- Every text is one without a byte order mark at its start, perhaps with the mark before it. -/
theorem exists_eq_append (s : List Char) :
    ∃ (b : Bool) (u : List Char), s = (if b then [mark] else []) ++ u ∧
      (b = false → mark ∉ u.head?) := by
  by_cases h : s.head? = some mark
  · obtain ⟨u, rfl⟩ := List.head?_eq_some_iff.1 h
    exact ⟨true, u, rfl, by simp⟩
  · exact ⟨false, s, rfl, fun _ ↦ h⟩

/-- Nothing comes after the last gap. -/
theorem next?_eq_none_of_split {trailing : Gap} (h : Gap.split r = (trailing, [])) :
    next? r = none := by
  rw [next?, h]
  rfl

/-- A source is read from the texts that its tokens spell, with the byte order mark before them if
it has one and its last gap after them. -/
theorem read?_eq_some_iff {src : Source} :
    read? s = some src ↔
      ∃ body rest, s = src.opening ++ body ∧ Spells src.tokens body rest ∧
        Gap.split rest = (src.trailing, []) ∧ src.Valid := by
  constructor
  · intro h
    obtain ⟨b, body, rfl, hb⟩ := exists_eq_append s
    rw [read?_append hb] at h
    obtain ⟨⟨statements, rest⟩, hmany, h⟩ := Option.bind_eq_some_iff.1 h
    obtain ⟨hspells, hvalid⟩ := Statement.sound_read.many hmany
    rcases hsplit : Gap.split rest with ⟨trailing, - | ⟨c, u⟩⟩
    · simp only [hsplit, Option.some.injEq] at h
      subst h
      exact ⟨body, rest, rfl, hspells, hsplit, hvalid⟩
    · simp [hsplit] at h
  · rintro ⟨body, rest, rfl, hspells, hsplit, hvalid⟩
    have hnext := next?_eq_none_of_split hsplit
    have hrest : Statement.EndsBefore rest := by simp [Statement.EndsBefore, hnext]
    have hbody : Statement.EndsBefore body := by
      obtain ⟨b, statements, trailing⟩ := src
      cases statements with
      | nil =>
        obtain rfl : body = rest := hspells
        exact hrest
      | cons t ts =>
        obtain ⟨m, hspell, -⟩ := spells_append_iff.1 hspells
        exact ((hvalid t (by simp)).endsBefore hspell).1
    have hmany := Statement.many_read_eq hvalid hspells hrest.stopsBefore (by simp [hnext])
    rw [opening, read?_append fun _ ↦ head_ne_mark hbody, hmany, Option.bind_some, hsplit]

end Source

end GrammarExport.Syntax
