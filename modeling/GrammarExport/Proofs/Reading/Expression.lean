import GrammarExport.Proofs.Reading.Literal

/-!
# Reading expressions

An expression is its first operand and the operators with their right operands
(`Expression.join`); this is the form in which it is read. An expression that is read is valid and
stands in the text (`Expression.sound_read`), and a valid expression is read back before a closing
parenthesis or a semicolon (`Expression.Valid.read_eq`).

Operands are read back by induction on the depth of parentheses: the operands inside a pair of
parentheses are those of the expression inside, whatever its form.
-/

namespace GrammarExport.Syntax

variable {s m r : List Char} {c : Char} {lead : List String}

namespace Expression

/-! ### Operands in a row -/

/-- An expression, and operators with their right operands after it. -/
def join (left : Expression) (steps : List (Lexeme × Operand)) : Expression :=
  steps.foldl (fun left step ↦ .binary left step.1 step.2) left

/-- The tokens of an operator and its right operand. -/
def stepTokens (step : Lexeme × Operand) : List Lexeme := step.1 :: step.2.tokens

/-- An operator and its right operand are valid. -/
def StepValid (step : Lexeme × Operand) : Prop :=
  (∃ c, isOperator c = true ∧ step.1.text = [c]) ∧ step.2.Valid []

/-- Every expression is an operand with steps after it, each an operator and an operand. -/
theorem exists_eq_join : ∀ e : Expression, ∃ first steps, e = join (.operand first) steps
  | .operand o => ⟨o, [], rfl⟩
  | .binary left operator right => by
    obtain ⟨first, steps, rfl⟩ := exists_eq_join left
    refine ⟨first, steps ++ [(operator, right)], ?_⟩
    rw [join, join, List.foldl_append]
    rfl

theorem tokens_join (left : Expression) (steps : List (Lexeme × Operand)) :
    (join left steps).tokens = left.tokens ++ steps.flatMap stepTokens := by
  induction steps generalizing left with
  | nil => simp [join]
  | cons step steps ih =>
    show (join (.binary left step.1 step.2) steps).tokens = _
    rw [ih, tokens_binary, List.flatMap_cons, List.append_assoc]
    rfl

theorem valid_join_iff {left : Expression} {steps : List (Lexeme × Operand)} :
    (join left steps).Valid lead ↔ left.Valid lead ∧ ∀ step ∈ steps, StepValid step := by
  induction steps generalizing left with
  | nil => simp [join]
  | cons step steps ih =>
    show (join (.binary left step.1 step.2) steps).Valid lead ↔ _
    rw [ih, Valid, and_assoc, List.forall_mem_cons, StepValid]

theorem isOperator_iff : isOperator c = true ↔ c ∈ ['+', '-', '*', '/'] := by
  simp [isOperator, or_assoc]

/-- What the reader of steps reads is an operator and the tokens of an operand. -/
theorem sound_readStep {operand : Reader Operand}
    (hop : Sound operand Operand.tokens (Operand.Valid [])) :
    Sound (readStep operand) stepTokens StepValid := by
  intro s step r h
  simp only [readStep, Reader.bind_eq_some_iff, Reader.pure_eq_some_iff, operator_eq_some_iff] at h
  obtain ⟨operator, m, ⟨h₁, hoperator⟩, right, m', h₂, rfl, rfl⟩ := h
  obtain ⟨hspell, hright⟩ := hop h₂
  exact ⟨⟨m, h₁, hspell⟩, hoperator, hright⟩

/-- What is read around operands is the tokens of an expression, if the same holds of them. -/
theorem sound_readAround {operand : Reader Operand}
    (hop : Sound operand Operand.tokens (Operand.Valid [])) :
    Sound (readAround operand) tokens (Valid []) := by
  intro s e r h
  simp only [readAround, Reader.bind_eq_some_iff, Reader.pure_eq_some_iff] at h
  obtain ⟨first, m, h₁, steps, m', h₂, rfl, rfl⟩ := h
  obtain ⟨hspell, hfirst⟩ := hop h₁
  obtain ⟨hspells, hsteps⟩ := (sound_readStep hop).many h₂
  show Spells (join (.operand first) steps).tokens s m' ∧ (join (.operand first) steps).Valid []
  rw [tokens_join, tokens_operand, valid_join_iff, Valid]
  exact ⟨spells_append_iff.2 ⟨m, hspell, hspells⟩, hfirst, hsteps⟩

/-- The operands of a row are read back one after the other. -/
theorem readAround_join {operand : Reader Operand} {first : Operand}
    {steps : List (Lexeme × Operand)} (hsteps : ∀ step ∈ steps, StepValid step)
    (hread : ∀ o ∈ first :: steps.map Prod.snd,
      ReadsBack operand Operand.tokens (Follows valueEnds) s r o)
    (h : Spells (join (.operand first) steps).tokens s r) (hr : Follows [')', ';'] r) :
    readAround operand s = some (join (.operand first) steps, r) := by
  rw [tokens_join, tokens_operand] at h
  obtain ⟨m, hfirst, hspells⟩ := spells_append_iff.1 h
  have hle := hfirst.length_le
  have hstart : ∀ step ∈ steps, ∀ {u w}, Spells (stepTokens step) u w →
      Follows valueEnds u ∧ w.length < u.length := by
    intro step hstep u w hspell
    obtain ⟨n, hoperator, hright⟩ := hspell
    obtain ⟨c, hc, htext⟩ := (hsteps step hstep).1
    have hlt := hoperator.length_lt (by simp [htext])
    have hle := hright.length_le
    refine ⟨⟨c, ?_, hoperator.next?_eq htext⟩, by omega⟩
    exact List.mem_append_right [',', '}', ')', ';'] (isOperator_iff.1 hc)
  -- the row ends at `r`, since neither a parenthesis nor a semicolon is an operator
  have hend : readStep operand r = none := by
    refine Reader.bind_eq_none_of_left ?_
    rcases ho : Token.lexeme splitOperator? r with - | ⟨t, m⟩
    · rfl
    · obtain ⟨hl, c, hc, htext⟩ := operator_eq_some_iff.1 ho
      refine absurd (hl.next?_eq htext) (hr.next?_ne ?_)
      rintro hmem
      obtain rfl | rfl : c = ')' ∨ c = ';' := by simpa using hmem
      all_goals exact absurd hc (by decide)
  have hfollow : Follows valueEnds r := hr.mono (by decide)
  have hm : Follows valueEnds m := by
    cases steps with
    | nil =>
      obtain rfl : m = r := hspells
      exact hfollow
    | cons step steps =>
      obtain ⟨m', hstep, -⟩ := spells_append_iff.1 hspells
      exact (hstart step (by simp) hstep).1
  have hmany : Reader.many (readStep operand) m = some (steps, r) := by
    refine many_eq_some ?_ hstart hend hfollow hspells
    intro step hstep u w hu hw hspell hw'
    obtain ⟨n, hoperator, hright⟩ := hspell
    have hle' := (spells_singleton_iff.2 hoperator).length_le
    simp only [readStep, Reader.bind_eq_some_iff, Reader.pure_eq_some_iff]
    refine ⟨step.1, n, operator_eq_some_iff.2 ⟨hoperator, (hsteps step hstep).1⟩, step.2, w,
      hread step.2 ?_ (by omega) hw hright hw', rfl, rfl⟩
    exact List.mem_cons_of_mem _ (List.mem_map_of_mem hstep)
  simp only [readAround, Reader.bind_eq_some_iff, Reader.pure_eq_some_iff]
  exact ⟨first, m, hread first (by simp) (Nat.le_refl _) hspells.length_le hfirst hm, steps, r,
    hmany, rfl, rfl⟩

end Expression

/-! ### Operands -/

namespace Operand

/-- What is read around expressions is the tokens of an operand, if the same holds of them. -/
theorem sound_readAround {inner : Reader Expression}
    (hin : Sound inner Expression.tokens (Expression.Valid [])) :
    Sound (readAround inner) tokens (Valid []) := by
  intro s o r h
  rw [readAround] at h
  split at h
  · simp only [Reader.bind_eq_some_iff, Reader.pure_eq_some_iff] at h
    obtain ⟨opening, m₁, h₁, e, m₂, h₂, closing, m₃, h₃, rfl, rfl⟩ := h
    obtain ⟨hspell, he⟩ := hin h₂
    refine ⟨?_, he⟩
    rw [tokens_parenthesized]
    exact ⟨m₁, leads_of_mark h₁ rfl, spells_append_iff.2
      ⟨m₂, hspell, m₃, leads_of_mark h₃ rfl, rfl⟩⟩
  · obtain ⟨l, hl, rfl⟩ := Reader.map_eq_some_iff.1 h
    obtain ⟨hspell, hvalid⟩ := Literal.sound_read hl
    exact ⟨by rwa [tokens_literal], hvalid⟩

theorem sound_readWithin (depth : Nat) : Sound (readWithin depth) tokens (Valid []) := by
  induction depth with
  | zero =>
    refine sound_readAround ?_
    intro s e r h
    exact absurd h (by simp [Reader.failure_eq_none])
  | succ depth ih => exact sound_readAround (Expression.sound_readAround ih)

theorem readAround_literal {l : Literal} (inner : Reader Expression) (hl : l.Valid lead)
    (h : Spells l.tokens s r) (hr : Follows valueEnds r) :
    readAround inner s = some (.literal l, r) := by
  obtain ⟨c, hnext, hstarts⟩ := hl.exists_next h
  have hopen : ¬ Token.nextIs ['('] s = true := by
    rw [nextIs_singleton_iff, hnext]
    simpa using hstarts.ne_parenthesis.1
  rw [readAround, if_neg hopen]
  exact Reader.map_eq_some_iff.2 ⟨l, hl.read_eq h hr, rfl⟩

/-- An expression in parentheses is read back as an operand, if the expression is read back. -/
theorem readAround_parenthesized {inner : Reader Expression} {e : Expression}
    {opening closing : Gap}
    (hread : ∀ {u w}, u.length < s.length → r.length < w.length → Spells e.tokens u w →
      Follows [')', ';'] w → inner u = some (e, w))
    (h : Spells (parenthesized opening e closing).tokens s r) :
    readAround inner s = some (.parenthesized opening e closing, r) := by
  rw [tokens_parenthesized] at h
  obtain ⟨m₁, h₁, h⟩ := h
  obtain ⟨m₂, h₂, m₃, h₃, rfl⟩ := spells_append_iff.1 h
  have hlt₁ := h₁.length_lt (by simp)
  have hlt₃ := h₃.length_lt (by simp)
  rw [readAround, if_pos (nextIs_singleton_iff.2 (h₁.next?_eq rfl))]
  simp only [Reader.bind_eq_some_iff, Reader.pure_eq_some_iff]
  exact ⟨opening, m₁, h₁.mark_eq rfl, e, m₂,
    hread (by omega) (by omega) h₂ ⟨')', by decide, h₃.next?_eq rfl⟩, closing, m₃,
    h₃.mark_eq rfl, rfl, rfl⟩

/-- A valid operand is read back, at a depth that grows with its length. -/
theorem Valid.readWithin_eq {o : Operand} (ho : o.Valid lead) {depth : Nat}
    (hdepth : s.length ≤ depth + r.length) (h : Spells o.tokens s r) (hr : Follows valueEnds r) :
    readWithin depth s = some (o, r) := by
  -- by induction on the depth, not on the operand: the operands inside parentheses are looked at as
  -- a row, and those of a row are not the immediate parts of an expression
  induction depth generalizing s r o lead with
  | zero =>
    cases o with
    | literal l => exact readAround_literal failure ho (by simpa using h) hr
    | parenthesized opening e closing =>
      rw [tokens_parenthesized] at h
      obtain ⟨m, hopening, htail⟩ := h
      have hlt := hopening.length_lt (by simp)
      have hle := htail.length_le
      omega
  | succ depth ih =>
    cases o with
    | literal l => exact readAround_literal _ ho (by simpa using h) hr
    | parenthesized opening e closing =>
      obtain ⟨first, steps, rfl⟩ := e.exists_eq_join
      rw [Valid, Expression.valid_join_iff, Expression.Valid] at ho
      have hvalid : ∀ o ∈ first :: steps.map Prod.snd, o.Valid [] := by
        rw [List.forall_mem_cons, List.forall_mem_map]
        exact ⟨ho.1, fun step hstep ↦ (ho.2 step hstep).2⟩
      refine readAround_parenthesized ?_ h
      intro u w hu hw hspell hfollow
      refine Expression.readAround_join ho.2 ?_ hspell hfollow
      intro o ho' u' w' hu' hw' hspell' hfollow'
      exact ih (hvalid o ho') (by omega) hspell' hfollow'

/-- An operand is valid where more words are taken, if none of them is read there. -/
theorem Valid.of_oneOf_eq_none {words : List String} {o : Operand} (ho : o.Valid [])
    (h : Spells o.tokens s r) (hnone : Token.oneOf words s = none) : o.Valid words := by
  cases o with
  | literal l => exact Literal.Valid.of_oneOf_eq_none ho (by simpa using h) hnone
  | parenthesized => exact ho

/-- An operand does not start with a word that is taken. -/
theorem Valid.oneOf_eq_none {words : List String} {o : Operand} (ho : o.Valid words)
    (h : Spells o.tokens s r) (hdisjoint : ∀ w ∈ words, w ∉ literalWords) :
    Token.oneOf words s = none := by
  cases o with
  | literal l => exact Literal.Valid.oneOf_eq_none ho (by simpa using h) hdisjoint
  | parenthesized opening e closing =>
    rw [tokens_parenthesized] at h
    obtain ⟨m, hlead, -⟩ := h
    exact wordWhere_eq_none (by simpa [hlead.next?_eq rfl] using (by decide))

end Operand

/-! ### Expressions -/

namespace Expression

theorem sound_read : Sound read tokens (Valid []) := by
  intro s e r h
  exact sound_readAround (Operand.sound_readWithin s.length) h

/-- A valid expression is read back before a parenthesis or a semicolon. -/
theorem Valid.read_eq {e : Expression} (he : e.Valid lead) (h : Spells e.tokens s r)
    (hr : Follows [')', ';'] r) : read s = some (e, r) := by
  obtain ⟨first, steps, rfl⟩ := e.exists_eq_join
  obtain ⟨hfirst, hsteps⟩ := valid_join_iff.1 he
  refine readAround_join hsteps ?_ h hr
  intro o ho u w hu hw hspell hfollow
  rcases List.mem_cons.1 ho with rfl | ho
  · exact Operand.Valid.readWithin_eq hfirst (by omega) hspell hfollow
  · obtain ⟨step, hstep, rfl⟩ := List.mem_map.1 ho
    exact Operand.Valid.readWithin_eq (hsteps step hstep).2 (by omega) hspell hfollow

/-- An expression is valid where more words are taken, if none of them is read there. -/
theorem Valid.of_oneOf_eq_none {words : List String} {e : Expression} (he : e.Valid [])
    (h : Spells e.tokens s r) (hnone : Token.oneOf words s = none) : e.Valid words := by
  obtain ⟨first, steps, rfl⟩ := e.exists_eq_join
  obtain ⟨hfirst, hsteps⟩ := valid_join_iff.1 he
  rw [tokens_join, tokens_operand] at h
  obtain ⟨m, hspell, -⟩ := spells_append_iff.1 h
  exact valid_join_iff.2 ⟨Operand.Valid.of_oneOf_eq_none hfirst hspell hnone, hsteps⟩

/-- An expression does not start with a word that is taken. -/
theorem Valid.oneOf_eq_none {words : List String} {e : Expression} (he : e.Valid words)
    (h : Spells e.tokens s r) (hdisjoint : ∀ w ∈ words, w ∉ literalWords) :
    Token.oneOf words s = none := by
  obtain ⟨first, steps, rfl⟩ := e.exists_eq_join
  rw [tokens_join, tokens_operand] at h
  obtain ⟨m, hspell, -⟩ := spells_append_iff.1 h
  exact Operand.Valid.oneOf_eq_none (valid_join_iff.1 he).1 hspell hdisjoint

end Expression

end GrammarExport.Syntax
