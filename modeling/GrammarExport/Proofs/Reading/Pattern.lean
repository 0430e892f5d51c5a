import GrammarExport.Proofs.Reading.Token
import GrammarExport.Syntax.Expression

/-!
# Numbers, strings and operators

The readers of numbers, strings and operators find exactly the tokens of the patterns: the longest
digits, and a string up to its closing quote. That digits end where they do is part of what is
known of the text after them; a string says itself where it ends.
-/

namespace GrammarExport.Syntax

variable {s r w : List Char} {c : Char} {t : Lexeme}

/-! ### Numbers -/

theorem IsDigits.head (h : IsDigits w) : ∃ c u, w = c :: u ∧ isDigit c = true := by
  obtain ⟨c, u, rfl⟩ := List.exists_cons_of_ne_nil h.1
  exact ⟨c, u, rfl, h.2 c (by simp)⟩

/-- The digits that are cut off a text are the longest run: no digit follows them. -/
theorem splitDigits?_eq_some_iff :
    splitDigits? s = some (w, r) ↔
      s = w ++ r ∧ IsDigits w ∧ ∀ d ∈ r.head?, isDigit d = false := by
  rcases s with - | ⟨c, s⟩
  · constructor
    · intro h
      simp [splitDigits?] at h
    · rintro ⟨hs, hw, -⟩
      exact absurd (List.append_eq_nil_iff.1 hs.symm).1 hw.1
  · rw [splitDigits?, cutRun_eq_some_iff]
    constructor
    · rintro ⟨hs, ⟨u, rfl, hc, hu⟩, hr⟩
      exact ⟨hs, ⟨by simp, by simpa using ⟨hc, hu⟩⟩, hr⟩
    · rintro ⟨hs, hw, hr⟩
      obtain ⟨d, u, rfl, hd⟩ := hw.head
      obtain rfl : c = d := List.head_eq_of_cons_eq hs
      exact ⟨hs, ⟨u, rfl, hd, fun e he ↦ hw.2 e (by simp [he])⟩, hr⟩

/-- Without a minus sign, an integer is a run of digits. -/
theorem splitInteger?_of_ne (h : c ≠ '-') : splitInteger? (c :: s) = splitDigits? (c :: s) := by
  rw [splitInteger?]
  simpa using h

/-- An integer is cut off a text up to the first character that is not a digit. -/
theorem splitInteger?_eq_some_iff :
    splitInteger? s = some (w, r) ↔
      s = w ++ r ∧ IsInteger w ∧ ∀ d ∈ r.head?, isDigit d = false := by
  constructor
  · intro h
    rcases s with - | ⟨c, s⟩
    · simp [splitInteger?, splitDigits?] at h
    · by_cases hc : c = '-'
      · subst hc
        simp only [splitInteger?, Option.map_eq_some_iff, Prod.exists, Prod.mk.injEq] at h
        obtain ⟨ds, m, hds, rfl, rfl⟩ := h
        obtain ⟨rfl, hdigits, hr⟩ := splitDigits?_eq_some_iff.1 hds
        exact ⟨rfl, ⟨ds, hdigits, .inr rfl⟩, hr⟩
      · rw [splitInteger?_of_ne hc] at h
        obtain ⟨hs, hdigits, hr⟩ := splitDigits?_eq_some_iff.1 h
        exact ⟨hs, ⟨w, hdigits, .inl rfl⟩, hr⟩
  · rintro ⟨rfl, ⟨ds, hds, rfl | rfl⟩, hr⟩
    · obtain ⟨c, u, rfl, hc⟩ := hds.head
      have hne : c ≠ '-' := by
        rintro rfl
        exact absurd hc (by decide)
      rw [List.cons_append, splitInteger?_of_ne hne]
      exact splitDigits?_eq_some_iff.2 ⟨rfl, hds, hr⟩
    · simp [splitInteger?, splitDigits?_eq_some_iff.2 ⟨rfl, hds, hr⟩]

theorem IsInteger.head (h : IsInteger w) :
    ∃ c u, w = c :: u ∧ (isDigit c = true ∨ c = '-') := by
  obtain ⟨ds, hds, rfl | rfl⟩ := h
  · obtain ⟨c, u, rfl, hc⟩ := hds.head
    exact ⟨c, u, rfl, .inl hc⟩
  · exact ⟨'-', ds, rfl, .inr rfl⟩

/-- Where a number starts there is no word. -/
theorem not_startsWord_of_number (h : isDigit c = true ∨ c = '-') : startsWord c = false := by
  rcases h with h | rfl
  · rw [Bool.eq_false_iff]
    intro hword
    rw [isDigit_eq_false_of_startsWord hword] at h
    exact absurd h (by decide)
  · decide

theorem IsInteger.not_startsWord (h : IsInteger w) : ∀ c ∈ w.head?, startsWord c = false := by
  intro c hc
  obtain ⟨d, u, rfl, hd⟩ := h.head
  obtain rfl : d = c := by simpa using hc
  exact not_startsWord_of_number hd

/-- The reader of integers finds the integer at the front of a text, which ends where its digits
do. -/
theorem integer_eq_some_iff :
    Token.integer s = some (t, r) ↔
      t.Leads s r ∧ IsInteger t.text ∧ ∀ d ∈ r.head?, isDigit d = false := by
  rw [Token.integer, lexeme_eq_some_iff splitInteger?_eq_some_iff]
  rintro w r ⟨hw, -⟩ c hc hword
  rw [hw.not_startsWord c hc] at hword
  exact absurd hword (by decide)

/-- A fraction is a point with digits after it, as many as there are. -/
theorem splitFraction?_eq_some_iff :
    splitFraction? s = some (w, r) ↔
      s = w ++ r ∧ (∃ ds, IsDigits ds ∧ w = '.' :: ds) ∧ ∀ d ∈ r.head?, isDigit d = false := by
  constructor
  · intro h
    rw [splitFraction?.eq_def] at h
    split at h
    · rename_i u
      simp only [Option.map_eq_some_iff, Prod.exists, Prod.mk.injEq] at h
      obtain ⟨ds, m, hds, rfl, rfl⟩ := h
      obtain ⟨rfl, hdigits, hr⟩ := splitDigits?_eq_some_iff.1 hds
      exact ⟨rfl, ⟨ds, hdigits, rfl⟩, hr⟩
    · simp at h
  · rintro ⟨rfl, ⟨ds, hds, rfl⟩, hr⟩
    simp [splitFraction?, splitDigits?_eq_some_iff.2 ⟨rfl, hds, hr⟩]

/-! ### Strings -/

/-- The rest of a string after its opening quote. -/
inductive StringTail : List Char → Prop
  | close : StringTail ['"']
  | escape {c : Char} {u : List Char} : c ≠ '\n' → StringTail u → StringTail ('\\' :: c :: u)
  | plain {c : Char} {u : List Char} : c ≠ '"' → c ≠ '\\' → StringTail u → StringTail (c :: u)

/-- Characters that are neither quotes nor backslashes can be put before the rest of a string. -/
theorem StringTail.append_run {p u : List Char} (hu : StringTail u)
    (hp : ∀ c ∈ p, c ≠ '"' ∧ c ≠ '\\') : StringTail (p ++ u) := by
  induction p with
  | nil => exact hu
  | cons c p ih =>
    have hc := hp c (by simp)
    exact .plain hc.1 hc.2 (ih fun d hd ↦ hp d (by simp [hd]))

/-- A string is an opening quote and the rest of a string: runs of plain characters between escapes
come to the same as single characters and escapes. -/
theorem isString_iff : IsString w ↔ ∃ u, w = '"' :: u ∧ StringTail u := by
  constructor
  · rintro ⟨ps, hps, rfl⟩
    refine ⟨_, rfl, ?_⟩
    induction ps with
    | nil => exact .close
    | cons p ps ih =>
      have htail := ih fun q hq ↦ hps q (by simp [hq])
      rw [List.flatten_cons, List.append_assoc]
      rcases hps p (by simp) with ⟨-, hplain⟩ | ⟨c, hc, rfl⟩
      · exact htail.append_run hplain
      · exact .escape hc htail
  · rintro ⟨u, rfl, hu⟩
    induction hu with
    | close => exact ⟨[], by simp, rfl⟩
    | @escape c u hc hu ih =>
      obtain ⟨ps, hps, heq⟩ := ih
      refine ⟨['\\', c] :: ps, ?_, by simp [List.tail_eq_of_cons_eq heq]⟩
      rintro p (_ | ⟨_, hp⟩)
      · exact .inr ⟨c, hc, rfl⟩
      · exact hps p hp
    | @plain c u hq hb hu ih =>
      obtain ⟨ps, hps, heq⟩ := ih
      refine ⟨[c] :: ps, ?_, by simp [List.tail_eq_of_cons_eq heq]⟩
      rintro p (_ | ⟨_, hp⟩)
      · exact .inl ⟨by simp, by simpa using ⟨hq, hb⟩⟩
      · exact hps p hp

theorem IsString.head (h : IsString w) : ∃ u, w = '"' :: u := by
  obtain ⟨u, rfl, -⟩ := isString_iff.1 h
  exact ⟨u, rfl⟩

/-- A plain character is taken off as it is; the null character ends the reading. -/
theorem splitString?_plain {u : List Char} (hq : c ≠ '"') (hb : c ≠ '\\') (hn : c ≠ '\x00') :
    splitString? (c :: u) = (splitString? u).map fun (body, r) ↦ (c :: body, r) := by
  rw [splitString?]
  · simp [hb, hn]
  · simpa using hq
  · exact fun _ _ h _ ↦ hb h

/-- What is cut off is the rest of a string up to the quote that closes it. No condition on the text
after it is needed, and there is no null character in it. -/
theorem splitString?_eq_some_iff :
    splitString? s = some (w, r) ↔ s = w ++ r ∧ StringTail w ∧ '\x00' ∉ w := by
  constructor
  · intro h
    fun_induction splitString? s generalizing w with
    | case1 => simp at h
    | case2 u =>
      simp only [Option.some.injEq, Prod.mk.injEq] at h
      obtain ⟨rfl, rfl⟩ := h
      exact ⟨rfl, .close, by decide⟩
    | case3 c u hc ih =>
      simp only [Option.map_eq_some_iff, Prod.exists, Prod.mk.injEq] at h
      obtain ⟨body, m, hbody, rfl, rfl⟩ := h
      obtain ⟨rfl, htail, hnul⟩ := ih hbody
      simp only [inComment, Bool.and_eq_true, bne_iff_ne] at hc
      refine ⟨rfl, .escape hc.1 htail, ?_⟩
      simpa [hnul] using fun h ↦ hc.2 h.symm
    | case4 => simp at h
    | case5 => simp at h
    | case6 c u hq hb hc ih =>
      simp only [Option.map_eq_some_iff, Prod.exists, Prod.mk.injEq] at h
      obtain ⟨body, m, hbody, rfl, rfl⟩ := h
      obtain ⟨rfl, htail, hnul⟩ := ih hbody
      rw [not_or] at hc
      refine ⟨rfl, .plain (by simpa using hq) hc.1 htail, ?_⟩
      simpa [hnul] using fun h ↦ hc.2 h.symm
  · rintro ⟨rfl, hw, hnul⟩
    induction hw with
    | close => simp [splitString?]
    | @escape c u hc hu ih =>
      have hcn : c ≠ '\x00' := fun h ↦ hnul (by simp [h])
      have hin : inComment c = true := by simp [inComment, hc, hcn]
      simp [splitString?, hin, ih fun h ↦ hnul (by simp [h])]
    | @plain c u hq hb hu ih =>
      have hcn : c ≠ '\x00' := fun h ↦ hnul (by simp [h])
      rw [List.cons_append, splitString?_plain hq hb hcn, ih fun h ↦ hnul (by simp [h])]
      rfl

/-- The reader of strings finds the string at the front of a text, unless there is a null character
in it. -/
theorem string_eq_some_iff :
    Token.string s = some (t, r) ↔ t.Leads s r ∧ IsString t.text ∧ '\x00' ∉ t.text := by
  have hquote : ∀ {w}, IsString w → ∀ c ∈ w.head?, startsWord c = false := by
    intro w hw c hc
    obtain ⟨u, rfl⟩ := hw.head
    obtain rfl : '"' = c := by simpa using hc
    decide
  rw [Token.string, lexeme_eq_some_iff (P := fun w _ ↦ IsString w ∧ '\x00' ∉ w)]
  · intro s w r
    constructor
    · intro h
      split at h
      · simp only [Option.map_eq_some_iff, Prod.exists, Prod.mk.injEq] at h
        obtain ⟨body, m, hbody, rfl, rfl⟩ := h
        obtain ⟨rfl, htail, hnul⟩ := splitString?_eq_some_iff.1 hbody
        exact ⟨rfl, isString_iff.2 ⟨body, rfl, htail⟩, by simpa using hnul⟩
      · simp at h
    · rintro ⟨rfl, hw, hnul⟩
      obtain ⟨u, rfl, htail⟩ := isString_iff.1 hw
      have hu : '\x00' ∉ u := fun h ↦ hnul (by simp [h])
      simp [splitString?_eq_some_iff.2 ⟨rfl, htail, hu⟩]
  · intro w r hw c hc hword
    rw [hquote hw.1 c hc] at hword
    exact absurd hword (by decide)

/-! ### Operators -/

theorem operator_eq_some_iff :
    Token.lexeme Expression.splitOperator? s = some (t, r) ↔
      t.Leads s r ∧ ∃ c, Expression.isOperator c = true ∧ t.text = [c] := by
  rw [lexeme_eq_some_iff (P := fun w _ ↦ ∃ c, Expression.isOperator c = true ∧ w = [c])]
  · intro s w r
    rcases s with - | ⟨c, s⟩
    · simp only [Expression.splitOperator?, reduceCtorEq, false_iff]
      rintro ⟨hs, c, -, rfl⟩
      simp at hs
    · rw [Expression.splitOperator?]
      constructor
      · intro h
        split at h
        · rename_i hc
          simp only [Option.some.injEq, Prod.mk.injEq] at h
          obtain ⟨rfl, rfl⟩ := h
          exact ⟨rfl, c, hc, rfl⟩
        · simp at h
      · rintro ⟨hs, d, hd, rfl⟩
        simp only [List.cons_append, List.nil_append, List.cons.injEq] at hs
        obtain ⟨rfl, rfl⟩ := hs
        rw [if_pos hd]
  · rintro w r ⟨d, hd, rfl⟩ c hc hword
    obtain rfl : d = c := by simpa using hc
    simp only [Expression.isOperator, Bool.or_eq_true, beq_iff_eq] at hd
    rcases hd with ((rfl | rfl) | rfl) | rfl <;> exact absurd hword (by decide)

end GrammarExport.Syntax
