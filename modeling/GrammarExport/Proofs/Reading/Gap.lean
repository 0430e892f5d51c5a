import GrammarExport.Syntax.Token

/-!
# Where a gap ends

`Gap.split` cuts the longest gap off a text. Whether a given gap, written before a given text, is
the one that is cut off there is a condition on its pieces and on the text (`Gap.StandsBefore`,
`Gap.split_text_append_iff`): blanks are blanks, a comment goes on to the end of its line, and the
text does not start with a gap itself. Before a token that leaves only one condition, that every
comment is followed by a line break (`Gap.Closed`, `Gap.standsBefore_iff_closed`).
-/

/-! ### Where a run of elements ends -/

/-- A list is the longest run at the start of a longer one if it is a run and what follows it does
not go on with it. -/
theorem List.takeWhile_append_eq_left_iff {α : Type} {p : α → Bool} {l m : List α} :
    (l ++ m).takeWhile p = l ↔ (∀ a ∈ l, p a = true) ∧ ∀ a ∈ m.head?, p a = false := by
  induction l with
  | nil => cases m <;> simp [List.takeWhile_cons]
  | cons a l ih =>
    rw [List.cons_append, List.takeWhile_cons]
    by_cases ha : p a = true
    · simp only [ha, if_true, List.cons.injEq, true_and, ih, List.mem_cons, forall_eq_or_imp]
    · simp [ha]

/-- What is left after the longest run at the start. -/
theorem List.dropWhile_append_of_takeWhile_eq {α : Type} {p : α → Bool} {l m : List α}
    (h : (l ++ m).takeWhile p = l) : (l ++ m).dropWhile p = m := by
  have hsplit := List.takeWhile_append_dropWhile (p := p) (l := l ++ m)
  rw [h] at hsplit
  exact List.append_cancel_left hsplit

namespace GrammarExport.Syntax

namespace Gap

theorem split_blank {c : Char} (h : isBlank c = true) (s : List Char) :
    split (c :: s) = (.blank c :: (split s).1, (split s).2) := by
  rw [split.eq_def]
  split
  · rename_i heq
    simp at heq
  · rename_i heq
    simp only [List.cons.injEq] at heq
    rw [heq.1] at h
    exact absurd h (by decide)
  · rename_i heq
    simp only [List.cons.injEq] at heq
    obtain ⟨rfl, rfl⟩ := heq
    simp [h]

/-- A comment at the front belongs to the gap, up to the end of its line. -/
theorem split_comment (s : List Char) :
    split ('/' :: '/' :: s) =
      (.comment (s.takeWhile inComment) :: (split (s.dropWhile inComment)).1,
        (split (s.dropWhile inComment)).2) := by
  rw [split]

theorem isBlank_of_split {s r : List Char} {c : Char} {g : Gap}
    (h : split s = (.blank c :: g, r)) : isBlank c = true := by
  rw [split.eq_def] at h
  split at h
  · simp at h
  · simp at h
  · split at h
    · rename_i hc
      simp only [Prod.mk.injEq, List.cons.injEq, Trivia.blank.injEq] at h
      rw [← h.1.1]
      exact hc
    · simp at h

/-- There is no gap where a text starts with neither a blank nor a comment. -/
theorem split_eq_self_iff {s : List Char} : split s = ([], s) ↔ startsWithGap s = false := by
  constructor
  · intro h
    simpa [h] using split_rest s
  · intro h
    fun_cases split s with
    | case1 => rfl
    | case2 => simp [startsWithGap] at h
    | case3 c rest hne hc => simp_all [startsWithGap]
    | case4 => rfl

/-- A gap written before a text is the longest gap of the whole. -/
def StandsBefore : Gap → List Char → Prop
  | [], s => startsWithGap s = false
  | .blank c :: g, s => isBlank c = true ∧ StandsBefore g s
  | .comment body :: g, s =>
    (∀ c ∈ body, inComment c = true) ∧ (∀ c ∈ (text g ++ s).head?, inComment c = false) ∧
      StandsBefore g s

/-- A gap is found again before a text exactly if it stands before it: its comments end there, and
none of the text belongs to it. -/
theorem split_text_append_iff {g : Gap} {s : List Char} :
    split (text g ++ s) = (g, s) ↔ g.StandsBefore s := by
  induction g with
  | nil => exact split_eq_self_iff
  | cons piece g ih =>
    cases piece with
    | blank c =>
      show split (c :: (text g ++ s)) = _ ↔ _
      by_cases hc : isBlank c = true
      · rw [split_blank hc, StandsBefore, ← ih]
        simp only [hc, true_and, Prod.ext_iff, List.cons.injEq]
      · rw [StandsBefore]
        simp only [hc, Bool.false_eq_true, false_and, iff_false]
        exact fun h ↦ hc (isBlank_of_split h)
    | comment body =>
      have htext : text (.comment body :: g) ++ s = '/' :: '/' :: (body ++ (text g ++ s)) := by
        simp [text, Trivia.text]
      rw [htext, split_comment, StandsBefore, ← ih, ← and_assoc,
        ← List.takeWhile_append_eq_left_iff]
      simp only [Prod.ext_iff, List.cons.injEq, Trivia.comment.injEq]
      constructor
      · rintro ⟨⟨hbody, hg⟩, hs⟩
        rw [List.dropWhile_append_of_takeWhile_eq hbody] at hg hs
        exact ⟨hbody, hg, hs⟩
      · rintro ⟨hbody, hg, hs⟩
        rw [List.dropWhile_append_of_takeWhile_eq hbody]
        exact ⟨⟨hbody, hg⟩, hs⟩

/-- The gap that is cut off a text stands before what is left. -/
theorem standsBefore_of_split {s r : List Char} {g : Gap} (h : split s = (g, r)) :
    g.StandsBefore r := by
  rw [← split_text_append_iff]
  have hs := text_split s
  rw [h] at hs
  rw [hs, h]

/-- A gap that is a gap before any token: a line break follows each of its comments. -/
def Closed : Gap → Prop
  | [] => True
  | .blank c :: g => isBlank c = true ∧ Closed g
  | .comment body :: g =>
    (∀ c ∈ body, inComment c = true) ∧ (∃ g', g = .blank '\n' :: g') ∧ Closed g

theorem Closed.standsBefore {g : Gap} {s : List Char} (h : g.Closed)
    (hs : startsWithGap s = false) : g.StandsBefore s := by
  induction g with
  | nil => exact hs
  | cons piece g ih =>
    cases piece with
    | blank c => exact ⟨h.1, ih h.2⟩
    | comment body =>
      obtain ⟨hbody, ⟨g', rfl⟩, hg⟩ := h
      refine ⟨hbody, ?_, ih hg⟩
      intro c hc
      have hnewline : c = '\n' := by simpa [text, Trivia.text] using hc.symm
      rw [hnewline]
      decide

/-- The only blank that ends a comment is the line break. -/
theorem eq_newline_of_isBlank {c : Char} (hblank : isBlank c = true)
    (hcomment : inComment c = false) : c = '\n' := by
  have hnull : c ≠ '\x00' := by
    rintro rfl
    exact absurd hblank (by decide)
  simpa [inComment, hnull] using hcomment

/-- The gaps that stand before a token are the closed ones: what a token starts with can stand in a
comment, so that only a line break ends a comment before it. -/
theorem standsBefore_iff_closed {g : Gap} {c : Char} {s : List Char} (hc : inComment c = true)
    (hs : startsWithGap (c :: s) = false) : g.StandsBefore (c :: s) ↔ g.Closed := by
  constructor
  · intro h
    induction g with
    | nil => trivial
    | cons piece g ih =>
      cases piece with
      | blank b => exact ⟨h.1, ih h.2⟩
      | comment body =>
        obtain ⟨hbody, hnext, hg⟩ := h
        refine ⟨hbody, ?_, ih hg⟩
        rcases g with - | ⟨b | body', g⟩
        · exact absurd (hnext c rfl) (by simp [hc])
        · rw [eq_newline_of_isBlank hg.1 (hnext b rfl)]
          exact ⟨g, rfl⟩
        · exact absurd (hnext '/' rfl) (by decide)
  · intro h
    exact h.standsBefore hs

end Gap

end GrammarExport.Syntax
