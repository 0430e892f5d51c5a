import GrammarExport.Text.Reader

/-!
# What readers give

When a reader that is put together from others succeeds, in terms of the readers it is put together
from. A successful run of a `do` block is taken apart step by step with `Reader.bind_eq_some_iff`
and `Reader.pure_eq_some_iff`.
-/

namespace GrammarExport

/-- Taking a beginning off a text leaves the rest, and fails only where the text starts in another
way. -/
theorem dropPrefix?_eq_some_iff {m s r : List Char} : dropPrefix? m s = some r ↔ s = m ++ r := by
  fun_induction dropPrefix? m s with
  | case1 s => simp
  | case2 => simp
  | case3 c m s ih => simp [ih]
  | case4 c m d s hne =>
    simp only [List.cons_append, List.cons.injEq, reduceCtorEq, false_iff, not_and]
    intro h
    exact absurd h.symm hne

namespace Reader

variable {α β : Type} {s r : List Char}

/-- A reader that goes on with another one succeeds if both do, the second where the first
stopped. -/
theorem bind_eq_some_iff {p : Reader α} {f : α → Reader β} {b : β} :
    (p >>= f) s = some (b, r) ↔ ∃ a m, p s = some (a, m) ∧ f a m = some (b, r) := by
  show (p s).bind (fun x ↦ f x.1 x.2) = _ ↔ _
  rw [Option.bind_eq_some_iff]
  simp

theorem bind_eq_none_of_left {p : Reader α} {f : α → Reader β} (h : p s = none) :
    (p >>= f) s = none := by
  show (p s).bind (fun x ↦ f x.1 x.2) = _
  rw [h, Option.bind_none]

theorem pure_eq_some_iff {a b : α} :
    (pure a : Reader α) s = some (b, r) ↔ a = b ∧ s = r := by
  show some (a, s) = some (b, r) ↔ _
  simp

theorem failure_eq_none : (failure : Reader α) s = none := rfl

theorem get_eq_some_iff {t : List Char} :
    (get : Reader (List Char)) s = some (t, r) ↔ s = t ∧ s = r := by
  show some (s, s) = some (t, r) ↔ _
  simp

/-- Changing what is read does not change where the reader stops. -/
theorem map_eq_some_iff {f : α → β} {p : Reader α} {b : β} :
    (f <$> p) s = some (b, r) ↔ ∃ a, p s = some (a, r) ∧ f a = b := by
  show (p s).bind (fun x ↦ some (f x.1, x.2)) = _ ↔ _
  simp only [Option.bind_eq_some_iff, Option.some.injEq, Prod.mk.injEq, Prod.exists]
  constructor
  · rintro ⟨a, m, hp, rfl, rfl⟩
    exact ⟨a, hp, rfl⟩
  · rintro ⟨a, hp, rfl⟩
    exact ⟨a, r, hp, rfl, rfl⟩

/-- An option is taken wherever its reader succeeds: there is no going back to read nothing
instead. -/
theorem option_eq_some_some_iff {p : Reader α} {a : α} :
    option p s = some (some a, r) ↔ p s = some (a, r) := by
  rw [option]
  rcases h : p s with - | ⟨b, m⟩ <;> simp

/-- An option is left out only where its reader fails, and then nothing is taken off the text. -/
theorem option_eq_some_none_iff {p : Reader α} :
    option p s = some (none, r) ↔ p s = none ∧ s = r := by
  rw [option]
  rcases h : p s with - | ⟨b, m⟩ <;> simp

/-- A repetition is empty only where its item cannot be read. -/
theorem many_eq_nil_iff {p : Reader α} : many p s = some ([], r) ↔ p s = none ∧ s = r := by
  rw [many]
  rcases h : p s with - | ⟨a, m⟩
  · simp
  · by_cases hlt : m.length < s.length <;> simp [hlt]

/-- A repetition starts with an item that takes something off the text, and goes on from there. -/
theorem many_eq_cons_iff {p : Reader α} {a : α} {as : List α} :
    many p s = some (a :: as, r) ↔
      ∃ m, p s = some (a, m) ∧ m.length < s.length ∧ many p m = some (as, r) := by
  rw [many]
  rcases h : p s with - | ⟨b, m⟩
  · simp
  · by_cases hlt : m.length < s.length
    · simp only [hlt, if_true, Option.map_eq_some_iff, Prod.exists, Prod.mk.injEq,
        List.cons.injEq, Option.some.injEq]
      constructor
      · rintro ⟨_, _, hm, ⟨rfl, rfl⟩, rfl⟩
        exact ⟨m, ⟨rfl, rfl⟩, hlt, hm⟩
      · rintro ⟨_, ⟨rfl, rfl⟩, -, hm⟩
        exact ⟨as, r, hm, ⟨rfl, rfl⟩, rfl⟩
    · simp only [hlt, if_false, reduceCtorEq, Option.some.injEq, Prod.mk.injEq, false_iff,
        not_exists, not_and, and_imp]
      rintro _ rfl rfl hlt'
      exact absurd hlt' hlt

end Reader

end GrammarExport
