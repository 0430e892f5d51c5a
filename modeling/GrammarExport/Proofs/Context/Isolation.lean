import GrammarExport.Proofs.Context.Call

/-!
# Contexts and names do not interfere

Any number of contexts may be in use at once, and calls on them may come in any order
(`Context.callOn`). What happens to one name in one context is decided by the calls about this name
in this context alone: they are answered as if there were no others, and leave the same entries
behind (`Context.runs_isolated`). It follows that two neighbouring calls can change places unless
they are about the same name in the same context.

The argument is the one for a single context: the slot of a name in a context is visible among all
the contexts (`Context.shows_slotOf`), and contexts whose slots agree are the same.
-/

namespace GrammarExport.Context

variable {ι : Type*} [DecidableEq ι]

/-- A call on one of several contexts. -/
def callOn (contexts : ι → Context) (x : ι × Call) : (ι → Context) × Reply :=
  let (context, reply) := (contexts x.1).call x.2
  (Function.update contexts x.1 context, reply)

/-- The call, if it is one about a name in a certain context. -/
def aboutIn (i : ι) (b : String) (x : ι × Call) : Option Call :=
  if x.1 = i ∧ x.2.binding = b then some x.2 else none

/-- A call is about a binding in a context if both are its own. -/
theorem aboutIn_eq_some_iff {i : ι} {b : String} {x : ι × Call} {y : Call} :
    aboutIn i b x = some y ↔ x = (i, y) ∧ y.binding = b := by
  obtain ⟨j, z⟩ := x
  simp only [aboutIn, Option.ite_none_right_eq_some, Option.some.injEq, Prod.mk.injEq]
  constructor
  · rintro ⟨⟨hi, hb⟩, rfl⟩
    exact ⟨⟨hi, rfl⟩, hb⟩
  · rintro ⟨⟨hi, rfl⟩, hb⟩
    exact ⟨⟨hi, hb⟩, rfl⟩

/-- The slot of a name in one of several contexts is visible among them. -/
theorem shows_slotOf (i : ι) (b : String) :
    Run.Shows callOn Slot.call (fun contexts ↦ (contexts i).slot b) (aboutIn i b) := by
  refine ⟨fun contexts x y hpick ↦ ?_, fun contexts x hpick ↦ ?_⟩
  · obtain ⟨rfl, hb⟩ := aboutIn_eq_some_iff.1 hpick
    simp only [callOn, Function.update_self]
    exact (shows_slot b).picked (contexts i) y y (if_pos hb)
  · simp only [callOn]
    by_cases hi : i = x.1
    · have hb : x.2.binding ≠ b := by
        intro hb
        simp [aboutIn, hi, hb] at hpick
      rw [hi, Function.update_self]
      exact (shows_slot b).other (contexts x.1) x.2 (if_neg hb)
    · rw [Function.update_of_ne hi]

/-- The calls about one name in one context are answered as if there were no others, and leave the
same entries behind. -/
theorem run_aboutIn (contexts : ι → Context) (calls : List (ι × Call)) (i : ι) (b : String) :
    (Run.transcript callOn contexts calls).filterMap (Run.pickExchange (aboutIn i b)) =
        Run.transcript call (contexts i) (calls.filterMap (aboutIn i b)) ∧
      (Run.after callOn contexts calls i).slot b =
        (Run.after call (contexts i) (calls.filterMap (aboutIn i b))).slot b := by
  have hall : ∀ x ∈ calls.filterMap (aboutIn i b), x.about b = some x := by
    intro x hx
    obtain ⟨y, -, hy⟩ := List.mem_filterMap.1 hx
    exact if_pos (aboutIn_eq_some_iff.1 hy).2
  have hself : (calls.filterMap (aboutIn i b)).filterMap (Call.about b) =
      calls.filterMap (aboutIn i b) := by
    rw [List.filterMap_congr hall, List.filterMap_some]
  -- Both runs show the same slot, which is where the calls about the name are answered.
  constructor
  · calc (Run.transcript callOn contexts calls).filterMap (Run.pickExchange (aboutIn i b))
        = Run.transcript Slot.call ((contexts i).slot b) (calls.filterMap (aboutIn i b)) :=
          (shows_slotOf i b).transcript contexts calls
      _ = (Run.transcript call (contexts i) (calls.filterMap (aboutIn i b))).filterMap
            (Run.pickExchange (Call.about b)) := by rw [(shows_slot b).transcript, hself]
      _ = Run.transcript call (contexts i) (calls.filterMap (aboutIn i b)) :=
          Run.filterMap_pickExchange hall (contexts i)
  · rw [(shows_slotOf i b).view_after contexts calls, (shows_slot b).view_after, hself]

/-! ### Changing places -/

section Swap

variable {x y : ι × Call}

/-- Calls about different bindings or in different contexts are not about the same one. -/
theorem aboutIn_eq_none_or (h : (x.1, x.2.binding) ≠ (y.1, y.2.binding)) (i : ι) (b : String) :
    aboutIn i b x = none ∨ aboutIn i b y = none := by
  by_contra hboth
  simp only [not_or, aboutIn, ite_eq_right_iff, reduceCtorEq, imp_false, not_not] at hboth
  obtain ⟨⟨hi, hb⟩, hi', hb'⟩ := hboth
  exact h (by rw [hi, hb, hi', hb'])

/-- A call does not change the answer to a call about another name or in another context. -/
theorem callOn_answer (contexts : ι → Context) (h : (x.1, x.2.binding) ≠ (y.1, y.2.binding)) :
    (callOn (callOn contexts x).1 y).2 = (callOn contexts y).2 := by
  have hpick : aboutIn y.1 y.2.binding y = some y.2 := if_pos ⟨rfl, rfl⟩
  have hother : aboutIn y.1 y.2.binding x = none :=
    (aboutIn_eq_none_or h _ _).resolve_right (by simp [hpick])
  have hslot := shows_slotOf y.1 y.2.binding
  have hleft := hslot.picked (callOn contexts x).1 y y.2 hpick
  rw [hslot.other contexts x hother, hslot.picked contexts y y.2 hpick] at hleft
  exact (congrArg Prod.snd hleft).symm

/-- Calls about different names or in different contexts lead to the same contexts in either
order. -/
theorem callOn_comm (contexts : ι → Context) (h : (x.1, x.2.binding) ≠ (y.1, y.2.binding)) :
    (callOn (callOn contexts x).1 y).1 = (callOn (callOn contexts y).1 x).1 := by
  -- No slot gets to see both calls, so none can tell their order.
  funext i
  refine ext_slot fun b ↦ ?_
  have hxy := (shows_slotOf i b).view_after contexts [x, y]
  have hyx := (shows_slotOf i b).view_after contexts [y, x]
  have hcalls : [x, y].filterMap (aboutIn i b) = [y, x].filterMap (aboutIn i b) := by
    rcases aboutIn_eq_none_or h i b with hnone | hnone <;> simp [List.filterMap_cons, hnone]
  exact hxy.trans (hcalls ▸ hyx.symm)

end Swap

/-- **Contexts and names do not interfere.** In every run of calls on any number of contexts, the
calls about one name in one context are answered as if only they had been made, and leave the same
initializer and the same exports behind. Neighbouring calls about different names, or in different
contexts, can change places: every call is answered as before. -/
theorem runs_isolated (contexts : ι → Context) :
    (∀ (calls : List (ι × Call)) (i : ι) (b : String),
      (Run.transcript callOn contexts calls).filterMap (Run.pickExchange (aboutIn i b)) =
          Run.transcript call (contexts i) (calls.filterMap (aboutIn i b)) ∧
        (Run.after callOn contexts calls i).registered.get? b =
          (Run.after call (contexts i) (calls.filterMap (aboutIn i b))).registered.get? b ∧
        (Run.after callOn contexts calls i).loaded.get? b =
          (Run.after call (contexts i) (calls.filterMap (aboutIn i b))).loaded.get? b) ∧
    ∀ (before later : List (ι × Call)) (x y : ι × Call),
      (x.1, x.2.binding) ≠ (y.1, y.2.binding) → ∃ toX toY rest,
        Run.transcript callOn contexts (before ++ x :: y :: later) =
          Run.transcript callOn contexts before ++ (x, toX) :: (y, toY) :: rest ∧
        Run.transcript callOn contexts (before ++ y :: x :: later) =
          Run.transcript callOn contexts before ++ (y, toY) :: (x, toX) :: rest ∧
        Run.after callOn contexts (before ++ x :: y :: later) =
          Run.after callOn contexts (before ++ y :: x :: later) := by
  constructor
  · intro calls i b
    obtain ⟨htranscript, hslot⟩ := run_aboutIn contexts calls i b
    exact ⟨htranscript, congrArg Slot.registered hslot, congrArg Slot.loaded hslot⟩
  · intro before later x y h
    have hcomm := callOn_comm (Run.after callOn contexts before) h
    refine ⟨_, _, _, Run.transcript_append .., ?_, ?_⟩
    · simp only [Run.transcript_append, Run.transcript_cons, hcomm, callOn_answer _ h,
        callOn_answer _ h.symm]
    · simp only [Run.after_append, Run.after_cons, hcomm]

theorem runs_isolated_two_contexts :
    ∃ toX toY rest,
      Run.transcript callOn (fun _ : Bool ↦ empty)
          [(true, .register "m" (.fail .grammarUnavailable)), (true, .require "m" fun _ ↦ .null),
            (false, .require "m" fun _ ↦ .null)] =
        ((true, .register "m" (.fail .grammarUnavailable)), .silent) ::
          ((true, .require "m" fun _ ↦ .null), toX) ::
          ((false, .require "m" fun _ ↦ .null), toY) :: rest ∧
      Run.transcript callOn (fun _ : Bool ↦ empty)
          [(true, .register "m" (.fail .grammarUnavailable)), (false, .require "m" fun _ ↦ .null),
            (true, .require "m" fun _ ↦ .null)] =
        ((true, .register "m" (.fail .grammarUnavailable)), .silent) ::
          ((false, .require "m" fun _ ↦ .null), toY) ::
          ((true, .require "m" fun _ ↦ .null), toX) :: rest := by
  obtain ⟨toX, toY, rest, hxy, hyx, -⟩ := (runs_isolated fun _ : Bool ↦ empty).2
    [(true, .register "m" (.fail .grammarUnavailable))] []
    (true, .require "m" fun _ ↦ .null) (false, .require "m" fun _ ↦ .null) (by decide)
  exact ⟨toX, toY, rest, hxy, hyx⟩

end GrammarExport.Context
