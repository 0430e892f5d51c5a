import Mathlib.Data.List.Basic

/-!
# Runs of calls

An object that is called again and again is a step function: a call takes it from one state to the
next and is answered on the way. `Run.after` is the state after a row of calls and `Run.transcript`
the row with its answers.

## What a run keeps, forgets and shows

* A property of states that every step keeps holds along the whole run, so whatever the steps from
  such states answer is answered throughout (`Run.forall_transcript`).
* What every step either overwrites or leaves alone is, after a run, what was written last
  (`Run.view_after_eq_last`).
* Calls that leave the state alone can be left out of a run, and nothing else changes
  (`Run.transcript_without`, `Run.after_without`).
* `Run.Shows` relates an object to a smaller one that is visible in it: some calls are passed on to
  the smaller one, which answers them, and the others leave it alone. One step at a time is enough:
  whole runs are related in the same way (`Run.Shows.view_after`, `Run.Shows.transcript`).
-/

namespace GrammarExport.Run

universe u v w x y

variable {σ : Type u} {κ : Type v} {ρ : Type w} (step : σ → κ → σ × ρ)

/-- The state after some calls, one after the other. -/
def after (s : σ) (calls : List κ) : σ :=
  calls.foldl (fun s call ↦ (step s call).1) s

/-- Calls, one after the other, each with its answer. -/
def transcript : σ → List κ → List (κ × ρ)
  | _, [] => []
  | s, call :: calls => (call, (step s call).2) :: transcript (step s call).1 calls

@[simp] theorem after_nil (s : σ) : after step s [] = s := rfl

@[simp] theorem after_cons (s : σ) (call : κ) (calls : List κ) :
    after step s (call :: calls) = after step (step s call).1 calls := rfl

@[simp] theorem transcript_nil (s : σ) : transcript step s [] = [] := rfl

@[simp] theorem transcript_cons (s : σ) (call : κ) (calls : List κ) :
    transcript step s (call :: calls) =
      (call, (step s call).2) :: transcript step (step s call).1 calls := rfl

/-- A run can be cut in two, the second part starting where the first one ends. -/
theorem after_append (s : σ) (before later : List κ) :
    after step s (before ++ later) = after step (after step s before) later :=
  List.foldl_append

/-- The transcript of a run in two parts is that of the parts. -/
theorem transcript_append (s : σ) (before later : List κ) :
    transcript step s (before ++ later) =
      transcript step s before ++ transcript step (after step s before) later := by
  induction before generalizing s with
  | nil => rfl
  | cons call before ih => simp [ih]

/-- A transcript has the calls of the run, in order. -/
theorem map_fst_transcript (s : σ) (calls : List κ) :
    (transcript step s calls).map Prod.fst = calls := by
  induction calls generalizing s with
  | nil => rfl
  | cons call calls ih => rw [transcript_cons, List.map_cons, ih]

variable {step}

/-! ### What a run keeps -/

/-- Where every step keeps a property and answers as it should, a whole run is answered as it
should. -/
theorem forall_transcript {P : σ → Prop} {Q : κ × ρ → Prop}
    (hstep : ∀ s call, P s → P (step s call).1 ∧ Q (call, (step s call).2)) {s : σ} (h : P s)
    (calls : List κ) : ∀ exchange ∈ transcript step s calls, Q exchange := by
  induction calls generalizing s with
  | nil => simp
  | cons call calls ih =>
    obtain ⟨hnext, hanswer⟩ := hstep s call h
    rw [transcript_cons, List.forall_mem_cons]
    exact ⟨hanswer, ih hnext⟩

/-- Where every exchange settles how the run after it is answered, any two exchanges of a run stand
to each other as they should. -/
theorem pairwise_transcript {R : κ × ρ → κ × ρ → Prop}
    (hstep : ∀ s call calls, ∀ later ∈ transcript step (step s call).1 calls,
      R (call, (step s call).2) later) (s : σ) (calls : List κ) :
    (transcript step s calls).Pairwise R := by
  induction calls generalizing s with
  | nil => exact List.Pairwise.nil
  | cons call calls ih =>
    rw [transcript_cons, List.pairwise_cons]
    exact ⟨hstep s call calls, ih (step s call).1⟩

/-! ### What a run writes last -/

/-- Where every exchange either writes what is seen of the state or leaves it alone, what is seen
after a run is what was written last, or else what was seen before. -/
theorem view_after_eq_last {α : Type x} (view : σ → Option α) (written? : κ × ρ → Option α)
    (hstep : ∀ s call, view (step s call).1 = (written? (call, (step s call).2)).or (view s))
    (s : σ) (calls : List κ) :
    view (after step s calls) =
      ((transcript step s calls).filterMap written?).getLast?.or (view s) := by
  induction calls generalizing s with
  | nil => rfl
  | cons call calls ih =>
    rw [after_cons, ih, hstep, transcript_cons]
    rcases hwritten : written? (call, (step s call).2) with - | a
    · rw [List.filterMap_cons_none hwritten, Option.none_or]
    -- Written by this call, unless a later one writes again.
    · rw [List.filterMap_cons_some hwritten, List.getLast?_cons, Option.some_or]
      generalize ((transcript step (step s call).1 calls).filterMap written?).getLast? = last
      cases last <;> rfl

/-! ### What a run forgets -/

section Without

variable (step) in
/-- The calls of a run, but for those whose exchange is one of a certain kind. -/
def without (idle : κ × ρ → Bool) (s : σ) (calls : List κ) : List κ :=
  ((transcript step s calls).filter fun exchange ↦ !idle exchange).map Prod.fst

variable {idle : κ × ρ → Bool}
  (hidle : ∀ s call, idle (call, (step s call).2) = true → (step s call).1 = s)

include hidle

/-- Calls that leave the state alone can be left out of a run: the others are answered as before. -/
theorem transcript_without (s : σ) (calls : List κ) :
    transcript step s (without step idle s calls) =
      (transcript step s calls).filter fun exchange ↦ !idle exchange := by
  induction calls generalizing s with
  | nil => rfl
  | cons call calls ih =>
    rw [without, transcript_cons]
    rcases hcall : idle (call, (step s call).2) with - | -
    · rw [List.filter_cons_of_pos (by simp [hcall]), List.map_cons, transcript_cons]
      exact congrArg _ (ih (step s call).1)
    · rw [List.filter_cons_of_neg (by simp [hcall]), hidle s call hcall]
      exact ih s

/-- Without such calls, a run leads to the same state. -/
theorem after_without (s : σ) (calls : List κ) :
    after step s (without step idle s calls) = after step s calls := by
  induction calls generalizing s with
  | nil => rfl
  | cons call calls ih =>
    rw [without, transcript_cons, after_cons]
    rcases hcall : idle (call, (step s call).2) with - | -
    · rw [List.filter_cons_of_pos (by simp [hcall]), List.map_cons, after_cons]
      exact ih (step s call).1
    · rw [List.filter_cons_of_neg (by simp [hcall]), hidle s call hcall]
      exact ih s

end Without

/-! ### What a run shows -/

variable {τ : Type x} {κ' : Type y} {step' : τ → κ' → τ × ρ} {view : σ → τ} {pick : κ → Option κ'}

variable (step step' view pick) in
/-- A smaller object is visible in a larger one: the calls that are picked act on it and are
answered by it, and the others leave it alone. -/
structure Shows : Prop where
  picked : ∀ s call call', pick call = some call' →
    step' (view s) call' = (view (step s call).1, (step s call).2)
  other : ∀ s call, pick call = none → view (step s call).1 = view s

/-- An exchange as the smaller object sees it, if its call is picked. -/
def pickExchange (pick : κ → Option κ') (exchange : κ × ρ) : Option (κ' × ρ) :=
  (pick exchange.1).map fun call ↦ (call, exchange.2)

/-- Where all calls are picked as they are, so are all exchanges. -/
theorem filterMap_pickExchange {pick : κ → Option κ} {calls : List κ}
    (h : ∀ call ∈ calls, pick call = some call) (s : σ) :
    (transcript step s calls).filterMap (pickExchange pick) = transcript step s calls := by
  induction calls generalizing s with
  | nil => rfl
  | cons call calls ih =>
    rw [List.forall_mem_cons] at h
    rw [transcript_cons, List.filterMap_cons_some (b := (call, (step s call).2)), ih h.2]
    simp [pickExchange, h.1]

namespace Shows

variable (h : Shows step step' view pick)

include h

/-- After a run, the smaller object is where the picked calls take it. -/
theorem view_after (s : σ) (calls : List κ) :
    view (after step s calls) = after step' (view s) (calls.filterMap pick) := by
  induction calls generalizing s with
  | nil => rfl
  | cons call calls ih =>
    rw [after_cons, ih]
    rcases hpick : pick call with - | call'
    · rw [List.filterMap_cons_none hpick, h.other s call hpick]
    · rw [List.filterMap_cons_some hpick, after_cons, h.picked s call call' hpick]

/-- In a run, the picked calls are answered as the smaller object answers them by itself. -/
theorem transcript (s : σ) (calls : List κ) :
    (Run.transcript step s calls).filterMap (pickExchange pick) =
      Run.transcript step' (view s) (calls.filterMap pick) := by
  induction calls generalizing s with
  | nil => rfl
  | cons call calls ih =>
    rw [transcript_cons]
    rcases hpick : pick call with - | call'
    · rw [List.filterMap_cons_none (by simp [pickExchange, hpick]), ih,
        List.filterMap_cons_none hpick, h.other s call hpick]
    · rw [List.filterMap_cons_some (b := (call', (step s call).2)) (by simp [pickExchange, hpick]),
        ih, List.filterMap_cons_some hpick, transcript_cons, h.picked s call call' hpick]

end Shows

end GrammarExport.Run
