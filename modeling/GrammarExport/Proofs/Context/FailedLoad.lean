import GrammarExport.Proofs.Context.Call

/-!
# A failed load leaves no trace

An initializer may define any number of properties before it fails, and any number of initializers
may fail under one name before one of them succeeds. Nothing of this is kept: a request that fails
leaves the context as it was, and the exports that are handed out in the end are those that one run
of one initializer has filled, starting from none (`Context.failed_load_leaves_no_trace`).

## What the proof rests on

* What a request can come to is `Context.require_cases`; where it fails, the context is the one from
  before (`Context.require_of_error`). So requests that fail can be left out of a run altogether
  (`Run.transcript_without`, `Run.after_without`).
* The runs of initializers under a name are put on record as they happen (`Context.runsOf`). What is
  loaded is what the last run on record has filled: this holds of a context in which nothing is
  loaded, and every call keeps it up (`Context.Accounted.call`).
-/

namespace GrammarExport

namespace Initializer

variable {init : Initializer} {cells : Cells}

/-- The exports of a load are what its initializer fills from an empty exports object. -/
theorem outcome_eq_ok_iff {exports : Exports} :
    init.outcome cells = .ok exports ↔
      ((init cells).runFrom .empty).value = (.ok (), exports) := by
  rw [outcome]
  rcases ((init cells).runFrom .empty).value with ⟨e | ⟨⟩, reached⟩ <;> simp

/-- Whatever a run had defined when it failed is no part of its outcome. -/
theorem outcome_eq_error_iff {e : Error} :
    init.outcome cells = .error e ↔
      ∃ reached, ((init cells).runFrom .empty).value = (.error e, reached) := by
  rw [outcome]
  rcases ((init cells).runFrom .empty).value with ⟨e' | ⟨⟩, reached⟩ <;> simp

end Initializer

namespace Context

variable {c : Context} {b : String}

/-! ### Requests that fail -/

/-- A request that fails leaves the context as it was. It fails with the error of the initializer,
or because there is none. -/
theorem require_of_error {cells : Cells} {e : Error}
    (h : (c.require cells b).value.result = .error e) :
    (c.require cells b).value.context = c ∧ c.loaded.get? b = none ∧
      ((∃ init, c.registered.get? b = some init ∧ init.outcome cells = .error e) ∨
        c.registered.get? b = none ∧ e = .moduleNotFound b) := by
  rcases c.require_cases cells b with ⟨x, -, hrequire⟩ | ⟨hloaded, hregistered, hrequire⟩ |
    ⟨init, hloaded, hregistered, hrequire⟩
  · rw [hrequire] at h
    cases h
  · rw [hrequire] at h ⊢
    exact ⟨rfl, hloaded, .inr ⟨hregistered, (Except.error.inj h).symm⟩⟩
  · rw [hrequire] at h ⊢
    have houtcome : init.outcome cells = .error e := h
    exact ⟨by rw [houtcome, keeping], hloaded, .inl ⟨init, hregistered, houtcome⟩⟩

/-- Whether a reply tells of a request that failed. -/
def Reply.isFailure (r : Reply) : Bool :=
  match r.result with
  | some (.error _) => true
  | _ => false

theorem call_of_isFailure (c : Context) (x : Call) (h : (c.call x).2.isFailure = true) :
    (c.call x).1 = c := by
  cases x with
  | register b init => cases h
  | require b cells =>
    rcases hresult : (c.require cells b).value.result with e | exports
    · exact (require_of_error hresult).1
    · simp [call, Reply.isFailure, hresult] at h

/-! ### Runs of initializers -/

/-- The runs of initializers under a name that an exchange tells of, each with the cells that it was
run on: one at most. -/
def runsOf (b : String) : Call × Reply → List (Initializer × Cells)
  | (.register _ _, _) => []
  | (.require k cells, reply) => if k = b then (reply.ran.map (·, cells)).toList else []

/-- What is loaded under a name is what the last of some runs has filled. -/
def Accounted (b : String) (c : Context) (runs : List (Initializer × Cells)) : Prop :=
  ∀ exports, c.loaded.get? b = some exports →
    ∃ init cells, runs.getLast? = some (init, cells) ∧ init.outcome cells = .ok exports

theorem accounted_of_not_loaded (h : c.loaded.get? b = none) : Accounted b c [] := by
  intro exports hloaded
  rw [h] at hloaded
  cases hloaded

namespace Accounted

variable {runs : List (Initializer × Cells)}

/-- A run under the name takes over, whether it succeeds or not. -/
theorem keeping_self (h : c.loaded.get? b = none) (init : Initializer) (cells : Cells) :
    Accounted b (c.keeping b (init.outcome cells)) (runs ++ [(init, cells)]) := by
  intro exports hloaded
  refine ⟨init, cells, List.getLast?_concat .., ?_⟩
  rcases houtcome : init.outcome cells with e | x
  · rw [houtcome, Context.keeping, h] at hloaded
    cases hloaded
  · rw [houtcome, Context.keeping, Dict.get?_insert, if_pos rfl] at hloaded
    rw [Option.some.inj hloaded]

/-- A run under another name changes nothing. -/
theorem keeping_of_ne (h : Accounted b c runs) {k : String} (hne : k ≠ b)
    (outcome : Except Error Exports) : Accounted b (c.keeping k outcome) runs := by
  cases outcome with
  | error e => exact h
  | ok x =>
    intro exports hloaded
    rw [Context.keeping, Dict.get?_insert, if_neg hne.symm] at hloaded
    exact h exports hloaded

/-- **Every call keeps the account.** -/
theorem call (h : Accounted b c runs) (x : Call) :
    Accounted b (c.call x).1 (runs ++ runsOf b (x, (c.call x).2)) := by
  cases x with
  | register k init =>
    rw [runsOf, List.append_nil]
    exact h
  | require k cells =>
    rw [Context.call, runsOf]
    rcases c.require_cases cells k with ⟨x, -, hrequire⟩ | ⟨-, -, hrequire⟩ |
      ⟨init, hloaded, -, hrequire⟩
    · simpa [hrequire] using h
    · simpa [hrequire] using h
    · rw [hrequire]
      by_cases hk : k = b
      · subst hk
        rw [if_pos rfl]
        exact keeping_self hloaded init cells
      · rw [if_neg hk, List.append_nil]
        exact h.keeping_of_ne hk _

/-- Along a run, what is loaded is what the last run of an initializer has filled. -/
theorem after (h : Accounted b c runs) (calls : List Call) :
    Accounted b (Run.after Context.call c calls)
      (runs ++ (Run.transcript Context.call c calls).flatMap (runsOf b)) := by
  induction calls generalizing c runs with
  | nil =>
    rw [Run.transcript_nil, List.flatMap_nil, List.append_nil]
    exact h
  | cons x calls ih =>
    rw [Run.after_cons, Run.transcript_cons, List.flatMap_cons, ← List.append_assoc]
    exact ih (h.call x)

end Accounted

/-- **A failed load leaves no trace.**

* A request that fails leaves the registered and the loaded modules as they were. Its module was not
  loaded, and the error is that of its initializer as it is, or the one that says that there is no
  initializer.
* Where a module was not loaded, and whatever is called, exports that are returned for it are those
  that the last run of an initializer under its name has filled, starting from none.
* Requests that fail can be left out of every run: the other calls are answered in the same way, and
  lead to the same context. -/
theorem failed_load_leaves_no_trace (c : Context) (b : String) :
    (∀ cells e, (c.require cells b).value.result = .error e →
      (c.require cells b).value.context.registered = c.registered ∧
      (c.require cells b).value.context.loaded = c.loaded ∧
      c.isLoaded b = false ∧
      (∀ init, c.registered.get? b = some init →
        ∃ reached, ((init cells).runFrom .empty).value = (.error e, reached)) ∧
      (c.registered.get? b = none → e = .moduleNotFound b)) ∧
    (c.isLoaded b = false → ∀ calls cells exports,
      ((Run.after call c calls).require cells b).value.result = .ok exports →
      ∃ init cells',
        ((Run.transcript call c (calls ++ [.require b cells])).flatMap (runsOf b)).getLast? =
          some (init, cells') ∧
        ((init cells').runFrom .empty).value = (.ok (), exports)) ∧
    ∀ calls,
      Run.transcript call c (Run.without call (·.2.isFailure) c calls) =
          (Run.transcript call c calls).filter (fun exchange ↦ !exchange.2.isFailure) ∧
        Run.after call c (Run.without call (·.2.isFailure) c calls) = Run.after call c calls := by
  refine ⟨fun cells e he ↦ ?_, fun h calls cells exports hresult ↦ ?_, fun calls ↦
    ⟨Run.transcript_without call_of_isFailure c calls,
      Run.after_without call_of_isFailure c calls⟩⟩
  · obtain ⟨hcontext, hloaded, hcause⟩ := require_of_error he
    refine ⟨by rw [hcontext], by rw [hcontext], by simp [isLoaded, Dict.contains, hloaded],
      fun init hinit ↦ ?_, fun hnone ↦ ?_⟩
    · rcases hcause with ⟨init', hinit', houtcome⟩ | ⟨hnone, -⟩
      · obtain rfl : init' = init := Option.some.inj (hinit'.symm.trans hinit)
        exact Initializer.outcome_eq_error_iff.1 houtcome
      · cases hnone.symm.trans hinit
    · rcases hcause with ⟨init, hinit, -⟩ | ⟨-, heq⟩
      · cases hnone.symm.trans hinit
      · exact heq
  · have hnone : c.loaded.get? b = none := by simpa [isLoaded, Dict.contains] using h
    have haccount := (accounted_of_not_loaded hnone).after (calls ++ [.require b cells])
    rw [Run.after_append] at haccount
    obtain ⟨init, cells', hlast, houtcome⟩ := haccount exports (loaded_of_require hresult)
    exact ⟨init, cells', hlast, Initializer.outcome_eq_ok_iff.1 houtcome⟩

/-- Defines two properties, goes on after a clash, and fails. -/
def failsLate : Initializer :=
  .inOrder [.define ("a", .text "x") ("b", .text "y"),
    .ignoringErrors (.define ("a", .text "z") ("c", .text "z")), .fail (.host "late")]

/-- Defines two other properties. -/
def succeeds : Initializer := .define ("name", .text "w") ("b", .text "z")

/-- The late failure leaves nothing behind for the initializer that is registered after it. -/
theorem failed_load_leaves_no_trace_late :
    ((empty.register "m" failsLate).require (fun _ ↦ .null) "m").value.result =
        .error (.host "late") ∧
      ((empty.register "m" failsLate).require (fun _ ↦ .null) "m").value.context.loaded =
        empty.loaded ∧
      ∃ exports, ((Run.after call (empty.register "m" failsLate)
          [.require "m" fun _ ↦ .null, .register "m" succeeds]).require (fun _ ↦ .null)
            "m").value.result = .ok exports ∧
        ((succeeds fun _ ↦ .null).runFrom .empty).value = (.ok (), exports) ∧
        exports.keys = ["b", "name"] := by
  obtain ⟨hfailed, hlater, -⟩ := failed_load_leaves_no_trace (empty.register "m" failsLate) "m"
  obtain ⟨exports, hexports, hkeys⟩ : ∃ exports, ((Run.after call (empty.register "m" failsLate)
      [.require "m" fun _ ↦ .null, .register "m" succeeds]).require (fun _ ↦ .null)
        "m").value.result = .ok exports ∧ exports.keys = ["b", "name"] :=
    ⟨_, rfl, by decide⟩
  obtain ⟨init, cells, hlast, hrun⟩ := hlater rfl _ _ exports hexports
  have hruns : some (succeeds, fun _ ↦ Address.null) = some (init, cells) := hlast
  cases hruns
  exact ⟨rfl, (hfailed _ _ rfl).2.1, exports, hexports, hrun, hkeys⟩

end Context

end GrammarExport
