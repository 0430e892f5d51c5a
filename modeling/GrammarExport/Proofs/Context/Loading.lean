import GrammarExport.Proofs.Context.Call

/-!
# Loading at most once

A host program registers initializers in a context and requires modules from it, in any order, and
does with the exports it is handed whatever it likes (`Session`). Once a module was handed out it
is handed out again by every later request, and nothing is run for it; so the initializers of a
name succeed at most once, however often they fail before and whatever is registered afterwards
(`Session.loads_at_most_once`).

## What the proof rests on

* A slot that is loaded stays as it is, whatever is called (`Slot.loaded_call`), and a call that
  returns exports leaves them loaded (`Slot.loaded_of_result`). Together they settle what happens
  after the first success.
* The initializer of a slot is that of the last registration (`Slot.registered_after`). This
  settles what is run before it.

Copies of exports are values of the program and no part of the context, so what is done to them
is invisible in the context's slots (`Session.shows_slot`).
-/

namespace GrammarExport

namespace Context

/-- The initializer that a call registers. -/
def Call.registration? : Call → Option Initializer
  | register _ init => some init
  | require _ _ => none

namespace Slot

variable {s : Slot} {exports : Exports}

/-- A module that is loaded stays loaded, and is handed out by every request. -/
theorem loaded_call (h : s.loaded = some exports) (x : Call) :
    (s.call x).1.loaded = some exports ∧
      ∀ b cells, x = .require b cells → (s.call x).2 = .handedOut exports := by
  cases x with
  | register b init => exact ⟨h, by simp⟩
  | require b cells =>
    rw [call, require_of_loaded h]
    exact ⟨h, fun _ _ _ ↦ rfl⟩

/-- Exports that a call returns are loaded afterwards. -/
theorem loaded_of_result {x : Call} (h : (s.call x).2.result = some (.ok exports)) :
    (s.call x).1.loaded = some exports := by
  cases x with
  | register b init => simp [call, Reply.silent] at h
  | require b cells =>
    rw [call] at h ⊢
    rcases hloaded : s.loaded with - | exports'
    · rcases hregistered : s.registered with - | init
      · rw [require_of_not_registered hloaded hregistered] at h
        simp [Reply.notFound] at h
      · rw [require_of_registered hloaded hregistered] at h ⊢
        have houtcome : init.outcome cells = .ok exports := Option.some.inj h
        rw [houtcome]
        rfl
    · rw [require_of_loaded hloaded] at h ⊢
      have hexports : exports' = exports := by simpa [Reply.handedOut] using h
      rw [hloaded, hexports]

/-- Only registering changes the initializer. -/
theorem registered_call (s : Slot) (x : Call) :
    (s.call x).1.registered = x.registration?.or s.registered := by
  cases x with
  | register b init => rfl
  | require b cells =>
    rw [call, require]
    split <;> rfl

/-- A slot has the initializer of the last registration, or else the one it had before. -/
theorem registered_after (s : Slot) (calls : List Call) :
    (Run.after call s calls).registered =
      (calls.filterMap Call.registration?).getLast?.or s.registered := by
  have hlast := Run.view_after_eq_last Slot.registered (fun exchange ↦ exchange.1.registration?)
    registered_call s calls
  rw [hlast]
  conv_rhs => rw [← Run.map_fst_transcript call s calls, List.filterMap_map]
  rfl

/-- What a request runs if its module is not loaded. -/
theorem require_of_not_loaded (h : s.loaded = none) (b : String) (cells : Cells) :
    (s.require b cells).2 =
      match s.registered with
      | some init => .loading b init cells
      | none => .notFound b := by
  rcases hregistered : s.registered with - | init
  · rw [require_of_not_registered h hregistered]
  · rw [require_of_registered h hregistered]

end Slot

end Context

/-! ### Sessions -/

open Context (Call Reply Slot)

/-- A host program at work with a context: the context, and the copies of exports that the program
was handed. -/
structure Session where
  context : Context
  copies : List Exports

namespace Session

/-- What a host program does. -/
inductive Action where
  /-- The context is called; a copy of the exports that it returns is kept. -/
  | call (x : Call)
  /-- Something is done to a copy. -/
  | alter (copy : Nat) (change : Exports → Exports)

/-- The call of an action, if it is one about a name. -/
def Action.about (b : String) : Action → Option Call
  | call x => x.about b
  | alter _ _ => none

/-- Carries out an action. Altering a copy has no reply. -/
def act (s : Session) : Action → Session × Reply
  | .call x =>
    let (context, reply) := s.context.call x
    (⟨context, s.copies ++ reply.exports?.toList⟩, reply)
  | .alter copy change => (⟨s.context, s.copies.modify copy change⟩, .silent)

/-- The slots of the context are visible in a session: nothing but calls about a name touches its
slot. -/
theorem shows_slot (b : String) :
    Run.Shows act Slot.call (fun s ↦ s.context.slot b) (Action.about b) := by
  refine ⟨fun s a x hpick ↦ ?_, fun s a hpick ↦ ?_⟩
  · cases a with
    | call y => exact (Context.shows_slot b).picked s.context y x hpick
    | alter copy change => simp [Action.about] at hpick
  · cases a with
    | call y => exact (Context.shows_slot b).other s.context y hpick
    | alter copy change => rfl

/-- In an exchange, a module was required and its exports were returned. -/
def Returns (b : String) (exports : Exports) (exchange : Action × Reply) : Prop :=
  ∃ cells, exchange.1 = .call (.require b cells) ∧ exchange.2.result = some (.ok exports)

/-- In an exchange, an initializer of a name was run and succeeded. -/
def Loads (b : String) (exchange : Action × Reply) : Prop :=
  exchange.2.ran.isSome ∧ ∃ exports, Returns b exports exchange

/-- The initializer of the last registration of a name among some actions. -/
def lastRegistered (b : String) (actions : List Action) : Option Initializer :=
  ((actions.filterMap (Action.about b)).filterMap Call.registration?).getLast?

section

variable {s : Session} {b : String} {exports : Exports}

/-- A module that is loaded stays loaded, and is handed out by every request. -/
theorem loaded_act (h : (s.context.slot b).loaded = some exports) (a : Action) :
    ((s.act a).1.context.slot b).loaded = some exports ∧
      ∀ cells, a = .call (.require b cells) → (s.act a).2 = .handedOut exports := by
  rcases hpick : a.about b with - | x
  · rw [(shows_slot b).other s a hpick]
    refine ⟨h, fun cells ha ↦ ?_⟩
    simp [ha, Action.about, Call.about, Call.binding] at hpick
  · obtain ⟨hstay, hanswer⟩ := Slot.loaded_call h x
    rw [(shows_slot b).picked s a x hpick] at hstay hanswer
    refine ⟨hstay, fun cells ha ↦ hanswer b cells ?_⟩
    simpa [ha, Action.about, Call.about, Call.binding, eq_comm] using hpick

/-- Exports that a request returns are loaded afterwards. -/
theorem Returns.loaded {a : Action} (h : Returns b exports (a, (s.act a).2)) :
    ((s.act a).1.context.slot b).loaded = some exports := by
  obtain ⟨cells, ha, hresult⟩ := h
  have hpicked := (shows_slot b).picked s a (.require b cells)
    (by simp [show a = .call (.require b cells) from ha, Action.about, Call.about, Call.binding])
  have hslot : ((s.context.slot b).call (.require b cells)).2.result = some (.ok exports) := by
    rw [hpicked]
    exact hresult
  have hloaded := Slot.loaded_of_result hslot
  rwa [hpicked] at hloaded

end

/-- After a module was handed out, every later request in the run is answered with the same
exports, and nothing is run for it. -/
theorem pairwise_handedOut (s : Session) (actions : List Action) (b : String) :
    (Run.transcript act s actions).Pairwise fun earlier later ↦
      ∀ exports cells, Returns b exports earlier → later.1 = .call (.require b cells) →
        later.2 = .handedOut exports := by
  refine Run.pairwise_transcript (fun s a actions later hlater exports cells hreturns hcall ↦ ?_)
    s actions
  -- The invariant of the rest of the run is that exactly these exports are loaded.
  have hrest : ∀ later ∈ Run.transcript act (s.act a).1 actions, ∀ cells,
      later.1 = .call (.require b cells) → later.2 = .handedOut exports :=
    Run.forall_transcript (P := fun s ↦ (s.context.slot b).loaded = some exports)
      (fun _ a h ↦ loaded_act h a) hreturns.loaded actions
  exact hrest later hlater cells hcall

/-- A module that is loaded once is not loaded again. -/
theorem pairwise_not_loads (s : Session) (actions : List Action) (b : String) :
    (Run.transcript act s actions).Pairwise fun earlier later ↦
      ¬ (Loads b earlier ∧ Loads b later) := by
  refine (pairwise_handedOut s actions b).imp fun hlater hloads ↦ ?_
  obtain ⟨⟨-, exports, hreturns⟩, hran, -, cells, hcall, -⟩ := hloads
  rw [hlater exports cells hreturns hcall] at hran
  simp [Reply.handedOut] at hran

/-- **A module is loaded at most once in a context.** In every run, exports that were returned for
a name are returned by every later request for it, with nothing run; so of any two requests at most
one runs an initializer that succeeds. A request for a module that is not loaded runs the
initializer that was registered last, once, and no other. -/
theorem loads_at_most_once (s : Session) (actions : List Action) (b : String) :
    ((Run.transcript act s actions).Pairwise fun earlier later ↦
      ∀ exports cells, Returns b exports earlier → later.1 = .call (.require b cells) →
        later.2 = .handedOut exports) ∧
    ((Run.transcript act s actions).Pairwise fun earlier later ↦
      ¬ (Loads b earlier ∧ Loads b later)) ∧
    ∀ cells, (Run.after act s actions).context.isLoaded b = false →
      ((Run.after act s actions).act (.call (.require b cells))).2 =
        match (lastRegistered b actions).or (s.context.registered.get? b) with
        | some init => .loading b init cells
        | none => .notFound b := by
  refine ⟨pairwise_handedOut s actions b, pairwise_not_loads s actions b, fun cells h ↦ ?_⟩
  have hslot := (shows_slot b).view_after s actions
  have hregistered := Slot.registered_after (s.context.slot b) (actions.filterMap (Action.about b))
  rw [← hslot] at hregistered
  have hloaded : ((Run.after act s actions).context.slot b).loaded = none := by
    show (Run.after act s actions).context.loaded.get? b = none
    simpa [Context.isLoaded, Dict.contains] using h
  show ((Run.after act s actions).context.call (.require b cells)).2 = _
  rw [(Context.slot_call _ _).2]
  have hreply := Slot.require_of_not_loaded hloaded b cells
  rw [hregistered] at hreply
  exact hreply

/-- An initializer fails and is replaced by one that succeeds; then its exports are altered and
the first initializer is registered again. -/
def retried : List Action :=
  [.call (.register "m" (.fail .grammarUnavailable)), .call (.require "m" fun _ ↦ .null),
    .call (.register "m" (.define ("a", .text "x") ("b", .text "y"))),
    .call (.require "m" fun _ ↦ .null), .alter 0 fun _ ↦ .empty,
    .call (.register "m" (.fail .grammarUnavailable)), .call (.require "m" fun _ ↦ ⟨1⟩)]

theorem loads_at_most_once_retried :
    ∃ exports fourth seventh, (Run.transcript act ⟨.empty, []⟩ retried)[3]? = some fourth ∧
      (Run.transcript act ⟨.empty, []⟩ retried)[6]? = some seventh ∧
      Returns "m" exports fourth ∧ exports.get? "a" = some (.text "x") ∧
      seventh.2 = .handedOut exports ∧
      ((Run.after act ⟨.empty, []⟩ (retried.take 3)).act (.call (.require "m" fun _ ↦ .null))).2 =
        .loading "m" (.define ("a", .text "x") ("b", .text "y")) fun _ ↦ .null := by
  obtain ⟨hpairwise, -, -⟩ := loads_at_most_once ⟨.empty, []⟩ retried "m"
  obtain ⟨-, -, hruns⟩ := loads_at_most_once ⟨.empty, []⟩ (retried.take 3) "m"
  obtain ⟨exports, hreturns, hget⟩ : ∃ exports,
      Returns "m" exports (Run.transcript act ⟨.empty, []⟩ retried)[3] ∧
        exports.get? "a" = some (.text "x") :=
    ⟨_, ⟨fun _ ↦ .null, rfl, rfl⟩, rfl⟩
  have hlater := List.pairwise_iff_getElem.1 hpairwise 3 6 (by decide) (by decide) (by decide)
    exports (fun _ ↦ ⟨1⟩) hreturns rfl
  exact ⟨exports, _, _, rfl, rfl, hreturns, hget, hlater, hruns _ rfl⟩

end Session

end GrammarExport
