import GrammarExport.Context
import GrammarExport.Proofs.Run

/-!
# Calls on contexts

A context answers two kinds of calls: an initializer is registered under a name, or the module of a
name is required (`Context.Call`). What a caller gets to see of a call is its `Context.Reply`: the
result, the initializer that was run for it and the events that were given off.

## One slot for each name

The entries of one name in a context are its slot (`Context.slot`). A call acts on the slot of its
own name, in a way that depends on nothing else in the context (`Slot.call`), and leaves the other
slots alone. So a slot is visible in its context in the sense of `Run.Shows`
(`Context.shows_slot`), and what is proved of the runs of a slot holds of the runs of a context.
-/

namespace GrammarExport

namespace Initializer

/-- What one run of an initializer on fresh exports comes to: its error, or the exports it has
filled. -/
def outcome (init : Initializer) (cells : Cells) : Except Error Exports :=
  match ((init cells).runFrom .empty).value with
  | (.error e, _) => .error e
  | (.ok (), exports) => .ok exports

/-- What is said in one run of an initializer on fresh exports. -/
def events (init : Initializer) (cells : Cells) : List Event :=
  ((init cells).runFrom .empty).events

end Initializer

namespace Context

/-- A call on a context. -/
inductive Call where
  /-- An initializer is registered under a name. -/
  | register (binding : String) (init : Initializer)
  /-- A module is required while the accessors' cells hold certain addresses. -/
  | require (binding : String) (cells : Cells)

/-- The name that a call is about. -/
def Call.binding : Call → String
  | register b _ => b
  | require b _ => b

/-- What is seen of a call from outside. A registration has no result and runs nothing. -/
structure Reply where
  result : Option (Except Error Exports)
  ran : Option Initializer
  events : List Event

namespace Reply

/-- The reply to a call that has none. -/
def silent : Reply := ⟨none, none, []⟩

/-- The reply to a request that hands out exports that were loaded before: nothing is run. -/
def handedOut (exports : Exports) : Reply := ⟨some (.ok exports), none, []⟩

/-- The reply to a request for a module that is not registered: nothing is run. -/
def notFound (binding : String) : Reply := ⟨some (.error (.moduleNotFound binding)), none, []⟩

/-- The reply to a request for which one initializer is run, and run once. -/
def loading (binding : String) (init : Initializer) (cells : Cells) : Reply where
  result := some (init.outcome cells)
  ran := some init
  events := init.events cells ++
    match init.outcome cells with
    | .ok _ => [Context.loading binding]
    | .error _ => []

/-- The exports that a reply carries, if it does. -/
def exports? (r : Reply) : Option Exports :=
  match r.result with
  | some (.ok exports) => some exports
  | _ => none

end Reply

/-- A call, and what it does to the context. -/
def call (c : Context) : Call → Context × Reply
  | .register b init => (c.register b init, .silent)
  | .require b cells =>
    let answer := c.require cells b
    (answer.value.context, ⟨some answer.value.result, answer.value.ran, answer.events⟩)

/-- What a context holds under one name. -/
structure Slot where
  registered : Option Initializer
  loaded : Option Exports

/-- The entries of a name. -/
def slot (c : Context) (b : String) : Slot := ⟨c.registered.get? b, c.loaded.get? b⟩

/-- Contexts with the same entries under every name are the same. -/
theorem ext_slot {c d : Context} (h : ∀ b, c.slot b = d.slot b) : c = d := by
  have hregistered : c.registered = d.registered :=
    Dict.ext_get? fun b ↦ congrArg Slot.registered (h b)
  have hloaded : c.loaded = d.loaded := Dict.ext_get? fun b ↦ congrArg Slot.loaded (h b)
  cases c
  cases d
  exact congrArg₂ Context.mk hregistered hloaded

/-! ### Requests -/

section Require

variable {c : Context} {b : String} {cells : Cells}

/-- A module that is loaded is handed out. -/
theorem require_of_loaded {exports : Exports} (h : c.loaded.get? b = some exports) :
    c.require cells b = ⟨⟨.ok exports, c, none⟩, []⟩ := by
  rw [require, h]
  rfl

/-- A module that is not registered is not found. -/
theorem require_of_not_registered (hloaded : c.loaded.get? b = none)
    (hregistered : c.registered.get? b = none) :
    c.require cells b = ⟨⟨.error (.moduleNotFound b), c, none⟩, []⟩ := by
  rw [require, hloaded, hregistered]
  rfl

/-- The context after a module was loaded, or not, with a certain outcome. -/
def keeping (c : Context) (b : String) : Except Error Exports → Context
  | .ok exports => ⟨c.registered, c.loaded.insert b exports⟩
  | .error _ => c

/-- A module that is registered and not loaded is loaded by its initializer. -/
theorem require_of_registered {init : Initializer} (hloaded : c.loaded.get? b = none)
    (hregistered : c.registered.get? b = some init) :
    c.require cells b =
      ⟨⟨init.outcome cells, c.keeping b (init.outcome cells), some init⟩,
        (Reply.loading b init cells).events⟩ := by
  rw [require, hloaded, hregistered]
  simp only [Reply.loading, Initializer.outcome, Initializer.events]
  rcases hrun : ((init cells).runFrom .empty).value with ⟨e | ⟨⟩, exports⟩
  · ext1 <;> simp [hrun, keeping]
  · ext1 <;> simp [hrun, keeping]

/-- **What a request can come to**: a module that is loaded is handed out, one that is neither
loaded nor registered is not found, and any other is loaded by its initializer. -/
theorem require_cases (c : Context) (cells : Cells) (b : String) :
    (∃ exports, c.loaded.get? b = some exports ∧
      c.require cells b = ⟨⟨.ok exports, c, none⟩, []⟩) ∨
    (c.loaded.get? b = none ∧ c.registered.get? b = none ∧
      c.require cells b = ⟨⟨.error (.moduleNotFound b), c, none⟩, []⟩) ∨
    ∃ init, c.loaded.get? b = none ∧ c.registered.get? b = some init ∧
      c.require cells b =
        ⟨⟨init.outcome cells, c.keeping b (init.outcome cells), some init⟩,
          (Reply.loading b init cells).events⟩ := by
  rcases hloaded : c.loaded.get? b with - | exports
  · rcases hregistered : c.registered.get? b with - | init
    · exact .inr (.inl ⟨rfl, rfl, require_of_not_registered hloaded hregistered⟩)
    · exact .inr (.inr ⟨init, rfl, rfl, require_of_registered hloaded hregistered⟩)
  · exact .inl ⟨exports, rfl, require_of_loaded hloaded⟩

/-- Exports that a request returns are loaded afterwards. -/
theorem loaded_of_require {exports : Exports}
    (h : (c.require cells b).value.result = .ok exports) :
    (c.require cells b).value.context.loaded.get? b = some exports := by
  rcases c.require_cases cells b with ⟨x, hloaded, hrequire⟩ | ⟨-, -, hrequire⟩ |
    ⟨init, -, -, hrequire⟩
  · rw [hrequire] at h ⊢
    rw [← Except.ok.inj h]
    exact hloaded
  · rw [hrequire] at h
    cases h
  · rw [hrequire] at h ⊢
    show (c.keeping b (init.outcome cells)).loaded.get? b = some exports
    rw [show init.outcome cells = .ok exports from h, keeping, Dict.get?_insert, if_pos rfl]

end Require

/-! ### Slots -/

namespace Slot

/-- What requiring a module does to its slot. -/
def require (s : Slot) (b : String) (cells : Cells) : Slot × Reply :=
  match s.loaded, s.registered with
  | some exports, _ => (s, .handedOut exports)
  | none, none => (s, .notFound b)
  | none, some init => (⟨s.registered, (init.outcome cells).toOption⟩, .loading b init cells)

/-- What a call does to the slot of its name. -/
def call (s : Slot) : Call → Slot × Reply
  | .register _ init => (⟨some init, s.loaded⟩, .silent)
  | .require b cells => s.require b cells

variable {s : Slot} {b : String} {cells : Cells}

/-- What is loaded is handed out again, and nothing changes. -/
theorem require_of_loaded {exports : Exports} (h : s.loaded = some exports) :
    s.require b cells = (s, .handedOut exports) := by
  rw [require, h]

/-- Without an initializer, nothing is found and nothing changes. -/
theorem require_of_not_registered (hloaded : s.loaded = none) (hregistered : s.registered = none) :
    s.require b cells = (s, .notFound b) := by
  rw [require, hloaded, hregistered]

/-- An initializer is run; its exports are kept if it succeeds. -/
theorem require_of_registered {init : Initializer} (hloaded : s.loaded = none)
    (hregistered : s.registered = some init) :
    s.require b cells =
      (⟨s.registered, (init.outcome cells).toOption⟩, .loading b init cells) := by
  rw [require, hloaded, hregistered]

end Slot

/-- Registering changes the initializer of one binding. -/
theorem slot_register (c : Context) (b : String) (init : Initializer) :
    (c.register b init).slot = Function.update c.slot b ⟨some init, c.loaded.get? b⟩ := by
  refine Function.eq_update_iff.2 ⟨?_, fun k hk ↦ ?_⟩
  · simp [slot, register, Dict.get?_insert]
  · simp [slot, register, Dict.get?_insert, hk]

theorem slot_keeping {c : Context} {b : String} (h : c.loaded.get? b = none)
    (outcome : Except Error Exports) :
    (c.keeping b outcome).slot =
      Function.update c.slot b ⟨c.registered.get? b, outcome.toOption⟩ := by
  cases outcome with
  | error e =>
    -- A failed load keeps nothing, and nothing was loaded before.
    have hslot : c.slot b = ⟨c.registered.get? b, none⟩ := by rw [slot, h]
    rw [Except.toOption, ← hslot, Function.update_eq_self, keeping]
  | ok exports =>
    refine Function.eq_update_iff.2 ⟨?_, fun k hk ↦ ?_⟩
    · simp [keeping, slot, Except.toOption, Dict.get?_insert]
    · simp [keeping, slot, Dict.get?_insert, hk]

/-- **A call acts on the slot of its own name only**, and is answered by what this slot holds. -/
theorem slot_call (c : Context) (x : Call) :
    (c.call x).1.slot = Function.update c.slot x.binding ((c.slot x.binding).call x).1 ∧
      (c.call x).2 = ((c.slot x.binding).call x).2 := by
  cases x with
  | register b init => exact ⟨c.slot_register b init, rfl⟩
  | require b cells =>
    simp only [call, Slot.call, Call.binding]
    rcases c.require_cases cells b with ⟨exports, hloaded, hrequire⟩ |
      ⟨hloaded, hregistered, hrequire⟩ | ⟨init, hloaded, hregistered, hrequire⟩
    · rw [hrequire, Slot.require_of_loaded (s := c.slot b) hloaded]
      exact ⟨(Function.update_eq_self b c.slot).symm, rfl⟩
    · rw [hrequire, Slot.require_of_not_registered (s := c.slot b) hloaded hregistered]
      exact ⟨(Function.update_eq_self b c.slot).symm, rfl⟩
    · rw [hrequire, Slot.require_of_registered (s := c.slot b) hloaded hregistered]
      exact ⟨slot_keeping hloaded _, rfl⟩

/-- The call, if it is about a name. -/
def Call.about (b : String) (x : Call) : Option Call :=
  if x.binding = b then some x else none

/-- The slot of a name is visible in its context: the calls about the name are answered by it. -/
theorem shows_slot (b : String) :
    Run.Shows call Slot.call (fun c ↦ c.slot b) (Call.about b) := by
  refine ⟨fun c x x' hpick ↦ ?_, fun c x hpick ↦ ?_⟩
  · obtain ⟨rfl, rfl⟩ : x.binding = b ∧ x = x' := by simpa [Call.about] using hpick
    obtain ⟨hslot, hreply⟩ := c.slot_call x
    rw [hslot, hreply, Function.update_self]
  · have hne : b ≠ x.binding := by
      simpa [Call.about, eq_comm] using hpick
    rw [(c.slot_call x).1, Function.update_of_ne hne]

end Context

end GrammarExport
