/-!
# Events

What the program says about its own doings: an event has a level, the place it comes from, a
message and named fields. A computation that says something is a value together with the events
it gave off on the way, in order (`Logged`); the events never influence the value.

What the program does to a host, or on standard output, is a computation on a state that can fail
and keeps what it has done by then (`Attempt`).
-/

namespace GrammarExport

/-- How urgent an event is. -/
inductive Level where
  | error
  | warn
  | info
  | debug
  | trace
  deriving DecidableEq, Repr

namespace Level

/-- How much is let through at a level: one for errors only, five for everything. -/
def verbosity : Level → Nat
  | error => 1
  | warn => 2
  | info => 3
  | debug => 4
  | trace => 5

/-- The name of a level, in upper case. -/
def name : Level → String
  | error => "ERROR"
  | warn => "WARN"
  | info => "INFO"
  | debug => "DEBUG"
  | trace => "TRACE"

/-- The levels, most urgent first. -/
def all : List Level := [error, warn, info, debug, trace]

end Level

/-- The value of a field: a text, which is quoted where lines are read by people, or a value that
is shown as it is everywhere. -/
inductive FieldValue where
  | text (s : String)
  | shown (s : String)
  deriving DecidableEq, Repr

/-- Something that the program says about its doings. -/
structure Event where
  level : Level
  target : String
  message : String
  fields : List (String × FieldValue)
  deriving DecidableEq, Repr

/-- A value and the events given off while it was computed, in order. -/
structure Logged (α : Type) where
  value : α
  events : List Event := []
  deriving DecidableEq, Repr

namespace Logged

variable {α β : Type}

/-- Gives off one event. -/
def emit (e : Event) : Logged Unit := ⟨(), [e]⟩

instance : Monad Logged where
  pure a := ⟨a, []⟩
  bind x f := ⟨(f x.value).value, x.events ++ (f x.value).events⟩

@[simp] theorem value_pure (a : α) : (pure a : Logged α).value = a := rfl

@[simp] theorem events_pure (a : α) : (pure a : Logged α).events = [] := rfl

/-- Events do not influence the value of what comes next. -/
@[simp] theorem value_bind (x : Logged α) (f : α → Logged β) :
    (x >>= f).value = (f x.value).value := rfl

/-- Events come in the order in which they are given off. -/
@[simp] theorem events_bind (x : Logged α) (f : α → Logged β) :
    (x >>= f).events = x.events ++ (f x.value).events := rfl

@[simp] theorem value_map (f : α → β) (x : Logged α) : (f <$> x).value = f x.value := rfl

@[simp] theorem events_map (f : α → β) (x : Logged α) : (f <$> x).events = x.events := by
  simp [Functor.map]

@[simp] theorem events_emit (e : Event) : (emit e).events = [e] := rfl

@[ext] theorem ext {x y : Logged α} (hv : x.value = y.value) (he : x.events = y.events) :
    x = y := by
  cases x; cases y; cases hv; cases he; rfl

instance : LawfulMonad Logged :=
  .mk' _
    (fun x ↦ by ext1 <;> simp [Functor.map])
    (fun a f ↦ by ext1 <;> simp)
    (fun x f g ↦ by ext1 <;> simp)

/-! ### Computations that may fail -/

variable {ε : Type}

@[simp] theorem value_run_pure (a : α) : (pure a : ExceptT ε Logged α).run.value = .ok a := rfl

@[simp] theorem value_run_throw (e : ε) :
    (throw e : ExceptT ε Logged α).run.value = .error e := rfl

@[simp] theorem value_run_lift (x : Logged α) :
    (liftM x : ExceptT ε Logged α).run.value = .ok x.value := rfl

/-- An error can be put in other terms afterwards. -/
@[simp] theorem value_run_adapt {ε' : Type} (f : ε → ε') (x : ExceptT ε Logged α) :
    (x.adapt f).run.value = x.run.value.mapError f := rfl

/-- What follows a failure is not computed. -/
@[simp] theorem value_run_bind (x : ExceptT ε Logged α) (f : α → ExceptT ε Logged β) :
    (x >>= f).run.value =
      match x.run.value with
      | .ok a => (f a).run.value
      | .error e => .error e := by
  rw [ExceptT.run_bind, value_bind]
  rcases x.run.value with e | a <;> rfl

end Logged

/-! ### Computations on a state -/

/-- A computation on a state, which may fail, keeping the state it had reached. -/
abbrev Attempt (ε σ : Type) := ExceptT ε (StateT σ Logged)

namespace Attempt

variable {ε ε' σ α β : Type}

/-- A computation that leaves the state alone. -/
def lift (x : ExceptT ε Logged α) : Attempt ε σ α :=
  ExceptT.mk fun s ↦ do return (← x.run, s)

/-- The result of a computation that leaves the state alone, its error put in other terms. -/
def ofResult (f : ε' → ε) (x : Logged (Except ε' α)) : Attempt ε σ α :=
  lift ((ExceptT.mk x).adapt f)

/-- Gives off an event. -/
def emit (e : Event) : Attempt ε σ Unit :=
  lift (Logged.emit e)

/-- Runs a computation and goes on in the state it reached, whether it failed or not. -/
def ignoringErrors (x : Attempt ε σ Unit) : Attempt ε σ Unit :=
  tryCatch x fun _ ↦ pure ()

/-- The outcome and the state reached from `s`. -/
def runFrom (x : Attempt ε σ α) (s : σ) : Logged (Except ε α × σ) :=
  x.run.run s

/-- What does not touch the state leaves it as it is. -/
@[simp] theorem value_runFrom_lift (x : ExceptT ε Logged α) (s : σ) :
    ((lift x).runFrom s).value = (x.run.value, s) := rfl

/-- Taking over a result leaves the state as it is, an error included. -/
@[simp] theorem value_runFrom_ofResult (f : ε' → ε) (x : Logged (Except ε' α)) (s : σ) :
    ((ofResult f x).runFrom s).value = (x.value.mapError f, s) := rfl

@[simp] theorem value_runFrom_emit (e : Event) (s : σ) :
    ((emit e : Attempt ε σ Unit).runFrom s).value = (.ok (), s) := rfl

/-- A computation goes on in the state that the one before it reached, unless that one failed. -/
@[simp] theorem value_runFrom_bind (x : Attempt ε σ α) (f : α → Attempt ε σ β) (s : σ) :
    ((x >>= f).runFrom s).value =
      match (x.runFrom s).value with
      | (.ok a, s') => ((f a).runFrom s').value
      | (.error e, s') => (.error e, s') := by
  rw [runFrom, ExceptT.run_bind, StateT.run_bind, Logged.value_bind]
  show _ = match (x.run.run s).value with
    | (.ok a, s') => ((f a).runFrom s').value
    | (.error e, s') => (.error e, s')
  rcases (x.run.run s).value with ⟨e | a, s'⟩ <;> rfl

end Attempt

end GrammarExport
