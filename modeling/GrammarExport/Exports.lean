import GrammarExport.Dict
import GrammarExport.Surface

/-!
# Exports objects and module initialization

A host hands an exports object to each module it loads. The module defines its two properties in
one call, which the host either carries out as a whole or refuses; whoever uses the module looks
them up. `Host` is any such object: a state and what the calls do to it. `Exports` is the host
object of this library, a dictionary whose entries are written once.

`Host.publish` is the one place where an accessor meets a host, and `Host.language` is the
consumer's side, which for the exports objects of this library is `Exports.language`.
-/

namespace GrammarExport

/-- A value that a module can publish. -/
inductive ExportValue where
  | text (s : String)
  | external (e : External)
  deriving DecidableEq, Repr

namespace ExportValue

/-- The text, if the value is one. -/
def text? : ExportValue → Option String
  | text s => some s
  | external _ => none

/-- The external, if the value is one. -/
def external? : ExportValue → Option External
  | text _ => none
  | external e => some e

/-- The table of a `language` property, if there is one, after the boundary check. -/
def tableOf : Option ExportValue → ExceptT Error Logged Table
  | none => throw (.missingExport languageKey)
  | some (external e) => e.verify
  | some (text _) => throw (.tagMismatch .language none)

/-- The value with its kind. -/
def fields : ExportValue → String
  | text s => Record.wrapped "String" (Quoted.text s)
  | external e => Record.wrapped "External" e.fields

end ExportValue

/-- A property: a key and its value. -/
abbrev Property := String × ExportValue

/-! ### Host objects -/

/-- An action on a host's state, which may fail, keeping the state it had reached. -/
abbrev HostAction (σ : Type) := Attempt Error σ

/-- A host's exports object: what each kind of call does to the host's state, and what the host
answers. A host that says nothing about looking up and listing shows no properties. -/
structure Host (σ : Type) where
  /-- Defines two properties, and tells whether that was a success. -/
  define : Property → Property → σ → Except Error Unit × σ
  /-- Looks up a property. -/
  get : String → σ → Option ExportValue × σ := fun _ s ↦ (none, s)
  /-- Lists the keys of the properties. -/
  keys : σ → List String × σ := fun s ↦ ([], s)

namespace Host

variable {σ : Type}

/-- Asks the host to define two properties. -/
def call (host : Host σ) (first second : Property) : HostAction σ Unit :=
  ExceptT.mk fun s ↦ pure (host.define first second s)

/-- Asks the host for a property. -/
def lookUp (host : Host σ) (key : String) : HostAction σ (Option ExportValue) :=
  ExceptT.mk fun s ↦ pure ((host.get key s).map .ok id)

@[simp] theorem value_runFrom_call (host : Host σ) (first second : Property) (s : σ) :
    ((host.call first second).runFrom s).value = host.define first second s := rfl

@[simp] theorem value_runFrom_lookUp (host : Host σ) (key : String) (s : σ) :
    ((host.lookUp key).runFrom s).value = (host.get key s).map .ok id := rfl

/-- What is said about a module that has published its surface. -/
def initialization (accessor : Accessor) (surface : Surface) : Event where
  level := .debug
  target := "tree_sitter_w_node::module"
  message := "Initialized w module exports"
  fields := [("symbol", .text accessor.symbol), ("name", .text surface.name)]

/-- Initializes a module: publishes the surface of the accessor's table in one call to the
host. -/
def publish (host : Host σ) (accessor : Accessor) (cells : Cells) : HostAction σ Unit := do
  let surface ← Attempt.lift (Surface.load accessor cells)
  host.call (nameKey, .text surface.name) (languageKey, .external surface.language)
  Attempt.emit (initialization accessor surface)

/-- Initializes a module with the generated grammar. -/
def publishGrammar (host : Host σ) (build : Build) (cells : Cells) : HostAction σ Unit := do
  let accessor ← Attempt.lift (ExceptT.mk (pure build.grammar))
  host.publish accessor cells

/-- The consumer's side: the table of the `language` property, after the boundary check. -/
def language (host : Host σ) : HostAction σ Table := do
  Attempt.lift (ExportValue.tableOf (← host.lookUp languageKey))

end Host

/-! ### The write-once exports object -/

/-- An exports object whose properties are written once. -/
structure Exports where
  properties : Dict ExportValue
  deriving DecidableEq

namespace Exports

/-- An exports object without properties. -/
def empty : Exports := ⟨.empty⟩

/-- The value of a property. -/
def get? (e : Exports) (key : String) : Option ExportValue := e.properties.get? key

/-- The keys of the properties, in ascending order. -/
def keys (e : Exports) : List String := e.properties.keys

/-- The number of properties. -/
def size (e : Exports) : Nat := e.properties.size

/-- Whether there are no properties. -/
def isEmpty (e : Exports) : Bool := e.size == 0

/-- Defines two properties, or none of them: neither key may be defined already, and the two must
differ. -/
def define (e : Exports) (first second : Property) : Except Error Exports :=
  match [first, second].find? fun p ↦ e.properties.contains p.1 with
  | some taken => .error (.alreadyInitialized taken.1)
  | none =>
    if first.1 = second.1 then .error (.alreadyInitialized first.1)
    else .ok ⟨(e.properties.insert first.1 first.2).insert second.1 second.2⟩

/-- The exports object as a host: a refused call changes nothing. -/
def host : Host Exports where
  define first second e :=
    match e.define first second with
    | .ok e' => (.ok (), e')
    | .error err => (.error err, e)
  get key e := (e.get? key, e)
  keys e := (e.keys, e)

/-- The consumer's side: the table of the `language` property, after the boundary check. -/
def language (e : Exports) : ExceptT Error Logged Table :=
  ExportValue.tableOf (e.get? languageKey)

/-- The properties with their values. -/
def fields (e : Exports) : String :=
  Record.text "ModuleExports"
    [("properties",
      Record.map (e.properties.entries.map fun p ↦ (Quoted.text p.1, p.2.fields)))]

end Exports

end GrammarExport
