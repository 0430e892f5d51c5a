import GrammarExport.Exports

/-!
# Host contexts

A context is one independent host environment. Modules are registered under a name with an
initializer and loaded when they are first required; what was loaded is handed out again by every
later `Context.require`, and a failed load leaves nothing behind.
-/

namespace GrammarExport

/-- What loading a module does to its fresh exports object, given the accessors' cells at that
time. -/
abbrev Initializer := Cells → HostAction Exports Unit

namespace Initializer

/-- Publishes the surface of an accessor's table. -/
def ofAccessor (accessor : Accessor) : Initializer :=
  fun cells ↦ Exports.host.publish accessor cells

/-- Publishes the surface of the generated grammar. -/
def ofGrammar (build : Build) : Initializer :=
  fun cells ↦ Exports.host.publishGrammar build cells

/-- Defines two properties. -/
def define (first second : Property) : Initializer :=
  fun _ ↦ Exports.host.call first second

/-- Fails. -/
def fail (e : Error) : Initializer := fun _ ↦ throw e

/-- Does something and goes on after an error. -/
def ignoringErrors (init : Initializer) : Initializer :=
  fun cells ↦ (init cells).ignoringErrors

/-- One thing after another, up to the first error. -/
def inOrder (inits : List Initializer) : Initializer :=
  fun cells ↦ inits.forM fun init ↦ init cells

end Initializer

/-- The name under which hosts know the module of the grammar. -/
def bindingName : String := "tree_sitter_w_binding"

/-- A host environment: the initializers that are registered and the exports of the modules that
are loaded. -/
structure Context where
  registered : Dict Initializer
  loaded : Dict Exports

namespace Context

/-- A context without modules. -/
def empty : Context := ⟨.empty, .empty⟩

/-- Registers an initializer, over an earlier one of the same name. A module that is loaded stays
loaded. -/
def register (c : Context) (binding : String) (init : Initializer) : Context :=
  ⟨c.registered.insert binding init, c.loaded⟩

/-- A context with the grammar's module registered against an accessor. -/
def withBinding (accessor : Accessor) : Context :=
  empty.register bindingName (.ofAccessor accessor)

/-- A context with the grammar's module registered against the generated grammar. -/
def withGrammar (build : Build) : Except Error Context :=
  build.grammar.map withBinding

/-- Whether a module is loaded. -/
def isLoaded (c : Context) (binding : String) : Bool := c.loaded.contains binding

/-- What is said about a module that was loaded. -/
def loading (binding : String) : Event where
  level := .debug
  target := "tree_sitter_w_node::context"
  message := "Loaded module"
  fields := [("binding", .text binding)]

/-- The answer to a request for a module: the exports or an error, the context afterwards, and the
initializer that was run for it, if one was. -/
structure Answer where
  result : Except Error Exports
  context : Context
  ran : Option Initializer

/-- The exports of a module. Its initializer is run on fresh exports if the module is not loaded
yet; if that fails, nothing is kept. -/
def require (c : Context) (cells : Cells) (binding : String) : Logged Answer :=
  match c.loaded.get? binding with
  | some exports => pure ⟨.ok exports, c, none⟩
  | none =>
    match c.registered.get? binding with
    | none => pure ⟨.error (.moduleNotFound binding), c, none⟩
    | some init => do
      match ← (init cells).runFrom .empty with
      | (.error e, _) => pure ⟨.error e, c, some init⟩
      | (.ok (), exports) =>
        Logged.emit (loading binding)
        pure ⟨.ok exports, ⟨c.registered, c.loaded.insert binding exports⟩, some init⟩

/-- The names of the registered and of the loaded modules. -/
def fields (c : Context) : String :=
  Record.text "HostContext"
    [("registered", Record.list (c.registered.keys.map Quoted.text)),
      ("loaded", Record.list (c.loaded.keys.map Quoted.text))]

end Context

end GrammarExport
