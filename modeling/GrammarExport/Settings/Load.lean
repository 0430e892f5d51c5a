import GrammarExport.Log.Event
import GrammarExport.Settings.Basic
import GrammarExport.Settings.Environment
import GrammarExport.Settings.Location
import GrammarExport.Toml.Document

/-!
# Loading settings

Settings come in three layers: the defaults, a file, and the environment. Each is laid over the
one before it, and the settings are taken out of the result (`Settings.load`). An error names the
key as it is written in the layer that supplied the value in question (`Layers.origin`).
-/

namespace GrammarExport.Settings

/-- The documents above the defaults: that of the file, if there is one, with the name of the
file, and that of the environment. -/
structure Layers where
  file : Option (String × Value)
  environment : Value

/-- Where a value comes from. -/
inductive Origin where
  | defaults
  | file (name : String)
  | environment
  deriving DecidableEq, Repr

namespace Layers

/-- The layers laid over the defaults. -/
def merged (l : Layers) : Value :=
  let base := ({} : Settings).toDocument
  let withFile := match l.file with
    | some (_, document) => base.merge document
    | none => base
  withFile.merge l.environment

/-- The topmost layer that has a value at a path. -/
def origin (l : Layers) (path : List String) : Origin :=
  if (l.environment.at? path).isSome then .environment
  else
    match l.file with
    | some (name, document) => if (document.at? path).isSome then .file name else .defaults
    | none => .defaults

end Layers

/-- How a place in a layer is named: the key, and the layer. -/
def Origin.place (path : List String) : Origin → String
  | .defaults => ""
  | .file name => " for key \"default." ++ ".".intercalate path ++ "\" in " ++ name ++ " TOML file"
  | .environment =>
    " for key \"" ++ ".".intercalate (path.map String.toUpper) ++ "\" in `" ++
      Variable.namePrefix ++ "` environment variable(s)"

/-- Why settings could not be loaded. -/
inductive LoadError where
  /-- The file is not a document. -/
  | unreadable
  /-- A layer has something wrong in it. -/
  | fault (f : Fault) (origin : Origin)
  /-- The settings are not valid. -/
  | invalid (message : String)
  deriving Repr

namespace LoadError

/-- What is wrong, without saying where in the program it came up. -/
def cause : LoadError → String
  | unreadable => "TOML parse error"
  | fault f origin => f.problem.message ++ origin.place f.path
  | invalid message => message

/-- The text of an error. -/
def message : LoadError → String
  | invalid message => "Invalid configuration: " ++ message
  | e => "Failed to load configuration: " ++ e.cause

end LoadError

/-- Settings from layers. -/
def ofLayers (l : Layers) : Except LoadError Settings :=
  match ofDocument l.merged with
  | .error f => .error (.fault f (l.origin f.path))
  | .ok s =>
    match s.validate with
    | .error message => .error (.invalid message)
    | .ok () => .ok s

/-- The name of the file that settings are loaded from if no other is asked for. -/
def defaultFile : String := "tree-sitter-w.toml"

/-- What is said before settings are loaded. -/
def loading (path : String) : Event where
  level := .debug
  target := "w_config"
  message := "Loading configuration"
  fields := [("path", .shown path)]

/-- The layers above the defaults, or nothing if the file is not a document. -/
def layers? (files : FileTree) (env : Environment) (path : String) : Option Layers :=
  match files.find? (Path.ofText path) with
  | none => some ⟨none, env.document⟩
  | some (parts, text) =>
    (Toml.read? text).map fun document ↦ ⟨some (files.relative parts, document), env.document⟩

/-- Loads settings from the file at a path, if there is one, and from the environment. -/
def load (files : FileTree) (env : Environment) (path : String) :
    Logged (Except LoadError Settings) := do
  Logged.emit (loading path)
  match layers? files env path with
  | none => return .error .unreadable
  | some layers => return ofLayers layers

end GrammarExport.Settings
