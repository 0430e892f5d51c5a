import GrammarExport.Tag
import GrammarExport.Text.Quoted

/-!
# Errors of the export layer

Each way in which exporting or importing a language table can fail is a constructor of `Error`;
`Error.message` is the text shown to people and `Error.fields` the text shown to developers.
-/

namespace GrammarExport

/-- Why an export or import failed. -/
inductive Error where
  /-- A value carries another tag than the expected one, or none. -/
  | tagMismatch (expected : Tag) (found : Option Tag)
  /-- An accessor, named by its symbol, gave no table. -/
  | nullTable (symbol : String)
  /-- A value has a tag already. -/
  | alreadyTagged (existing : Tag)
  /-- A property of an exports object is defined already. -/
  | alreadyInitialized (key : String)
  /-- This build has no generated grammar. -/
  | grammarUnavailable
  /-- An exports object lacks a property. -/
  | missingExport (key : String)
  /-- No module is registered under a name. -/
  | moduleNotFound (name : String)
  /-- The host object reported a failure of its own. -/
  | host (message : String)
  deriving DecidableEq, Repr

namespace Error

/-- What an error message says about the tag that was found. -/
def describeFound : Option Tag → String
  | some tag => tag.text
  | none => "untagged value"

/-- The text of an error. -/
def message : Error → String
  | tagMismatch expected found =>
    "Type tag mismatch: expected " ++ expected.text ++ ", found " ++ describeFound found
  | nullTable symbol => "Accessor " ++ symbol ++ " returned a null language table"
  | alreadyTagged existing => "External value is already tagged with " ++ existing.text
  | alreadyInitialized key => "Export " ++ key ++ " is already defined on this module"
  | grammarUnavailable => "The w grammar was not generated for this build"
  | missingExport key => "Export " ++ key ++ " is not defined"
  | moduleNotFound name => "Module not found: " ++ name
  | host message => "Host runtime error: " ++ message

/-- The name of the cause. -/
def kind : Error → String
  | tagMismatch .. => "TagMismatch"
  | nullTable .. => "NullTable"
  | alreadyTagged .. => "AlreadyTagged"
  | alreadyInitialized .. => "AlreadyInitialized"
  | grammarUnavailable => "GrammarUnavailable"
  | missingExport .. => "MissingExport"
  | moduleNotFound .. => "ModuleNotFound"
  | host .. => "Host"

/-- Whether the cause is a tag that does not match. -/
def isTagMismatch : Error → Bool
  | tagMismatch .. => true
  | _ => false

/-- The cause with its data, field by field. -/
def fields (e : Error) : String :=
  Record.text e.kind <|
    match e with
    | tagMismatch expected found =>
      [("expected", expected.fields), ("found", Record.option (found.map Tag.fields))]
    | nullTable symbol => [("symbol", Quoted.text symbol)]
    | alreadyTagged existing => [("existing", existing.fields)]
    | alreadyInitialized key => [("key", Quoted.text key)]
    | grammarUnavailable => []
    | missingExport key => [("key", Quoted.text key)]
    | moduleNotFound name => [("name", Quoted.text name)]
    | host message => [("message", Quoted.text message)]

end Error

end GrammarExport
