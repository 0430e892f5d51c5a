import GrammarExport.Settings.Value
import GrammarExport.Text.Lowercase

/-!
# Settings

The settings of the inspection tool, how they are taken out of a document
(`Settings.ofDocument`), and which of them are valid (`Settings.validate`). What goes wrong is told
with the path to the place in the document.
-/

namespace GrammarExport

/-- How log lines are written. -/
inductive LogFormat where
  | pretty
  | json
  deriving DecidableEq, Repr

namespace LogFormat

/-- The name of a format in settings. -/
def name : LogFormat → String
  | pretty => "pretty"
  | json => "json"

/-- The format of a name. -/
def ofName? (name : String) : Option LogFormat :=
  [pretty, json].find? (·.name == name)

end LogFormat

/-- The settings for logging. -/
structure LogSettings where
  level : String := "warn"
  format : LogFormat := .pretty
  deriving DecidableEq, Repr

/-- The settings of the inspection tool. -/
structure Settings where
  logging : LogSettings := {}
  deriving DecidableEq, Repr

namespace Settings

/-- What is wrong at a place of a document. -/
inductive Problem where
  /-- A value of another kind was expected. -/
  | invalidType (found : Value) (expected : String)
  /-- A format has an unknown name. -/
  | unknownVariant (found : String)
  /-- A map lacks an entry. -/
  | missingField (name : String)
  /-- A list stands for a map and is too short. -/
  | invalidLength (length : Nat)
  deriving Repr

namespace Problem

/-- The name of the kind of problem. -/
def kind : Problem → String
  | invalidType .. => "InvalidType"
  | unknownVariant .. => "UnknownVariant"
  | missingField .. => "MissingField"
  | invalidLength .. => "InvalidLength"

/-- The text of a problem. -/
def message : Problem → String
  | invalidType found expected =>
    "invalid type: found " ++ found.found ++ ", expected " ++ expected
  | unknownVariant found =>
    "unknown variant: found `" ++ found ++ "`, expected ``pretty` or `json``"
  | missingField name => "missing field `" ++ name ++ "`"
  | invalidLength length =>
    "invalid length " ++ toString length ++ ", expected struct LoggingConfig with 2 elements"

end Problem

/-- A problem and where in the document it is. -/
structure Fault where
  path : List String
  problem : Problem
  deriving Repr

/-! ### Taking settings out of a document -/

/-- The level is any text. -/
def levelOf (path : List String) : Value → Except Fault String
  | .text s => .ok s
  | .char c => .ok c.toString
  | v => .error ⟨path, .invalidType v "a string"⟩

/-- The format is named by a text, or by the first key of a map whose value is null. -/
def formatOf (path : List String) : Value → Except Fault LogFormat
  | .text s =>
    match LogFormat.ofName? s with
    | some f => .ok f
    | none => .error ⟨path, .unknownVariant s⟩
  | .map [] => .error ⟨path, .invalidType (.map []) "enum"⟩
  | .map ((key, v) :: _) =>
    match LogFormat.ofName? key, v with
    | none, _ => .error ⟨path ++ [key], .unknownVariant key⟩
    | some f, .null => .ok f
    | some _, v => .error ⟨path ++ [key], .invalidType v "unit"⟩
  | v => .error ⟨path, .invalidType v "enum LogFormat"⟩

/-- The settings for logging, from a map or from a list of the level and the format. The format
of a map is looked at before its level, and missing entries come last. -/
def logSettingsOf (path : List String) : Value → Except Fault LogSettings
  | .map entries => do
    let format ← (Dict.find? "format" entries).mapM (formatOf (path ++ ["format"]))
    let level ← (Dict.find? "level" entries).mapM (levelOf (path ++ ["level"]))
    match level, format with
    | none, _ => .error ⟨path, .missingField "level"⟩
    | _, none => .error ⟨path, .missingField "format"⟩
    | some level, some format => .ok ⟨level, format⟩
  | .list items =>
    match items with
    | [] => .error ⟨path, .invalidLength 0⟩
    | first :: rest => do
      let level ← levelOf (path ++ ["0"]) first
      match rest with
      | [] => .error ⟨path, .invalidLength 1⟩
      | second :: _ => return ⟨level, ← formatOf (path ++ ["1"]) second⟩
  | v => .error ⟨path, .invalidType v "struct LoggingConfig"⟩

/-- The settings in a document; all of it but `logging` is passed over. -/
def ofDocument (document : Value) : Except Fault Settings :=
  match document.child? "logging" with
  | none => .ok {}
  | some v => (logSettingsOf ["logging"] v).map Settings.mk

/-- Settings as a document. -/
def toDocument (s : Settings) : Value :=
  .map [("logging",
    .map [("format", .text s.logging.format.name), ("level", .text s.logging.level)])]

/-! ### Reading settings that must be complete -/

/-- The format of a complete document: a name, or a map of one name to null. -/
def exactFormat? : Value → Option LogFormat
  | .text s => LogFormat.ofName? s
  | .map [(key, .null)] => LogFormat.ofName? key
  | _ => none

/-- The level of a complete document. -/
def exactLevel? : Value → Option String
  | .text s => some s
  | _ => none

/-- The settings for logging of a complete document: a map with both entries, or a list of
both. -/
def exactLogSettings? : Value → Option LogSettings
  | .map entries => do
    let level ← (Dict.find? "level" entries).bind exactLevel?
    let format ← (Dict.find? "format" entries).bind exactFormat?
    return ⟨level, format⟩
  | .list [level, format] => do return ⟨← exactLevel? level, ← exactFormat? format⟩
  | _ => none

/-- The settings of a complete document: a map, or a list of its only entry. The settings for
logging may be absent as a whole, and not in part. -/
def ofExact? : Value → Option Settings
  | .map entries =>
    match Dict.find? "logging" entries with
    | none => some {}
    | some v => (exactLogSettings? v).map Settings.mk
  | .list [] => some {}
  | .list [v] => (exactLogSettings? v).map Settings.mk
  | _ => none

/-! ### Validity -/

/-- The names of the levels, in lower case. -/
def levelNames : List String := ["trace", "debug", "info", "warn", "error"]

/-- Whether the level of the settings names a level, in any letter case. -/
def isValid (s : Settings) : Bool := levelNames.contains (Lowercase.text s.logging.level)

/-- What is wrong with settings that are not valid. -/
def invalidity (s : Settings) : String :=
  "unknown log level '" ++ s.logging.level ++ "', expected one of " ++
    ", ".intercalate levelNames

/-- Checks settings. -/
def validate (s : Settings) : Except String Unit :=
  if s.isValid then .ok () else .error s.invalidity

end Settings

end GrammarExport
