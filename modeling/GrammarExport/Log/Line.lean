import GrammarExport.Log.Event
import GrammarExport.Text.JsonValue
import GrammarExport.Text.Quoted

/-!
# Log lines

How an event is written on a line: for people, with or without colours (`Event.line`), or as JSON
(`Event.jsonLine`). The time is given as finished text.
-/

namespace GrammarExport

/-- The value of a field in a line for people. -/
def FieldValue.line : FieldValue → String
  | text s => Quoted.text s
  | shown s => s

/-- The value of a field in JSON. -/
def FieldValue.content : FieldValue → String
  | text s => s
  | shown s => s

namespace Level

/-- The name of a level, right-aligned to the longest name. -/
def aligned (l : Level) : String :=
  String.ofList (List.replicate (5 - l.name.length) ' ') ++ l.name

/-- The number of a level's colour on a terminal. -/
def colour : Level → String
  | error => "31"
  | warn => "33"
  | info => "32"
  | debug => "34"
  | trace => "35"

end Level

/-- How the parts of a line for people are set off. -/
inductive Style where
  | plain
  | coloured
  deriving DecidableEq, Repr

namespace Style

/-- A text in a rendition of the terminal, given by its number. -/
def rendered (number text : String) : String := "\x1b[" ++ number ++ "m" ++ text ++ "\x1b[0m"

/-- A text in a rendition, or the text as it is in the plain style. -/
def mark (style : Style) (number text : String) : String :=
  match style with
  | plain => text
  | coloured => rendered number text

/-- The number of the faint rendition. -/
def faint : String := "2"

/-- The number of the italic rendition. -/
def italic : String := "3"

end Style

namespace Event

/-- A field in a line for people. -/
def fieldText (style : Style) (field : String × FieldValue) : String :=
  " " ++ style.mark Style.italic field.1 ++ style.mark Style.faint "=" ++ field.2.line

/-- An event on a line for people. -/
def line (style : Style) (time : String) (e : Event) : String :=
  style.mark Style.faint time ++ " " ++ style.mark e.level.colour e.level.aligned ++ " " ++
    style.mark Style.faint e.target ++ style.mark Style.faint ":" ++ " " ++ e.message ++
    String.join (e.fields.map (fieldText style))

/-- An event as JSON; every field is a text there. -/
def json (time : String) (e : Event) : JsonValue :=
  .record [
    ("timestamp", .text time),
    ("level", .text e.level.name),
    ("fields", .record (("message", .text e.message) ::
      e.fields.map fun field ↦ (field.1, .text field.2.content))),
    ("target", .text e.target)]

/-- An event on a line of JSON. -/
def jsonLine (time : String) (e : Event) : String := (e.json time).compact

end Event

end GrammarExport
