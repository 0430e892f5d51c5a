/-!
# Text of records

How a value with named parts is shown to developers: `Name { field: value, … }`, or the bare
name if there are no parts. The parts are given as finished text.
-/

namespace GrammarExport.Record

/-- A name and its named parts; the bare name if there are none. -/
def text (name : String) (parts : List (String × String)) : String :=
  match parts with
  | [] => name
  | _ =>
    name ++ " \x7b " ++ ", ".intercalate (parts.map fun p ↦ p.1 ++ ": " ++ p.2) ++ " \x7d"

/-- A value with one unnamed part. -/
def wrapped (name value : String) : String :=
  name ++ "(" ++ value ++ ")"

/-- A value that may be absent. -/
def option : Option String → String
  | some value => wrapped "Some" value
  | none => "None"

/-- A list of values. -/
def list (values : List String) : String :=
  "[" ++ ", ".intercalate values ++ "]"

/-- Keys with their values, both finished text. -/
def map (entries : List (String × String)) : String :=
  "\x7b" ++ ", ".intercalate (entries.map fun e ↦ e.1 ++ ": " ++ e.2) ++ "\x7d"

end GrammarExport.Record
