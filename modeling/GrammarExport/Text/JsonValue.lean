import GrammarExport.Text.Hex

/-!
# JSON text

The values that reports and log lines are made of, and their two written forms: on one line
(`JsonValue.compact`), and over several lines with two spaces for each level
(`JsonValue.indented`). Fields are written in the order in which they are given.
-/

namespace GrammarExport

/-- A value that can be written as JSON. -/
inductive JsonValue where
  | null
  | text (s : String)
  | list (items : List JsonValue)
  | record (fields : List (String × JsonValue))

namespace JsonValue

/-- How one character is written between quotes: the quote, the backslash and the control
characters are escaped, and everything else stands for itself. -/
def escape (c : Char) : List Char :=
  if c = '"' then ['\\', '"']
  else if c = '\\' then ['\\', '\\']
  else if c = '\n' then ['\\', 'n']
  else if c = '\r' then ['\\', 'r']
  else if c = '\t' then ['\\', 't']
  else if c = '\x08' then ['\\', 'b']
  else if c = '\x0c' then ['\\', 'f']
  else if c.toNat < 0x20 then '\\' :: 'u' :: (Hex.fixed 4 c.toNat).map (Hex.digit .lower)
  else [c]

/-- A text in double quotes. -/
def quoted (s : String) : String :=
  String.ofList ('"' :: s.toList.flatMap escape ++ ['"'])

/-! ### On one line -/

mutual

/-- A value on one line, without blanks. -/
def compact : JsonValue → String
  | null => "null"
  | text s => quoted s
  | list items => "[" ++ ",".intercalate (compactItems items) ++ "]"
  | record fields => "\x7b" ++ ",".intercalate (compactFields fields) ++ "\x7d"

/-- The items of a list, each on one line. -/
def compactItems : List JsonValue → List String
  | [] => []
  | v :: rest => v.compact :: compactItems rest

/-- The fields of a record, each on one line. -/
def compactFields : List (String × JsonValue) → List String
  | [] => []
  | (name, v) :: rest => (quoted name ++ ":" ++ v.compact) :: compactFields rest

end

/-! ### Over several lines -/

/-- The blanks in front of a line. -/
def indentation (depth : Nat) : String := String.ofList (List.replicate (2 * depth) ' ')

/-- Parts between two marks: each on a line of its own, one level deeper than the closing mark. -/
def block (depth : Nat) (opening closing : String) : List String → String
  | [] => opening ++ closing
  | parts =>
    opening ++ "\n" ++ ",\n".intercalate (parts.map (indentation (depth + 1) ++ ·)) ++ "\n" ++
      indentation depth ++ closing

mutual

/-- A value over several lines, of which the first one is already indented. -/
def indentedAt (depth : Nat) : JsonValue → String
  | null => "null"
  | text s => quoted s
  | list items => block depth "[" "]" (indentedItems (depth + 1) items)
  | record fields => block depth "\x7b" "\x7d" (indentedFields (depth + 1) fields)

/-- The items of a list. -/
def indentedItems (depth : Nat) : List JsonValue → List String
  | [] => []
  | v :: rest => v.indentedAt depth :: indentedItems depth rest

/-- The fields of a record. -/
def indentedFields (depth : Nat) : List (String × JsonValue) → List String
  | [] => []
  | (name, v) :: rest => (quoted name ++ ": " ++ v.indentedAt depth) :: indentedFields depth rest

end

/-- A value over several lines. -/
def indented (v : JsonValue) : String := v.indentedAt 0

end JsonValue

end GrammarExport
