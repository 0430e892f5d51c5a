import GrammarExport.Syntax.Token

/-!
# Values and literals

The constants of the language: numbers, booleans, strings, ranges, items of enumerations, arrays
and records with named fields. Literals are the values, and calls and names beside them.

Braces around nothing are an array. Braces are a record if a name and a colon follow the opening
one; `true` and `false` are no such names there, but may name the later fields.
-/

namespace GrammarExport.Syntax

/-- A named field of a record. -/
structure Field (α : Type) where
  key : Lexeme
  colon : Gap
  value : α
  deriving Repr

/-- A constant. -/
inductive Value where
  | integer (t : Lexeme)
  | double (t : Lexeme)
  | boolean (t : Lexeme)
  | string (t : Lexeme)
  | range (opening : Gap) (low : Lexeme) (slash : Gap) (high : Lexeme) (closing : Gap)
  | enumItem (type : Lexeme) (dot : Gap) (item : Lexeme)
  | array (opening : Gap) (items : CommaList Value) (closing : Gap)
  | record (opening : Gap) (entries : CommaList (Field Value)) (closing : Gap)
  deriving Repr

/-- A constant, a call, or a name. -/
inductive Literal where
  | value (v : Value)
  | call (name : Lexeme) (opening : Gap) (arguments : CommaList Literal) (closing : Gap)
  | globalCall (keyword dot : Gap) (name : Lexeme) (opening : Gap)
      (arguments : CommaList Literal) (closing : Gap)
  | moduleVariable (sign : Gap) (owner : Lexeme) (dot : Gap) (name : Lexeme)
  | named (t : Lexeme)
  deriving Repr

/-- The words that are values. -/
def booleanWords : List String := ["true", "false"]

/-- The words that begin a literal and are no names there. -/
def literalWords : List String := "global" :: booleanWords

namespace Value

/-- A number: an integer, or a double if a fraction follows directly. -/
def readNumber : Reader Value := fun s ↦
  match Token.integer s with
  | none => none
  | some (t, r) =>
    match splitFraction? r with
    | none => some (.integer t, r)
    | some (fraction, r') => some (.double ⟨t.gap, t.text ++ fraction⟩, r')

/-- A range between two integers. -/
def readRange : Reader Value := do
  let opening ← Token.mark ['[']
  let low ← Token.integer
  let slash ← Token.mark ['/']
  let high ← Token.integer
  let closing ← Token.mark [']']
  return .range opening low slash high closing

/-- An item of an enumeration. -/
def readEnumItem : Reader Value := do
  let type ← Token.name booleanWords
  let dot ← Token.mark ['.']
  let item ← Token.name []
  return .enumItem type dot item

/-- A field of a record. -/
def readField (value : Reader Value) : Reader (Field Value) := do
  let key ← Token.name []
  let colon ← Token.mark [':']
  let v ← value
  return ⟨key, colon, v⟩

/-- Whether the name and the colon of a record's first field come next. -/
def fieldAhead (s : List Char) : Bool :=
  match Token.name booleanWords s with
  | some (_, r) => Token.nextIs [':'] r
  | none => false

/-- An array or a record, given a reader of what stands in it. -/
def readBraces (value : Reader Value) : Reader Value := do
  let opening ← Token.mark ['{']
  if fieldAhead (← get) then
    let entries ← CommaList.read ['}'] true (readField value) true
    let closing ← Token.mark ['}']
    return .record opening entries closing
  else
    let items ← CommaList.read ['}'] true value true
    let closing ← Token.mark ['}']
    return .array opening items closing

/-- A value, given a reader of the values inside its braces. The first character decides what kind
of value it is. -/
def readAround (inner : Reader Value) : Reader Value := fun s ↦
  match (Gap.split s).2 with
  | [] => none
  | c :: _ =>
    if c = '"' then (Value.string <$> Token.string) s
    else if c = '[' then readRange s
    else if c = '{' then readBraces inner s
    else if startsWord c then
      match Token.oneOf booleanWords s with
      | some (t, r) => some (.boolean t, r)
      | none => readEnumItem s
    else readNumber s

/-- A value with values inside one another at most `depth` deep. -/
def readWithin : (depth : Nat) → Reader Value
  | 0 => readAround failure
  | depth + 1 => readAround (readWithin depth)

/-- A value. No text has more braces inside one another than characters. -/
def read : Reader Value := fun s ↦ readWithin s.length s

end Value

namespace Literal

/-- A call of a function, given a reader of its arguments. -/
def readCall (argument : Reader Literal) :
    Reader (Lexeme × Gap × CommaList Literal × Gap) := do
  let name ← Token.name []
  let opening ← Token.mark ['(']
  let arguments ← CommaList.read [')'] false argument true
  let closing ← Token.mark [')']
  return (name, opening, arguments, closing)

/-- A call of a global function, given a reader of its arguments. -/
def readGlobalCall (argument : Reader Literal) : Reader Literal := do
  let keyword ← Token.keyword "global"
  let dot ← Token.mark ['.']
  let (name, opening, arguments, closing) ← readCall argument
  return .globalCall keyword dot name opening arguments closing

/-- A variable of another module. -/
def readModuleVariable : Reader Literal := do
  let sign ← Token.mark ['@']
  let owner ← Token.name []
  let dot ← Token.mark ['.']
  let name ← Token.name []
  return .moduleVariable sign owner dot name

/-- A literal that begins with a name: a call if a parenthesis follows, an item of an enumeration
if a point does, and otherwise the name alone. -/
def readNamed (argument : Reader Literal) : Reader Literal := fun s ↦
  match Token.name literalWords s with
  | none => none
  | some (t, r) =>
    if Token.nextIs ['('] r then
      (do
        let (name, opening, arguments, closing) ← readCall argument
        return .call name opening arguments closing : Reader Literal) s
    else if Token.nextIs ['.'] r then (Literal.value <$> Value.readEnumItem) s
    else some (.named t, r)

/-- A literal, given a reader of its arguments if it is a call. -/
def readAround (argument : Reader Literal) : Reader Literal := fun s ↦
  match (Gap.split s).2 with
  | [] => none
  | c :: _ =>
    if c = '@' then readModuleVariable s
    else if startsWord c then
      match Token.oneOf booleanWords s with
      | some (t, r) => some (.value (.boolean t), r)
      | none =>
        match Token.keyword "global" s with
        | some _ => readGlobalCall argument s
        | none => readNamed argument s
    else (Literal.value <$> Value.read) s

/-- A literal with literals inside one another at most `depth` deep. -/
def readWithin : (depth : Nat) → Reader Literal
  | 0 => readAround failure
  | depth + 1 => readAround (readWithin depth)

/-- A literal. No text has more calls inside one another than characters. -/
def read : Reader Literal := fun s ↦ readWithin s.length s

end Literal

end GrammarExport.Syntax
