import GrammarExport.Settings.Value
import GrammarExport.Text.Count
import GrammarExport.Text.Reader

/-!
# Settings in environment variables

A variable whose name starts with `TREE_SITTER_W_`, in any letter case, gives a setting. The rest
of its name is a path of keys, divided by points or double underscores; its text is read as a
value (`Variable.valueOf`): a truth value, a number, a quoted text, a list in brackets, a map in
braces, or else the text as it is. A text that breaks off or goes on after its value is taken as
it is.
-/

namespace GrammarExport.Settings

/-- The variables of an environment in order, names with texts. -/
abbrev Environment := List (String × String)

namespace Environment

/-- The text of a variable. -/
def get? (env : Environment) (name : String) : Option String := env.lookup name

/-- The variable of an entry `name=text`. -/
def entry? (s : String) : Option (String × String) :=
  match s.toList.dropWhile (· != '=') with
  | [] => none
  | _ :: text => some (String.ofList (s.toList.takeWhile (· != '=')), String.ofList text)

/-- The bytes of the entries of a block, each ended by a null byte. -/
def entryBytes (block : ByteArray) : List ByteArray :=
  (block.toList.splitOn 0).map fun entry ↦ ⟨entry.toArray⟩

/-- The environment of a block of entries. An entry that is not a text is left out, on its own. -/
def ofBlock (block : ByteArray) : Environment :=
  (entryBytes block).filterMap fun entry ↦ (String.fromUTF8? entry).bind entry?

end Environment

namespace Variable

/-! ### Names -/

/-- What the names of settings start with. -/
def namePrefix : String := "TREE_SITTER_W_"

/-- Writes a point for each double underscore. -/
def pointed : List Char → List Char
  | '_' :: '_' :: s => '.' :: pointed s
  | c :: s => c :: pointed s
  | [] => []

/-- The parts of a text between points. -/
def splitPoints : List Char → List (List Char)
  | [] => [[]]
  | c :: s =>
    if c = '.' then [] :: splitPoints s
    else
      match splitPoints s with
      | part :: parts => (c :: part) :: parts
      | [] => [[c]]

/-- The path of keys of a variable's name, in lower case, if it names a setting. A name with an
empty part names none. -/
def path? (name : String) : Option (List String) := do
  let rest ← dropPrefix? namePrefix.toList (name.toList.map Char.toUpper)
  let parts := splitPoints (pointed rest)
  if parts.any List.isEmpty then none
  else some (parts.map fun part ↦ String.ofList (part.map Char.toLower))

/-! ### Numbers -/

/-- The number that decimal digits spell. -/
def digitsValue (ds : List Char) : Nat := ds.foldl (fun n c ↦ 10 * n + (c.toNat - '0'.toNat)) 0

/-- Whether a character is a decimal digit. -/
def isDigit (c : Char) : Bool := '0' ≤ c && c ≤ '9'

/-- A nonempty run of digits and nothing else. -/
def natural? (s : List Char) : Option Nat :=
  if !s.isEmpty && s.all isDigit then some (digitsValue s) else none

/-- A sign and what follows it. -/
def splitSign : List Char → Bool × List Char
  | '-' :: s => (true, s)
  | '+' :: s => (false, s)
  | s => (false, s)

/-- An unsigned number of 64 bits, perhaps with a plus sign. -/
def unsigned? (s : List Char) : Option Nat := (Count.read s).toOption

/-- A signed number of 64 bits. -/
def signed? (s : List Char) : Option Int := do
  let (negative, digits) := splitSign s
  signed64? negative (← natural? digits)

/-- The exponent of a decimal number. -/
def exponent? : List Char → Option Int
  | [] => some 0
  | c :: s =>
    if c = 'e' ∨ c = 'E' then
      let (negative, digits) := splitSign s
      (natural? digits).map fun n ↦ if negative then -(n : Int) else n
    else none

/-- A decimal number with a point: digits before it or after it, and perhaps an exponent. -/
def float? (s : List Char) : Option Binary64 := do
  let (negative, s) := splitSign s
  let whole := s.takeWhile isDigit
  match s.dropWhile isDigit with
  | '.' :: s =>
    let fraction := s.takeWhile isDigit
    let e ← exponent? (s.dropWhile isDigit)
    if whole.isEmpty && fraction.isEmpty then none
    else
      some (Binary64.ofDecimal negative (digitsValue (whole ++ fraction)) (e - fraction.length))
  | _ => none

/-! ### Values -/

/-- Whether a character is skipped around values. -/
def isBlank (c : Char) : Bool :=
  c == ' ' || c == '\t' || c == '\n' || c == '\x0c' || c == '\r'

/-- Whether a character is white space in any script; such characters are trimmed off plain
text. -/
def isSpace (c : Char) : Bool :=
  let n := c.toNat
  (9 ≤ n && n ≤ 13) || [0x20, 0x85, 0xa0, 0x1680, 0x2028, 0x2029, 0x202f, 0x205f, 0x3000].contains n
    || (0x2000 ≤ n && n ≤ 0x200a)

/-- Removes white space from both ends. -/
def trim (s : List Char) : List Char :=
  ((s.dropWhile isSpace).reverse.dropWhile isSpace).reverse

/-- Whether a character can stand in plain text. -/
def isPlain (c : Char) : Bool :=
  !(c == ',' || c == '{' || c == '}' || c == '[' || c == ']')

/-- Whether a character can stand in a key without quotes. -/
def inKey (c : Char) : Bool := c.isAlphanum || c == '_' || c == '-'

/-- The value of plain text: a number with a point, a whole number, or the text. -/
def plainValue (s : List Char) : Value :=
  let s := trim s
  match (if s.contains '.' then float? s else none) with
  | some x => .float x
  | none =>
    match unsigned? s with
    | some n => .unsigned n
    | none =>
      match signed? s with
      | some n => .signed n
      | none => .text (String.ofList s)

/-- Skips blanks. -/
def blanks : Reader Unit := fun s ↦ some ((), s.dropWhile isBlank)

/-- The character of a code point. -/
def charOfCode? (n : Nat) : Option Char :=
  if n.isValidChar then some (Char.ofNat n) else none

/-- The character that the digits after `\u` or `\U` stand for. -/
def codePoint (length : Nat) : Reader Char := fun s ↦ do
  let digits := s.take length
  if digits.length < length then none
  else
    let n ← digits.foldlM (fun n c ↦ (Hex.digitValue? c).map (16 * n + ·)) 0
    let c ← charOfCode? n
    some (c, s.drop length)

/-- The rest of a quoted text after its opening quote. -/
def quotedRest : (fuel : Nat) → List Char → Option (List Char × List Char)
  | 0, _ => none
  | fuel + 1, s =>
    match s with
    | [] => none
    | '"' :: s => some ([], s)
    | '\\' :: c :: s =>
      let escaped : Option (Char × List Char) :=
        match c with
        | '"' => some ('"', s)
        | '\\' => some ('\\', s)
        | 'b' => some ('\x08', s)
        | 'f' => some ('\x0c', s)
        | 'n' => some ('\n', s)
        | 'r' => some ('\r', s)
        | 't' => some ('\t', s)
        | 'u' => codePoint 4 s
        | 'U' => codePoint 8 s
        | _ => none
      match escaped with
      | some (c, s) => (quotedRest fuel s).map fun (body, r) ↦ (c :: body, r)
      | none => none
    | c :: s =>
      if c = '\\' then none else (quotedRest fuel s).map fun (body, r) ↦ (c :: body, r)

/-- A quoted text. -/
def quoted : Reader String := fun s ↦
  match s with
  | '"' :: s => (quotedRest (s.length + 1) s).map fun (body, r) ↦ (String.ofList body, r)
  | _ => none

/-- A key of a map. -/
def key : Reader String := fun s ↦
  match s with
  | '"' :: _ => quoted s
  | _ =>
    let k := s.takeWhile inKey
    if k.isEmpty then none else some (String.ofList k, s.dropWhile inKey)

/-- An entry of a map, given a reader of its value. -/
def entry (value : Reader Value) : Reader (String × Value) := do
  blanks
  let k ← key
  blanks
  Reader.exactly ['=']
  return (k, ← value)

/-- Items between commas up to a closing mark, which is taken off; a comma may stand before it. -/
def items {α : Type} (closing : Char) (item : Reader α) (s : List Char) :
    Option (List α × List Char) :=
  match Reader.exactly [closing] s with
  | some ((), r) => some ([], r)
  | none =>
    match item s with
    | none => none
    | some (a, r) =>
      match Reader.exactly [closing] r with
      | some ((), r) => some ([a], r)
      | none =>
        match Reader.exactly [','] r with
        | none => none
        | some ((), r') =>
          if r'.length < s.length then
            (items closing item r').map fun (as, r'') ↦ (a :: as, r'')
          else none
termination_by s.length

/-- A value without the blanks around it, given a reader of the values inside it. -/
def bare (inner : Reader Value) : Reader Value := fun s ↦
  match dropPrefix? "true".toList s with
  | some r => some (.bool true, r)
  | none =>
    match dropPrefix? "false".toList s with
    | some r => some (.bool false, r)
    | none =>
      match s with
      | '{' :: r => (items '}' (entry inner) r).map fun (es, r') ↦ (Value.ofEntries es, r')
      | '[' :: r => (items ']' inner r).map fun (vs, r') ↦ (.list vs, r')
      | '"' :: _ => (quoted s).map fun (t, r) ↦ (.text t, r)
      | '\'' :: c :: '\'' :: r => some (.char c, r)
      | '\'' :: _ => none
      | _ => some (plainValue (s.takeWhile isPlain), s.dropWhile isPlain)

/-- A value with values inside one another at most `depth` deep, and the blanks around it. -/
def valueWithin : (depth : Nat) → Reader Value
  | 0 => failure
  | depth + 1 => do
    blanks
    let v ← bare (valueWithin depth)
    blanks
    return v

/-- The value of a variable's text. -/
def valueOf (text : String) : Value :=
  match Reader.whole (valueWithin (text.length + 1)) text.toList with
  | some v => v
  | none => .text text

end Variable

namespace Environment

/-- The settings of an environment as a document; later variables are laid over earlier ones. -/
def document (env : Environment) : Value :=
  env.foldl
    (fun d (name, text) ↦
      match Variable.path? name with
      | some path => d.merge (Value.nested path (Variable.valueOf text))
      | none => d)
    (.map [])

end Environment

end GrammarExport.Settings
