import GrammarExport.Toml.Scalar

/-!
# TOML documents

A document is a sequence of lines that define keys and tables. Each table may be defined once, and
by one kind of line: `Item` remembers of each table how it came about, so that a line that would
define something again can be refused. `Toml.read?` gives the document as a map.
-/

namespace GrammarExport.Toml

open Settings (Value)

/-! ### Arrays and inline tables -/

/-- What a table holds under a key: a value, which is closed; a table that may still grow, with
how it came about; or an array of tables, of which the last may grow. -/
inductive Item where
  | value (v : Value)
  | table (implicit dotted : Bool) (entries : List (String × Item))
  | tables (items : List (List (String × Item)))

/-- The entries of a table in ascending order of their keys. -/
abbrev Entries := List (String × Item)

mutual

/-- What an item says. -/
def Item.toValue : Item → Value
  | .value v => v
  | .table _ _ entries => .map (entriesToValues entries)
  | .tables items => .list (tablesToValues items)

/-- What the entries of a table say. -/
def entriesToValues : List (String × Item) → List (String × Value)
  | [] => []
  | (key, item) :: rest => (key, item.toValue) :: entriesToValues rest

/-- What tables say. -/
def tablesToValues : List (List (String × Item)) → List Value
  | [] => []
  | entries :: rest => .map (entriesToValues entries) :: tablesToValues rest

end

/-- Changes the table at a path of keys, given whether the table to start from came about by a
dotted key. Tables on the way that do not exist are made; those made by a dotted key may only be
entered by one, and an array of tables is entered at its last table. -/
def descend (byDots : Bool) (change : (dotted : Bool) → Entries → Option Entries) :
    (path : List String) → (dotted : Bool) → Entries → Option Entries
  | [], dotted, entries => change dotted entries
  | key :: path, _, entries =>
    match Dict.find? key entries with
    | none => do
      let inner ← descend byDots change path byDots []
      return Dict.insertEntry key (.table true byDots inner) entries
    | some (.table implicit dotted inner) =>
      if byDots && !implicit then none
      else do
        let inner ← descend byDots change path dotted inner
        return Dict.insertEntry key (.table implicit dotted inner) entries
    | some (.tables items) =>
      match items.getLast? with
      | none => none
      | some last => do
        let inner ← descend byDots change path false last
        return Dict.insertEntry key (.tables (items.dropLast ++ [inner])) entries
    | some (.value _) => none

/-- Splits a path into the way and the last key. -/
def splitLast? (path : List String) : Option (List String × String) :=
  path.getLast?.map fun last ↦ (path.dropLast, last)

/-- Defines a key, perhaps dotted, in a table. -/
def define (path : List String) (v : Value) (entries : Entries) : Option Entries := do
  let (way, key) ← splitLast? path
  descend true
    (fun dotted inner ↦
      if dotted == way.isEmpty then none
      else
        match Dict.find? key inner with
        | some _ => none
        | none => some (Dict.insertEntry key (.value v) inner))
    way false entries

/-- Opens the table of a header. A table may be opened if it does not exist, or exists only as the
way to another one. -/
def openTable (path : List String) (entries : Entries) : Option Entries := do
  let (way, key) ← splitLast? path
  descend false
    (fun _ inner ↦
      match Dict.find? key inner with
      | none => some (Dict.insertEntry key (.table false false []) inner)
      | some (.table true false t) => some (Dict.insertEntry key (.table false false t) inner)
      | some _ => none)
    way false entries

/-- Adds a table to the array of tables of a header. -/
def addTable (path : List String) (entries : Entries) : Option Entries := do
  let (way, key) ← splitLast? path
  descend false
    (fun _ inner ↦
      match Dict.find? key inner with
      | none => some (Dict.insertEntry key (.tables [[]]) inner)
      | some (.tables items) => some (Dict.insertEntry key (.tables (items ++ [[]])) inner)
      | some _ => none)
    way false entries

/-- Defines a key in the table of the last header. -/
def defineUnder (header path : List String) (v : Value) (entries : Entries) : Option Entries :=
  descend false (fun _ inner ↦ define path v inner) header false entries

/-! ### Reading -/

/-- A key and its value, given a reader of values. -/
def assignment (value : Reader Value) : Reader (List String × Value) := do
  let path ← key
  Reader.exactly ['=']
  blanks
  let v ← value
  return (path, v)

/-- The items of an array up to its closing bracket, which is taken off. -/
def arrayItems (value : Reader Value) (s : List Char) : Option (List Value × List Char) :=
  match layout s with
  | none => none
  | some ((), s₁) =>
    match s₁ with
    | ']' :: r => some ([], r)
    | _ =>
      match value s₁ with
      | none => none
      | some (v, r) =>
        match layout r with
        | some ((), ']' :: r) => some ([v], r)
        | some ((), ',' :: r') =>
          if r'.length < s.length then
            (arrayItems value r').map fun (vs, r'') ↦ (v :: vs, r'')
          else none
        | _ => none
termination_by s.length

/-- The assignments of an inline table up to its closing brace, which is taken off. -/
def inlineAssignments (value : Reader Value) (s : List Char) :
    Option (List (List String × Value) × List Char) :=
  match assignment value s with
  | none => none
  | some (a, r) =>
    match r.dropWhile isBlank with
    | '}' :: r => some ([a], r)
    | ',' :: r' =>
      if r'.length < s.length then
        (inlineAssignments value r').map fun (as, r'') ↦ (a :: as, r'')
      else none
    | _ => none
termination_by s.length

/-- An inline table after its opening brace. -/
def inlineTable (value : Reader Value) : Reader Value := fun s ↦
  match s.dropWhile isBlank with
  | '}' :: r => some (.map [], r)
  | _ => do
    let (assignments, r) ← inlineAssignments value s
    let entries ← assignments.foldlM (fun t (path, v) ↦ define path v t) []
    some (.map (entriesToValues entries), r)

/-- A value, given a reader of the values inside it. -/
def valueAround (inner : Reader Value) : Reader Value := fun s ↦
  match s with
  | '[' :: r => (arrayItems inner r).map fun (vs, r') ↦ (.list vs, r')
  | '{' :: r => inlineTable inner r
  | _ => scalar s

/-- A value with values inside one another at most `depth` deep. -/
def valueWithin : (depth : Nat) → Reader Value
  | 0 => valueAround failure
  | depth + 1 => valueAround (valueWithin depth)

/-- A value. No text has more brackets inside one another than characters. -/
def value : Reader Value := fun s ↦ valueWithin s.length s

/-- A line that says something. -/
inductive Line where
  | empty
  | define (path : List String) (v : Value)
  | table (path : List String)
  | arrayTable (path : List String)

/-- A line with its end. -/
def line : Reader Line := do
  blanks
  let what ← fun s ↦
    match s with
    | '[' :: '[' :: r => (do
      let path ← key
      Reader.exactly [']', ']']
      return .arrayTable path : Reader Line) r
    | '[' :: r => (do
      let path ← key
      Reader.exactly [']']
      return .table path : Reader Line) r
    | '#' :: _ => some (.empty, s)
    | '\n' :: _ => some (.empty, s)
    | '\r' :: _ => some (.empty, s)
    | [] => some (.empty, s)
    | _ => (do
      let (path, v) ← assignment value
      return .define path v : Reader Line) s
  restOfLine
  return what

/-- The lines of a text. -/
def lines (s : List Char) : Option (List Line) :=
  if s.isEmpty then some []
  else
    match line s with
    | none => none
    | some (l, r) =>
      if r.length < s.length then (lines r).map (l :: ·) else none
termination_by s.length

/-- What a line does to the document, under the header that came last. -/
def Line.apply : Line → List String × Entries → Option (List String × Entries)
  | .empty, state => some state
  | .define path v, (header, entries) =>
    (defineUnder header path v entries).map fun entries ↦ (header, entries)
  | .table path, (_, entries) => (openTable path entries).map fun entries ↦ (path, entries)
  | .arrayTable path, (_, entries) => (addTable path entries).map fun entries ↦ (path, entries)

/-- What a document says, as a map. A byte order mark at the start is skipped. -/
def read? (text : String) : Option Value := do
  let s := match text.toList with
    | c :: s => if c = '\uFEFF' then s else c :: s
    | [] => []
  let ls ← lines s
  let (_, entries) ← ls.foldlM (fun state l ↦ l.apply state) ([], [])
  return .map (entriesToValues entries)

end GrammarExport.Toml
