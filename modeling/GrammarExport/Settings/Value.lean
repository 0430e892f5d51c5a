import GrammarExport.Decimal.Binary64
import GrammarExport.Dict
import GrammarExport.Text.Quoted

/-!
# Settings as values

What a settings document says, before anyone asks for particular settings: a tree of maps and
lists over plain values. The entries of a map are kept in ascending order of their keys.

Documents are laid over one another (`Value.merge`): maps are merged key by key, and anything else
replaces what was below it.
-/

namespace GrammarExport.Settings

/-- One more than the greatest signed number of 64 bits, 2⁶³. -/
def signedBound : Nat := 0x8000000000000000

/-- The signed number of 64 bits with a sign and a magnitude. -/
def signed64? (negative : Bool) (n : Nat) : Option Int :=
  if negative then (if n ≤ signedBound then some (-n) else none)
  else if n < signedBound then some n
  else none

/-- A value of a settings document. -/
inductive Value where
  | null
  | bool (b : Bool)
  | signed (n : Int)
  | unsigned (n : Nat)
  | float (x : Binary64)
  | char (c : Char)
  | text (s : String)
  | list (items : List Value)
  | map (entries : List (String × Value))
  deriving Repr

namespace Value

/-- A map with the given entries; of several with one key the last counts. -/
def ofEntries (entries : List (String × Value)) : Value :=
  .map (entries.foldl (fun m e ↦ Dict.insertEntry e.1 e.2 m) [])

/-- A value below a path of keys. -/
def nested : (path : List String) → Value → Value
  | [], v => v
  | key :: path, v => .map [(key, nested path v)]

mutual

/-- Lays a value over another one. -/
def merge (base : Value) : (top : Value) → Value
  | .map top =>
    match base with
    | .map entries => .map (mergeEntries entries top)
    | _ => .map top
  | top => top

/-- Lays entries over those of a map. -/
def mergeEntries (base : List (String × Value)) :
    (top : List (String × Value)) → List (String × Value)
  | [] => base
  | (key, v) :: top =>
    let merged := match Dict.find? key base with
      | some below => merge below v
      | none => v
    mergeEntries (Dict.insertEntry key merged base) top

end

/-- The part of a value with a given key or place. -/
def child? (v : Value) (key : String) : Option Value :=
  match v with
  | .map entries => Dict.find? key entries
  | .list items => (key.toNat?).bind fun i ↦ items[i]?
  | _ => none

/-- The part of a value at a path of keys and places. -/
def at? (v : Value) : (path : List String) → Option Value
  | [] => some v
  | key :: path => (v.child? key).bind (·.at? path)

/-- How a value is named where another one was expected. -/
def found : Value → String
  | .null => "unit"
  | .bool b => "bool " ++ toString b
  | .signed n => "signed int `" ++ toString n ++ "`"
  | .unsigned n => "unsigned int `" ++ toString n ++ "`"
  | .float x => "float `" ++ x.text ++ "`"
  | .char c => "string " ++ Quoted.text c.toString
  | .text s => "string " ++ Quoted.text s
  | .list _ => "sequence"
  | .map _ => "map"

end Value

end GrammarExport.Settings
