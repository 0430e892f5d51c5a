/-!
# Readers

A reader takes something off the front of a text and gives back what is left, or fails. This
module holds what readers of every format are made of: fixed beginnings, options and repetitions.

A repetition ends with the text: an item that takes nothing off the text cannot be repeated, so
`Reader.many` recurses on the length of what is left.
-/

namespace GrammarExport

/-- Takes something off the front of a text. -/
abbrev Reader := StateT (List Char) Option

/-- The text after a given beginning. -/
def dropPrefix? : List Char → List Char → Option (List Char)
  | [], s => some s
  | _ :: _, [] => none
  | c :: m, d :: s => if c = d then dropPrefix? m s else none

namespace Reader

variable {α : Type}

/-- Fixed characters. -/
def exactly (m : List Char) : Reader Unit := fun s ↦ (dropPrefix? m s).map fun r ↦ ((), r)

/-- The longest run of characters of a class, which may be empty. -/
def run (p : Char → Bool) : Reader (List Char) := fun s ↦ some (s.takeWhile p, s.dropWhile p)

/-- One character of a class. -/
def one (p : Char → Bool) : Reader Char
  | [] => none
  | c :: s => if p c then some (c, s) else none

/-- The first of two readers that succeeds. -/
def either (p q : Reader α) : Reader α := fun s ↦
  match p s with
  | some x => some x
  | none => q s

/-- Something that may be absent. -/
def option (p : Reader α) : Reader (Option α) := fun s ↦
  match p s with
  | some (a, r) => some (some a, r)
  | none => some (none, s)

/-- As many as there are. -/
def many (p : Reader α) (s : List Char) : Option (List α × List Char) :=
  match p s with
  | none => some ([], s)
  | some (a, r) =>
    if r.length < s.length then (many p r).map fun (as, r') ↦ (a :: as, r')
    else none
termination_by s.length

/-- Reads a whole text. -/
def whole (p : Reader α) (s : List Char) : Option α :=
  match p s with
  | some (a, []) => some a
  | _ => none

end Reader

end GrammarExport
