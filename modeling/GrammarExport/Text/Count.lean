/-!
# Counts

A count is a number below 2⁶⁴, written in decimal digits and perhaps with a plus sign in front.
Reading one goes from left to right and says what is wrong at the first place where something is
(`Count.read`).
-/

namespace GrammarExport.Count

/-- Why a text is not a count. -/
inductive Problem where
  /-- There is no text. -/
  | empty
  /-- A character is not a digit. -/
  | invalidDigit
  /-- The number does not fit. -/
  | tooLarge
  deriving DecidableEq, Repr

/-- The text of a problem. -/
def Problem.message : Problem → String
  | empty => "cannot parse integer from empty string"
  | invalidDigit => "invalid digit found in string"
  | tooLarge => "number too large to fit in target type"

/-- Counts are below this number, 2⁶⁴. -/
def bound : Nat := 0x10000000000000000

/-- Puts a digit behind the number read so far. -/
def push (n : Nat) (c : Char) : Except Problem Nat :=
  if '0' ≤ c ∧ c ≤ '9' then
    let m := 10 * n + (c.toNat - '0'.toNat)
    if m < bound then .ok m else .error .tooLarge
  else .error .invalidDigit

/-- Reads a count. -/
def read : List Char → Except Problem Nat
  | [] => .error .empty
  | '+' :: c :: rest => (c :: rest).foldlM push 0
  | s => s.foldlM push 0

end GrammarExport.Count
