import GrammarExport.Syntax.Gap
import GrammarExport.Text.Reader

/-!
# Tokens

Readers of the tokens of the language: fixed marks, words, numbers and strings, each with the gap
before it, and lists with commas. Words, numbers and strings are read as long as they can be.

Which tokens are looked for is decided by the construct that is being read. So a word is a keyword
only where the construct asks for that keyword, and a minus sign belongs to the number after it
only where a number is due.
-/

namespace GrammarExport.Syntax

/-- A token with a spelling of its own, and the gap before it. -/
structure Lexeme where
  gap : Gap
  text : List Char
  deriving DecidableEq, Repr

/-! ### Character classes -/

/-- Whether a character can start a word. -/
def startsWord (c : Char) : Bool :=
  ('a' ≤ c && c ≤ 'z') || ('A' ≤ c && c ≤ 'Z') || c == '_'

/-- Whether a character is a decimal digit. -/
def isDigit (c : Char) : Bool :=
  '0' ≤ c && c ≤ '9'

/-- Whether a character can stand in a word. -/
def inWord (c : Char) : Bool :=
  startsWord c || isDigit c

/-! ### Tokens -/

/-- The word at the front of a text: a letter or underscore, and then letters, underscores and
digits. -/
def splitWord? : List Char → Option (List Char × List Char)
  | [] => none
  | c :: s => if startsWord c then some (c :: s.takeWhile inWord, s.dropWhile inWord) else none

/-- The digits at the front of a text, at least one. -/
def splitDigits? : List Char → Option (List Char × List Char)
  | [] => none
  | c :: s => if isDigit c then some (c :: s.takeWhile isDigit, s.dropWhile isDigit) else none

/-- The integer at the front of a text: digits, with a minus sign before them or not. -/
def splitInteger? : List Char → Option (List Char × List Char)
  | '-' :: s => (splitDigits? s).map fun (ds, r) ↦ ('-' :: ds, r)
  | s => splitDigits? s

/-- The fraction at the front of a text: a point and digits. -/
def splitFraction? : List Char → Option (List Char × List Char)
  | '.' :: s => (splitDigits? s).map fun (ds, r) ↦ ('.' :: ds, r)
  | _ => none

/-- The rest of a string after its opening quote, with the closing quote. A backslash takes the
next character with it, unless that is a line break; the null character stands nowhere. -/
def splitString? : List Char → Option (List Char × List Char)
  | [] => none
  | '"' :: s => some (['"'], s)
  | '\\' :: c :: s =>
    if inComment c then (splitString? s).map fun (body, r) ↦ ('\\' :: c :: body, r) else none
  | c :: s =>
    if c = '\\' ∨ c = '\x00' then none
    else (splitString? s).map fun (body, r) ↦ (c :: body, r)

namespace Token

/-- The longest gap. -/
def gap : Reader Gap := fun s ↦ some (Gap.split s)

/-- A token that a given function cuts off the text, and the gap before it. -/
def lexeme (cut : List Char → Option (List Char × List Char)) : Reader Lexeme := fun s ↦
  let (g, r) := Gap.split s
  (cut r).map fun (text, r') ↦ (⟨g, text⟩, r')

/-- A fixed mark; only the gap before it has to be remembered. -/
def mark (m : List Char) : Reader Gap := fun s ↦
  let (g, r) := Gap.split s
  (dropPrefix? m r).map fun r' ↦ (g, r')

/-- Whether the text goes on with a mark after the gap. -/
def nextIs (m : List Char) (s : List Char) : Bool :=
  (dropPrefix? m (Gap.split s).2).isSome

/-- A word. -/
def word : Reader Lexeme := lexeme splitWord?

/-- A word that satisfies a condition. -/
def wordWhere (p : List Char → Bool) : Reader Lexeme := do
  let w ← word
  if p w.text then pure w else failure

/-- One of the given words. -/
def oneOf (words : List String) : Reader Lexeme :=
  wordWhere fun w ↦ words.any (·.toList == w)

/-- A particular word; only the gap before it has to be remembered. -/
def keyword (w : String) : Reader Gap := do
  return (← oneOf [w]).gap

/-- A name: a word other than those that have a meaning of their own where it stands. -/
def name (reserved : List String) : Reader Lexeme :=
  wordWhere fun w ↦ !reserved.any (·.toList == w)

/-- An integer. -/
def integer : Reader Lexeme := lexeme splitInteger?

/-- A string with its quotes. -/
def string : Reader Lexeme :=
  lexeme fun
    | '"' :: s => (splitString? s).map fun (body, r) ↦ ('"' :: body, r)
    | _ => none

end Token

/-- Items with commas between them, and perhaps one after the last: the items up to the last are
each followed by a comma, and the end comes after a comma (or at once) or after an item. -/
inductive CommaList (α : Type) where
  | nil
  | last (item : α)
  | cons (item : α) (comma : Gap) (rest : CommaList α)
  deriving Repr

namespace CommaList

variable {α β : Type}

/-- Reads items up to a closing mark, which is left in place. The list may end before an item if
`mayEnd` says so, and after a comma if `trailing` does. -/
def read (closing : List Char) (trailing : Bool) (item : Reader α) (mayEnd : Bool)
    (s : List Char) : Option (CommaList α × List Char) :=
  if mayEnd && Token.nextIs closing s then some (.nil, s)
  else
    match item s with
    | none => none
    | some (a, r) =>
      match Token.mark [','] r with
      | none => some (.last a, r)
      | some (comma, r') =>
        if r'.length < s.length then
          (read closing trailing item trailing r').map fun (rest, r'') ↦ (.cons a comma rest, r'')
        else none
termination_by s.length

/-- The items in order. -/
def toList : CommaList α → List α
  | nil => []
  | last a => [a]
  | cons a _ rest => a :: rest.toList

end CommaList

end GrammarExport.Syntax
