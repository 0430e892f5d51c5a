import GrammarExport.Text.Hex
import GrammarExport.Text.Printable

/-!
# Quoted text

Text between double quotes, as developers see it: the quote and the backslash are preceded by a
backslash, line breaks, tabs and the null character have short escapes, and every other character
that is not printable is written by its code point. A single quote is written as it is.
-/

namespace GrammarExport.Quoted

/-- How one character is written between the quotes. -/
def escape (c : Char) : List Char :=
  if c = '"' then ['\\', '"']
  else if c = '\\' then ['\\', '\\']
  else if c = '\n' then ['\\', 'n']
  else if c = '\r' then ['\\', 'r']
  else if c = '\t' then ['\\', 't']
  else if c = '\x00' then ['\\', '0']
  else if Printable.isPrintable c then [c]
  else
    '\\' :: 'u' :: '\x7b' :: (Hex.shortest c.toNat).map (Hex.digit .lower) ++ ['\x7d']

/-- A text in double quotes. -/
def text (s : String) : String :=
  String.ofList ('"' :: s.toList.flatMap escape ++ ['"'])

end GrammarExport.Quoted
