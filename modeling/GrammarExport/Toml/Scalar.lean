import GrammarExport.Settings.Value
import GrammarExport.Text.Reader

/-!
# TOML scalars and keys

Readers of the parts of a TOML document that stand on one line: blanks and comments, strings in
their four forms, numbers, truth values, dates and times, and keys. Only what a part says is kept,
not how it was written. A date or time becomes a map of one reserved key to its text.
-/

namespace GrammarExport.Toml

open Settings (Value)

/-! ### Lines -/

/-- Whether a character is a blank within a line. -/
def isBlank (c : Char) : Bool := c == ' ' || c == '\t'

/-- Whether a character can stand in a comment: anything but a control, tabs apart. -/
def inComment (c : Char) : Bool :=
  c == '\t' || (0x20 ≤ c.toNat && c.toNat != 0x7f)

/-- Skips blanks. -/
def blanks : Reader Unit := fun s ↦ some ((), s.dropWhile isBlank)

/-- A line break. -/
def newline : Reader Unit := fun s ↦
  match s with
  | '\n' :: r => some ((), r)
  | '\r' :: '\n' :: r => some ((), r)
  | _ => none

/-- A comment, up to the end of its line. -/
def comment : Reader Unit := fun s ↦
  match s with
  | '#' :: r => some ((), r.dropWhile inComment)
  | _ => none

/-- The end of a line or of the text. -/
def lineEnd : Reader Unit := fun s ↦
  match s with
  | [] => some ((), [])
  | _ => newline s

/-- What may follow on a line: blanks, a comment, and the end of the line. -/
def restOfLine : Reader Unit := do
  blanks
  let _ ← Reader.option comment
  lineEnd

/-- Skips blanks, line breaks and comments, which may stand anywhere in an array. -/
def layout : Reader Unit := do
  let _ ← Reader.many do
    let skipped ← Reader.run isBlank
    if skipped.isEmpty then
      let c ← Reader.option comment
      match c with
      | some () => newline
      | none => newline
  return ()

/-! ### Strings -/

/-- Whether a character can stand unescaped in a string on one line. -/
def inString (c : Char) : Bool := inComment c

/-- The character that a number of hexadecimal digits stands for. -/
def codePoint (length : Nat) (s : List Char) : Option (Char × List Char) := do
  let digits := s.take length
  if digits.length < length then none
  else
    let n ← digits.foldlM (fun n c ↦ (Hex.digitValue? c).map (16 * n + ·)) 0
    if n.isValidChar then some (Char.ofNat n, s.drop length) else none

/-- The character that the text after a backslash stands for. -/
def escape : List Char → Option (Char × List Char)
  | 'b' :: s => some ('\x08', s)
  | 't' :: s => some ('\t', s)
  | 'n' :: s => some ('\n', s)
  | 'f' :: s => some ('\x0c', s)
  | 'r' :: s => some ('\r', s)
  | '"' :: s => some ('"', s)
  | '\\' :: s => some ('\\', s)
  | 'u' :: s => codePoint 4 s
  | 'U' :: s => codePoint 8 s
  | _ => none

/-- What a string is made of: its quote, whether backslashes escape, and whether it may go over
several lines. -/
structure Style where
  quote : Char
  escapes : Bool
  multiline : Bool

/-- Skips the blanks and line breaks after a backslash at the end of a line. -/
def skipFold (s : List Char) : Option (List Char) :=
  match newline (s.dropWhile isBlank) with
  | some ((), r) => some (r.dropWhile fun c ↦ isBlank c || c == '\n' || c == '\r')
  | none => none

/-- The rest of a string after its opening. A string over several lines ends with three quotes,
before which up to two more belong to it. -/
def stringRest (style : Style) : (fuel : Nat) → List Char → Option (List Char × List Char)
  | 0, _ => none
  | fuel + 1, s =>
    let go (c : Char) (r : List Char) : Option (List Char × List Char) :=
      (stringRest style fuel r).map fun (body, r') ↦ (c :: body, r')
    match s with
    | [] => none
    | c :: r =>
      if c = style.quote then
        if style.multiline then
          let run := (s.takeWhile (· == style.quote)).length
          if run < 3 then go c r
          else
            let taken := min run 5
            some (List.replicate (taken - 3) c, s.drop taken)
        else some ([], r)
      else if c = '\\' ∧ style.escapes then
        match escape r with
        | some (e, r') => go e r'
        | none =>
          if style.multiline then
            match skipFold r with
            | some r' => stringRest style fuel r'
            | none => none
          else none
      else if inString c then go c r
      else if style.multiline then
        match newline s with
        | some ((), r') => go '\n' r'
        | none => none
      else none

/-- A string of a style, after its opening quotes. -/
def stringAfter (style : Style) (s : List Char) : Option (String × List Char) :=
  (stringRest style (s.length + 1) s).map fun (body, r) ↦ (String.ofList body, r)

/-- A string over several lines; a line break right after the opening is dropped. -/
def multilineAfter (style : Style) (s : List Char) : Option (String × List Char) :=
  match newline s with
  | some ((), r) => stringAfter style r
  | none => stringAfter style s

/-- A string on one line. -/
def lineString : Reader String := fun s ↦
  match s with
  | '"' :: r => stringAfter ⟨'"', true, false⟩ r
  | '\'' :: r => stringAfter ⟨'\'', false, false⟩ r
  | _ => none

/-- A string in any of its forms. -/
def string : Reader String := fun s ↦
  match s with
  | '"' :: '"' :: '"' :: r => multilineAfter ⟨'"', true, true⟩ r
  | '\'' :: '\'' :: '\'' :: r => multilineAfter ⟨'\'', false, true⟩ r
  | _ => lineString s

/-! ### Numbers -/

/-- Whether a character is a decimal digit. -/
def isDigit (c : Char) : Bool := '0' ≤ c && c ≤ '9'

/-- The number that digits of a base spell. -/
def digitsValue (base : Nat) (ds : List Char) : Nat :=
  ds.foldl (fun n c ↦ base * n + (Hex.digitValue? c).getD 0) 0

/-- Digits of a class, at least one, with single underscores between them, which are dropped. -/
def digits (p : Char → Bool) : Reader (List Char) := do
  let first ← Reader.one p
  let more ← Reader.many do
    let _ ← Reader.option (Reader.exactly ['_'])
    Reader.one p
  return first :: more

/-- A sign; whether it is a minus. -/
def sign : Reader Bool := fun s ↦
  match s with
  | '-' :: r => some (true, r)
  | '+' :: r => some (false, r)
  | _ => some (false, s)

/-- A decimal integer without leading zeros: its sign and its digits. -/
def decimal : Reader (Bool × List Char) := do
  let negative ← sign
  fun s ↦
    match s with
    | '0' :: r => some ((negative, ['0']), r)
    | _ => (digits isDigit s).map fun (ds, r) ↦ ((negative, ds), r)

/-- A signed number of 64 bits. -/
def integerValue (negative : Bool) (n : Nat) : Option Value :=
  (Settings.signed64? negative n).map .signed

/-- An integer in decimal, or in another base after its mark. -/
def integer : Reader Value := fun s ↦
  let based (base : Nat) (p : Char → Bool) (r : List Char) := do
    let (ds, r') ← digits p r
    let v ← integerValue false (digitsValue base ds)
    some (v, r')
  match s with
  | '0' :: 'x' :: r => based 16 (fun c ↦ (Hex.digitValue? c).isSome) r
  | '0' :: 'o' :: r => based 8 (fun c ↦ '0' ≤ c && c ≤ '7') r
  | '0' :: 'b' :: r => based 2 (fun c ↦ c == '0' || c == '1') r
  | _ => do
    let ((negative, ds), r) ← decimal s
    let v ← integerValue negative (digitsValue 10 ds)
    some (v, r)

/-- An exponent. -/
def exponent : Reader Int := do
  let _ ← Reader.one fun c ↦ c == 'e' || c == 'E'
  let negative ← sign
  let n := digitsValue 10 (← digits isDigit)
  return if negative then -(n : Int) else n

/-- A fraction or an exponent or both. -/
def fractionAndExponent : Reader (List Char × Int) := fun s ↦
  match s with
  | '.' :: r => do
    let (ds, r) ← digits isDigit r
    let (e, r) ← Reader.option exponent r
    some ((ds, e.getD 0), r)
  | _ => (exponent s).map fun (e, r) ↦ (([], e), r)

/-- A number with a fraction or an exponent. Numbers beyond the largest are refused. -/
def float : Reader Value := do
  let (negative, whole) ← decimal
  let (fraction, e) ← fractionAndExponent
  let x := Binary64.ofDecimal negative (digitsValue 10 (whole ++ fraction)) (e - fraction.length)
  if x = .infinity false then failure else return .float x

/-- Infinity or the value that is not a number. -/
def specialFloat : Reader Value := do
  let negative ← sign
  fun s ↦
    match s with
    | 'i' :: 'n' :: 'f' :: r => some (.float (.infinity negative), r)
    | 'n' :: 'a' :: 'n' :: r => some (.float .notANumber, r)
    | _ => none

/-! ### Dates and times -/

/-- The key of the map that a date or time becomes. -/
def dateKey : String := "$__toml_private_datetime"

/-- A number of exactly `width` digits between two bounds. -/
def field (width low high : Nat) : Reader Nat := fun s ↦
  let ds := s.take width
  if ds.length = width ∧ ds.all isDigit then
    let n := digitsValue 10 ds
    if low ≤ n ∧ n ≤ high then some (n, s.drop width) else none
  else none

/-- The number of days of a month. -/
def daysIn (year month : Nat) : Nat :=
  if month = 2 then
    if year % 4 = 0 ∧ (year % 100 ≠ 0 ∨ year % 400 = 0) then 29 else 28
  else if [4, 6, 9, 11].contains month then 30
  else 31

/-- A date. -/
def date : Reader Unit := do
  let year ← field 4 0 9999
  Reader.exactly ['-']
  let month ← field 2 1 12
  Reader.exactly ['-']
  let _ ← field 2 1 (daysIn year month)

/-- A time of day. -/
def time : Reader Unit := do
  let _ ← field 2 0 23
  Reader.exactly [':']
  let _ ← field 2 0 59
  Reader.exactly [':']
  let _ ← field 2 0 60
  let _ ← Reader.option do
    Reader.exactly ['.']
    let ds ← Reader.run isDigit
    if ds.isEmpty then failure

/-- The distance of a time from universal time. -/
def offset : Reader Unit := fun s ↦
  match s with
  | 'Z' :: r => some ((), r)
  | 'z' :: r => some ((), r)
  | c :: r =>
    if c = '+' ∨ c = '-' then
      (do
        let _ ← field 2 0 23
        Reader.exactly [':']
        let _ ← field 2 0 59 : Reader Unit) r
    else none
  | [] => none

/-- The time and its offset after a date. -/
def timeOfDate : Reader Unit := do
  let _ ← Reader.one fun c ↦ c == 'T' || c == 't' || c == ' '
  time
  let _ ← Reader.option offset

/-- A date, a time, or a date with a time. -/
def dateTime : Reader Value := fun s ↦
  let shape : Reader Unit := Reader.either
    (do date; let _ ← Reader.option timeOfDate)
    time
  (shape s).map fun ((), r) ↦
    (.map [(dateKey, .text (String.ofList (s.take (s.length - r.length))))], r)

/-! ### Scalars and keys -/

/-- A value that is neither an array nor a table; its first character decides which kind it may
be. -/
def scalar : Reader Value := fun s ↦
  match s with
  | '"' :: _ => (string s).map fun (t, r) ↦ (.text t, r)
  | '\'' :: _ => (string s).map fun (t, r) ↦ (.text t, r)
  | 't' :: 'r' :: 'u' :: 'e' :: r => some (.bool true, r)
  | 'f' :: 'a' :: 'l' :: 's' :: 'e' :: r => some (.bool false, r)
  | _ =>
    Reader.either dateTime
      (Reader.either float (Reader.either specialFloat integer)) s

/-- Whether a character can stand in a key without quotes. -/
def inBareKey (c : Char) : Bool := c.isAlphanum || c == '_' || c == '-'

/-- One part of a key. -/
def keyPart : Reader String := fun s ↦
  match s with
  | '"' :: _ => lineString s
  | '\'' :: _ => lineString s
  | _ =>
    let k := s.takeWhile inBareKey
    if k.isEmpty then none else some (String.ofList k, s.dropWhile inBareKey)

/-- A key: its parts between points, with blanks around them. -/
def key : Reader (List String) := do
  blanks
  let first ← keyPart
  blanks
  let more ← Reader.many do
    Reader.exactly ['.']
    blanks
    let part ← keyPart
    blanks
    return part
  return first :: more

end GrammarExport.Toml
