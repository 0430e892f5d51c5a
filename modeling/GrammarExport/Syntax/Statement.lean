import GrammarExport.Syntax.Expression

/-!
# Statements and sources

The statements of the language: declarations of variables, functions and enumerations,
assignments, view assignments and coherence checks. Statements have no common terminator; the word
that follows decides where a function declaration ends. A source is a sequence of statements
(`Source.read?`).
-/

namespace GrammarExport.Syntax

/-! ### Types -/

/-- The words for primitive types. -/
def primitiveWords : List String := ["int", "dbl", "bool", "str", "range"]

/-- The words for decision types. -/
def decisionWords : List String :=
  ["intDecision", "strDecision", "rangeDecision", "boolDecision", "enumDecision"]

/-- The name of a type. -/
inductive TypeName where
  | primitive (t : Lexeme)
  | decision (t : Lexeme)
  | named (t : Lexeme)
  | template (t : Lexeme) (opening : Gap) (argument : Lexeme) (closing : Gap)
  | array (element : TypeName) (brackets : Gap)
  deriving Repr

namespace TypeName

/-- The argument of a template in its angle brackets. -/
def readArgument : Reader (Gap × Lexeme × Gap) := do
  let opening ← Token.mark ['<']
  let argument ← Token.name []
  let closing ← Token.mark ['>']
  return (opening, argument, closing)

/-- A decision type, with an argument or without. -/
def readDecision : Reader TypeName := do
  let t ← Token.oneOf decisionWords
  match ← Reader.option readArgument with
  | some (opening, argument, closing) => return .template t opening argument closing
  | none => return .decision t

/-- A type that is not an array. -/
def readElement : Reader TypeName := fun s ↦
  match Token.oneOf primitiveWords s with
  | some (t, r) => some (.primitive t, r)
  | none =>
    match Token.oneOf decisionWords s with
    | some _ => readDecision s
    | none => (TypeName.named <$> Token.name []) s

/-- A type: the element, and one pair of brackets for each dimension. -/
def read : Reader TypeName := do
  let element ← readElement
  let dimensions ← Reader.many (Token.mark ['[', ']'])
  return dimensions.foldl .array element

end TypeName

/-! ### Statements -/

/-- A parameter of a function. -/
structure Parameter where
  name : Lexeme
  colon : Gap
  type : TypeName
  deriving Repr

/-- The name that a variable is rotated to. -/
structure Rotation where
  rotate : Gap
  preposition : Gap
  name : Lexeme
  deriving Repr

/-- The body of a function: at least one string, in braces. -/
structure Body where
  opening : Gap
  first : Lexeme
  more : List Lexeme
  closing : Gap
  deriving Repr

/-- A statement. -/
inductive Statement where
  | coherenceCheck (keyword : Gap) (name : Lexeme) (semicolon : Gap)
  | view (keyword : Gap) (name first : Lexeme) (more : List Lexeme) (semicolon : Gap)
  | assignment (target : Lexeme) (equals : Gap) (matrix : Option Gap) (value : Expression)
      (semicolon : Gap)
  | enumeration (keyword : Gap) (name : Lexeme) (opening : Gap) (items : CommaList Lexeme)
      (closing : Gap)
  | variableDeclaration (keyword : Lexeme) (visibility : Option Lexeme) (name : Lexeme)
      (rotation : Option Rotation) (colon : Gap) (type : TypeName)
      (initial : Option (Gap × Value)) (semicolon : Gap)
  | function (keyword : Gap) (name : Lexeme) (opening : Gap) (parameters : CommaList Parameter)
      (closing : Gap) (result : Option (Gap × TypeName)) (body : Option Body)

/-- The words that begin a variable declaration. -/
def declarationWords : List String := ["let", "pub"]

/-- The words that can stand before the name of a variable. -/
def visibilityWords : List String := ["input", "output", "internal"]

/-- The words that begin a statement and are no assignment targets. -/
def statementWords : List String := ["cc", "view", "enum", "fn"] ++ declarationWords

namespace Statement

/-- A coherence check. -/
def readCoherenceCheck : Reader Statement := do
  let keyword ← Token.keyword "cc"
  let name ← Token.name []
  let semicolon ← Token.mark [';']
  return .coherenceCheck keyword name semicolon

/-- A view assignment: at least two names. -/
def readView : Reader Statement := do
  let keyword ← Token.keyword "view"
  let name ← Token.name []
  let first ← Token.name []
  let more ← Reader.many (Token.name [])
  let semicolon ← Token.mark [';']
  return .view keyword name first more semicolon

/-- An assignment. The word `mat` directly after the equals sign is the matrix keyword. -/
def readAssignment : Reader Statement := do
  let target ← Token.name statementWords
  let equals ← Token.mark ['=']
  let matrix ← Reader.option (Token.keyword "mat")
  let value ← Expression.read
  let semicolon ← Token.mark [';']
  return .assignment target equals matrix value semicolon

/-- An enumeration. -/
def readEnumeration : Reader Statement := do
  let keyword ← Token.keyword "enum"
  let name ← Token.name []
  let opening ← Token.mark ['{']
  let items ← CommaList.read ['}'] true (Token.name []) true
  let closing ← Token.mark ['}']
  return .enumeration keyword name opening items closing

/-- The name that a variable is rotated to. -/
def readRotation : Reader Rotation := do
  let rotate ← Token.keyword "rotate"
  let preposition ← Token.keyword "to"
  let name ← Token.name []
  return ⟨rotate, preposition, name⟩

/-- The initial value of a variable. -/
def readInitial : Reader (Gap × Value) := do
  let equals ← Token.mark ['=']
  let value ← Value.read
  return (equals, value)

/-- A variable declaration. -/
def readVariableDeclaration : Reader Statement := do
  let keyword ← Token.oneOf declarationWords
  let visibility ← Reader.option (Token.oneOf visibilityWords)
  let name ← Token.name []
  let rotation ← Reader.option readRotation
  let colon ← Token.mark [':']
  let type ← TypeName.read
  let initial ← Reader.option readInitial
  let semicolon ← Token.mark [';']
  return .variableDeclaration keyword visibility name rotation colon type initial semicolon

/-- A parameter of a function. -/
def readParameter : Reader Parameter := do
  let name ← Token.name []
  let colon ← Token.mark [':']
  let type ← TypeName.read
  return ⟨name, colon, type⟩

/-- The result type of a function. -/
def readResult : Reader (Gap × TypeName) := do
  let arrow ← Token.mark ['-', '>']
  let type ← TypeName.read
  return (arrow, type)

/-- The body of a function. -/
def readBody : Reader Body := do
  let opening ← Token.mark ['{']
  let first ← Token.string
  let more ← Reader.many Token.string
  let closing ← Token.mark ['}']
  return ⟨opening, first, more, closing⟩

/-- A function declaration, which may end after its parameters or its result type. -/
def readFunction : Reader Statement := do
  let keyword ← Token.keyword "fn"
  let name ← Token.name []
  let opening ← Token.mark ['(']
  let parameters ← CommaList.read [')'] true readParameter true
  let closing ← Token.mark [')']
  let result ← Reader.option readResult
  let body ← Reader.option readBody
  return .function keyword name opening parameters closing result body

/-- A statement; its first word decides which kind it is. -/
def read : Reader Statement := fun s ↦
  match Token.word s with
  | none => none
  | some (w, _) =>
    if w.text = "cc".toList then readCoherenceCheck s
    else if w.text = "view".toList then readView s
    else if w.text = "enum".toList then readEnumeration s
    else if w.text = "fn".toList then readFunction s
    else if declarationWords.any (·.toList == w.text) then readVariableDeclaration s
    else readAssignment s

end Statement

/-! ### Sources -/

/-- A whole source: whether a byte order mark comes first, the statements, and the gap after the
last of them. -/
structure Source where
  byteOrderMark : Bool
  statements : List Statement
  trailing : Gap

namespace Source

/-- The byte order mark. -/
def mark : Char := '\uFEFF'

/-- Reads a whole text. -/
def read? (s : List Char) : Option Source := do
  let (found, s) := match s with
    | c :: rest => if c = mark then (true, rest) else (false, s)
    | [] => (false, [])
  let (statements, rest) ← Reader.many Statement.read s
  match Gap.split rest with
  | (trailing, []) => some ⟨found, statements, trailing⟩
  | _ => none

end Source

end GrammarExport.Syntax
