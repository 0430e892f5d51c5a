import GrammarExport.Address
import GrammarExport.Error
import GrammarExport.Log.Event

/-!
# Tagged externals and the boundary check

An external is an address that crosses the boundary to foreign code, with room for one tag. Its
layout is shared with foreign callers, so its flag may be any byte and its tag words anything:
only a flag other than zero says that the words are a tag (`External.tag`). A tag is attached
once (`External.attach`), and a value may be used as a language table only after
`External.verify`.
-/

namespace GrammarExport

/-- An address with a tag, as laid out for foreign code. -/
structure External where
  data : Address
  words : Tag
  flag : UInt8
  deriving DecidableEq, Repr

namespace External

/-- An external without a tag. -/
def untagged (data : Address) : External := ⟨data, .zero, 0⟩

/-- The external of a language table. -/
def ofTable (table : Table) : External := ⟨table.address, .language, 1⟩

/-- Whether the tag words are a tag. -/
def isTagged (e : External) : Bool := e.flag != 0

/-- The tag, if one is attached. -/
def tag (e : External) : Option Tag := if e.isTagged then some e.words else none

/-- Attaches a tag to a value that has none. -/
def attach (e : External) (tag : Tag) : Except Error External :=
  if e.isTagged then .error (.alreadyTagged e.words) else .ok ⟨e.data, tag, 1⟩

/-- Whether a particular tag is attached. -/
def hasTag (e : External) (tag : Tag) : Bool := e.isTagged && e.words == tag

/-- The same address without a tag. -/
def strip (e : External) : External := .untagged e.data

/-- What is said about a value that is turned away at the boundary. -/
def rejection (e : External) : Event where
  level := .warn
  target := "tree_sitter_w::external"
  message := "Rejected external value that is not a language table"
  fields := [("expected", .shown Tag.language.text),
    ("found", .shown (Record.option (e.tag.map fun t ↦ Quoted.text t.text)))]

/-- The boundary check: the table behind an external that carries the language tag and is not
null. A value that is turned away for its tag is reported. -/
def verify (e : External) : ExceptT Error Logged Table := do
  if !e.hasTag .language then
    Logged.emit e.rejection
    throw (.tagMismatch .language e.tag)
  match Table.at? e.data with
  | some table => pure table
  | none => throw (.nullTable "external value")

/-- The parts of an external as laid out, the tag words and the flag byte included. -/
def fields (e : External) : String :=
  Record.text "TaggedExternal"
    [("data", e.data.text), ("tag", e.words.fields), ("tagged", toString e.flag.toNat)]

end External

end GrammarExport
