import GrammarExport.Accessor

/-!
# Export surfaces

A surface is what a module publishes: the name of the grammar and the tagged external of its
table. Every adapter publishes the same surface, loaded from an accessor (`Surface.load`).
-/

namespace GrammarExport

/-- The name under which the grammar is published. -/
def grammarName : String := "w"

/-- The key of the published name. -/
def nameKey : String := "name"

/-- The key of the published language. -/
def languageKey : String := "language"

/-- The keys of a surface, in the order in which they are defined. -/
def surfaceKeys : List String := [nameKey, languageKey]

/-- The name of a grammar and the external of its table. -/
structure Surface where
  name : String
  language : External
  deriving DecidableEq, Repr

/-- A surface in words: its name, keys, tag and table address. -/
structure Surface.Summary where
  name : String
  keys : List String
  typeTag : Option Tag
  tableAddress : String
  deriving DecidableEq, Repr

namespace Surface

/-- The surface of a table. -/
def ofTable (table : Table) : Surface := ⟨grammarName, .ofTable table⟩

/-- The surface of the table that an accessor returns. -/
def load (accessor : Accessor) (cells : Cells) : ExceptT Error Logged Surface := do
  return ofTable (← accessor.resolve cells)

/-- The table of a surface, after the boundary check. -/
def table (s : Surface) : ExceptT Error Logged Table := s.language.verify

/-- A surface in words. -/
def summary (s : Surface) : Summary :=
  ⟨s.name, surfaceKeys, s.language.tag, s.language.data.text⟩

/-- The parts of a surface. -/
def fields (s : Surface) : String :=
  Record.text "ExportSurface" [("name", Quoted.text s.name), ("language", s.language.fields)]

end Surface

end GrammarExport
