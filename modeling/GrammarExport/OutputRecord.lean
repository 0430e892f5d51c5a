import GrammarExport.Surface

/-!
# The output record of foreign callers

Foreign callers hand in a record to be filled with the surface: a name, which may be absent, and
an external. The record is written as a whole if the accessor returns a table, and otherwise left
as it was (`OutputRecord.exportInto`). A caller may also hand in no record at all.
-/

namespace GrammarExport

/-- The record that a foreign caller gets filled. -/
structure OutputRecord where
  name : Option String
  language : External
  deriving DecidableEq, Repr

namespace OutputRecord

/-- A surface as an output record. -/
def ofSurface (s : Surface) : OutputRecord := ⟨some grammarName, s.language⟩

/-- The record of the table that an accessor returns. -/
def load (accessor : Accessor) (cells : Cells) : ExceptT Error Logged OutputRecord := do
  return ofSurface (← Surface.load accessor cells)

/-- What is said about an export that failed. -/
def failure (accessor : Accessor) (e : Error) : Event where
  level := .warn
  target := "tree_sitter_w_swift::c_api"
  message := "Failed to export language"
  fields := [("symbol", .text accessor.symbol), ("error", .shown e.message)]

/-- Fills a record, if there is one, with the surface of an accessor's table: whether that
succeeded, and the record afterwards. -/
def exportInto (out : Option OutputRecord) (accessor : Accessor) (cells : Cells) :
    Logged (Bool × Option OutputRecord) := do
  match out with
  | none => pure (false, none)
  | some record =>
    match ← (load accessor cells).run with
    | .ok filled => pure (true, some filled)
    | .error e =>
      Logged.emit (failure accessor e)
      pure (false, some record)

/-- Fills a record with the surface of the generated grammar. -/
def exportGrammarInto (build : Build) (out : Option OutputRecord) (cells : Cells) :
    Logged (Bool × Option OutputRecord) :=
  match build.grammar? with
  | some accessor => exportInto out accessor cells
  | none => pure (false, out)

end OutputRecord

/-- The check that foreign callers use: the address of the table behind an external, or null if
there is none or no external was given. -/
def External.checkedAddress (value : Option External) : Logged Address := do
  match value with
  | none => pure .null
  | some e =>
    match ← e.verify.run with
    | .ok table => pure table.address
    | .error _ => pure .null

end GrammarExport
