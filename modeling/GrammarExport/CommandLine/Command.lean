import GrammarExport.Report
import GrammarExport.Text.JsonValue

/-!
# The commands of the inspection tool

There are three commands: one shows the tag of language tables, one loads the grammar's module and
shows what it exports, and one loads it in several contexts and compares them. A command prints line
by line while it runs and may fail at any point; what it has printed by then stays printed
(`Command.run`).
-/

namespace GrammarExport

/-- What the inspection tool is asked to do. -/
inductive Command where
  /-- Show the tag of language tables. -/
  | tag (json : Bool)
  /-- Load the grammar's module and show its exports. -/
  | exports (json : Bool)
  /-- Load the grammar's module in several contexts and compare them. -/
  | check (contexts : Nat)
  deriving DecidableEq, Repr

namespace Command

/-- Why a command failed. -/
inductive Failure where
  /-- No context could be made. -/
  | construction (e : Error)
  /-- The context has no report. -/
  | report (f : Report.Failure)
  /-- The contexts are not in order. -/
  | check (f : CheckFailure)
  deriving DecidableEq, Repr

/-- The text of a failure and of what caused it, outermost first. -/
def Failure.chain : Failure → List String
  | construction e => [e.message]
  | report f => [f.message]
  | check f => f.chain

/-! ### What is written -/

/-- Lines as text, each with its end. -/
def linesText (lines : List String) : String := String.join (lines.map (· ++ "\n"))

/-- A word in upper-case hexadecimal digits, with leading zeros. -/
def wordText (w : UInt64) : String := "0x" ++ Hex.text .upper (Hex.fixed 16 w.toNat)

/-- A tag as JSON: its words, and its text. -/
def tagJson (t : Tag) : JsonValue :=
  .record [
    ("lower", .text (wordText t.lower)),
    ("upper", .text (wordText t.upper)),
    ("tag", .text t.text)]

/-- A report as JSON. -/
def reportJson (r : Report) : JsonValue :=
  .record [
    ("binding", .text r.binding),
    ("name", .text r.name),
    ("keys", .list (r.keys.map .text)),
    ("typeTag", (r.typeTag.map fun t ↦ .text t.text).getD .null),
    ("tableAddress", .text r.tableAddress)]

/-- A report for people. -/
def reportLines (r : Report) : List String :=
  ["binding: " ++ r.binding, "name: " ++ r.name, "keys: " ++ ", ".intercalate r.keys] ++
    (r.typeTag.map fun t ↦ "type tag: " ++ t.text).toList ++ ["table: " ++ r.tableAddress]

/-- What is written about contexts that are in order. -/
def checkedLine (contexts : Nat) : String :=
  "ok: " ++ toString contexts ++ " context(s) export '" ++ grammarName ++
    "' with a verified language table"

/-! ### Running commands -/

/-- The accessor of the generated grammar reads no cells; all of them are null. -/
def noCells : Cells := fun _ ↦ .null

/-- A command at work on the text of standard output. -/
abbrev Printing := Attempt Failure String

/-- Prints a line. -/
def printLine (line : String) : Printing Unit := modify (· ++ (line ++ "\n"))

/-- Prints lines one after the other. -/
def printLines (lines : List String) : Printing Unit := lines.forM printLine

/-- Runs a command. -/
def run (build : Build) : Command → Printing Unit
  | tag json => printLine (if json then (tagJson .language).indented else Tag.language.text)
  | exports json => do
    let context ← .ofResult .construction (pure (Context.withGrammar build))
    let report ← .ofResult .report ((·.result) <$> context.report noCells)
    if json then printLine (reportJson report).indented
    else printLines (reportLines report)
  | check contexts => do
    let _ ← .ofResult .check
      ((·.result) <$> checkContexts contexts (fun _ ↦ Context.withGrammar build) noCells)
    printLine (checkedLine contexts)

@[simp] theorem value_runFrom_printLine (line text : String) :
    ((printLine line).runFrom text).value = (.ok (), text ++ (line ++ "\n")) := rfl

/-- Lines that are printed come after what was printed before. -/
@[simp] theorem value_runFrom_printLines (lines : List String) (text : String) :
    ((printLines lines).runFrom text).value = (.ok (), text ++ linesText lines) := by
  induction lines generalizing text with
  | nil => exact congrArg (Prod.mk _) String.append_empty.symm
  | cons line lines ih =>
    show ((printLine line >>= fun _ ↦ printLines lines).runFrom text).value = _
    rw [Attempt.value_runFrom_bind, value_runFrom_printLine]
    show ((printLines lines).runFrom _).value = _
    rw [ih, linesText, linesText, List.map_cons, String.join_cons, String.append_assoc]

end Command

end GrammarExport
