import GrammarExport.External

/-!
# Accessors

An accessor is a named function that returns the address of a language table. Such a function may
read cells that change between calls (`Cells`), so an accessor is resolved against the cells as
they are at the time of the call. A build knows whether the grammar's own table was linked into it
(`Build`).
-/

namespace GrammarExport

/-- The addresses that accessor functions can read, by the number of their cell. -/
abbrev Cells := Nat → Address

/-- A function that returns the address of a table, with the symbol it goes by. -/
structure Accessor where
  symbol : String
  address : Cells → Address

namespace Accessor

/-- An accessor that always returns the same address. -/
def fixed (symbol : String) (address : Address) : Accessor := ⟨symbol, fun _ ↦ address⟩

/-- An accessor that returns what a cell holds. -/
def cell (symbol : String) (i : Nat) : Accessor := ⟨symbol, fun cells ↦ cells i⟩

/-- What is said about a table that an accessor returned. -/
def resolution (a : Accessor) (table : Table) : Event where
  level := .debug
  target := "tree_sitter_w::accessor"
  message := "Resolved language table"
  fields := [("symbol", .text a.symbol), ("table", .shown table.address.text)]

/-- Calls the accessor: the table it returns, or an error if it returns null. -/
def resolve (a : Accessor) (cells : Cells) : ExceptT Error Logged Table := do
  match Table.at? (a.address cells) with
  | some table =>
    Logged.emit (a.resolution table)
    pure table
  | none => throw (.nullTable a.symbol)

end Accessor

/-- What was linked into the program: the table of the generated grammar, if there is one. -/
structure Build where
  grammarTable : Option Table

namespace Build

/-- A build without a generated grammar. -/
def bare : Build := ⟨none⟩

/-- The symbol of the generated accessor. -/
def grammarSymbol : String := "tree_sitter_w"

/-- The accessor of the generated grammar. -/
def grammar? (b : Build) : Option Accessor :=
  b.grammarTable.map fun table ↦ .fixed grammarSymbol table.address

/-- The accessor of the generated grammar, or the error that there is none. -/
def grammar (b : Build) : Except Error Accessor :=
  match b.grammar? with
  | some accessor => .ok accessor
  | none => .error .grammarUnavailable

end Build

end GrammarExport
