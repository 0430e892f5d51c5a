import GrammarExport.CommandLine.Arguments
import GrammarExport.Settings.Load

/-!
# Help and usage

What the program says about its own use: its version, the help on it and on its commands
(`Scope.help`), and what is wrong with a command line (`UsageError.lines`).
-/

namespace GrammarExport.CommandLine

/-- The name of the program. -/
def programName : String := "w-inspect"

/-- The name of the program with its version. -/
def versionLine : String := programName ++ " 0.1.0"

/-! ### Help -/

/-- What the program is for. -/
def purpose : String := "Inspect the w grammar export surface"

namespace CommandName

/-- What a command is for. -/
def purpose : CommandName → String
  | tag => "Print the language type tag"
  | exports => "Load the module in a fresh host context and print its exports"
  | check => "Load the module in several independent contexts and verify them"

end CommandName

/-- What a parameter is for. -/
def Parameter.purpose : Parameter → String
  | config => "Configuration file (defaults to ./" ++ Settings.defaultFile ++ ")"
  | contexts => "[default: " ++ toString defaultContexts ++ "]"

/-- What a switch is for. -/
def Switch.purpose : Switch → String
  | json => ""
  | help => "Print help"
  | version => "Print version"

/-- A switch with its letter, set below the parameters. -/
def Switch.column (s : Switch) : String :=
  match s.letter? with
  | some c => "-" ++ c.toString ++ ", " ++ s.shown
  | none => "    " ++ s.shown

/-- Entries and what they are for, in two columns. -/
def columns (entries : List (String × String)) : List String :=
  let width := entries.foldl (fun w e ↦ max w e.1.length) 0
  entries.map fun e ↦
    "  " ++ e.1 ++ String.ofList (List.replicate (width - e.1.length) ' ') ++ "  " ++ e.2

/-- The options in a place: parameters and switches, help and version last. -/
def Scope.options (scope : Scope) : List String :=
  let parameters := scope.parameters.map fun p ↦ ("    " ++ p.shown, p.purpose)
  let switches := scope.switches.map fun s ↦ (s.column, s.purpose)
  columns (parameters ++ switches)

/-- The lines of help on the program or on a command. -/
def Scope.help : Scope → List String
  | program =>
    [CommandLine.purpose, "", "Usage: " ++ programName ++ " [OPTIONS] <COMMAND>", "", "Commands:"]
      ++ columns (CommandName.all.map (fun c ↦ (c.text, c.purpose)) ++
        [(helpWord, "Print this message or the help of the given subcommand(s)")])
      ++ ["", "Options:"] ++ Scope.program.options
  | command name =>
    [name.purpose, "", "Usage: " ++ programName ++ " " ++ name.text ++ " [OPTIONS]", "", "Options:"]
      ++ (Scope.command name).options

/-! ### Errors -/

/-- The text of what is wrong with a command line. -/
def UsageError.message : UsageError → String
  | noArguments => CommandLine.purpose
  | missingCommand => "'" ++ programName ++ "' requires a subcommand but one was not provided"
  | unknownCommand word => "unrecognized subcommand '" ++ word ++ "'"
  | unexpectedArgument word => "unexpected argument '" ++ word ++ "' found"
  | unexpectedValue value s =>
    "unexpected value '" ++ value ++ "' for '" ++ s.shown ++ "' found; no more were expected"
  | missingValue p => "a value is required for '" ++ p.shown ++ "' but none was supplied"
  | repeatedParameter p => "the argument '" ++ p.shown ++ "' cannot be used multiple times"
  | repeatedSwitch s => "the argument '" ++ s.shown ++ "' cannot be used multiple times"
  | invalidCount value problem =>
    "invalid value '" ++ value ++ "' for '" ++ Parameter.contexts.shown ++ "': " ++
      problem.message

/-- What is written about a wrong command line: the error, or help if there is nothing on it. -/
def UsageError.lines : UsageError → List String
  | noArguments => Scope.program.help
  | e => ["error: " ++ e.message]

end GrammarExport.CommandLine
