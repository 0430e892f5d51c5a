import GrammarExport.CommandLine.Command
import GrammarExport.Text.Count

/-!
# Arguments

How the words of a command line are read as a request (`Request.read`). Options come before or
after the command; each place has its own (`Scope`). The value of an option stands behind an
equals sign or is the next word, and such a word is looked at only when the next option or the end
is reached: `Progress` holds back the option that was read last. The first thing that is wrong
ends the reading.
-/

namespace GrammarExport.CommandLine

/-! ### Options -/

/-- The name of a command. -/
inductive CommandName where
  | tag
  | exports
  | check
  deriving DecidableEq, Repr

namespace CommandName

/-- The names of all commands. -/
def all : List CommandName := [tag, exports, check]

/-- How the name is written. -/
def text : CommandName → String
  | tag => "tag"
  | exports => "exports"
  | check => "check"

/-- The command of a name. -/
def ofText? (s : String) : Option CommandName := all.find? (·.text == s)

end CommandName

/-- A place for options: before the command, or after it. -/
inductive Scope where
  | program
  | command (name : CommandName)
  deriving DecidableEq, Repr

/-- An option with a value. -/
inductive Parameter where
  | config
  | contexts
  deriving DecidableEq, Repr

namespace Parameter

/-- The name of a parameter. -/
def name : Parameter → String
  | config => "config"
  | contexts => "contexts"

/-- How a parameter is shown. -/
def shown (p : Parameter) : String := "--" ++ p.name ++ " <" ++ p.name.toUpper ++ ">"

end Parameter

/-- An option without a value. -/
inductive Switch where
  | json
  | help
  | version
  deriving DecidableEq, Repr

namespace Switch

/-- The name of a switch. -/
def name : Switch → String
  | json => "json"
  | help => "help"
  | version => "version"

/-- The letter of a switch. -/
def letter? : Switch → Option Char
  | json => none
  | help => some 'h'
  | version => some 'V'

/-- How a switch is shown. -/
def shown (s : Switch) : String := "--" ++ s.name

end Switch

namespace Scope

/-- The parameters that can stand in a place. -/
def parameters : Scope → List Parameter
  | program => [.config]
  | command .tag => [.config]
  | command .exports => [.config]
  | command .check => [.contexts, .config]

/-- The switches that can stand in a place. -/
def switches : Scope → List Switch
  | program => [.help, .version]
  | command .tag => [.json, .help]
  | command .exports => [.json, .help]
  | command .check => [.help]

end Scope

/-! ### What can be wrong -/

/-- What is wrong with a command line. -/
inductive UsageError where
  /-- There are no arguments. -/
  | noArguments
  /-- There are options and no command. -/
  | missingCommand
  /-- There is another word where a command should be. -/
  | unknownCommand (word : String)
  /-- A word or option has no place where it stands. -/
  | unexpectedArgument (word : String)
  /-- A switch has a value. -/
  | unexpectedValue (value : String) (s : Switch)
  /-- A parameter has no value. -/
  | missingValue (p : Parameter)
  /-- A parameter is given twice in one place. -/
  | repeatedParameter (p : Parameter)
  /-- A switch is given twice. -/
  | repeatedSwitch (s : Switch)
  /-- The number of contexts is not a count. -/
  | invalidCount (value : String) (problem : Count.Problem)
  deriving DecidableEq, Repr

/-- Why the reading of arguments ended early: something is wrong, or help or the version is asked
for. -/
inductive Stop where
  | usage (e : UsageError)
  | help (scope : Scope)
  | version
  deriving DecidableEq, Repr

/-- Ends the reading because of something wrong. -/
def refuse {α : Type} (e : UsageError) : Except Stop α := .error (.usage e)

/-! ### Words -/

/-- What a word looks like. -/
inductive Word where
  /-- The mark after which there are no options. -/
  | escape
  /-- An option by its name, perhaps with a value. -/
  | long (name : String) (value : Option String)
  /-- Options by their letters, of which this is the first one. -/
  | letter (c : Char)
  /-- Anything else. -/
  | plain
  deriving DecidableEq, Repr

/-- What a word looks like. -/
def Word.ofText (text : String) : Word :=
  match text.toList with
  | ['-', '-'] => .escape
  | '-' :: '-' :: s =>
    let name := String.ofList (s.takeWhile (· != '='))
    match s.dropWhile (· != '=') with
    | [] => .long name none
    | _ :: value => .long name (some (String.ofList value))
  | '-' :: c :: _ => .letter c
  | _ => .plain

/-! ### Reading options -/

/-- What has been given in one place. -/
structure Given where
  config : Option String := none
  contexts : Option Nat := none
  json : Bool := false
  deriving DecidableEq, Repr

namespace Given

/-- Gives a parameter its value. -/
def put (g : Given) (p : Parameter) (value : String) : Except Stop Given :=
  match p with
  | .config =>
    if g.config.isSome then refuse (.repeatedParameter .config)
    else if value = "" then refuse (.missingValue .config)
    else .ok { g with config := some value }
  | .contexts =>
    if g.contexts.isSome then refuse (.repeatedParameter .contexts)
    else
      match Count.read value.toList with
      | .error problem => refuse (.invalidCount value problem)
      | .ok n => .ok { g with contexts := some n }

/-- Turns a switch on. -/
def turnOn (scope : Scope) (g : Given) : Switch → Except Stop Given
  | .json => if g.json then refuse (.repeatedSwitch .json) else .ok { g with json := true }
  | .help => .error (.help scope)
  | .version => .error .version

end Given

/-- What has been read in one place: what is given for sure, and the parameter that was read last,
whose value has not been looked at or not even been read. -/
structure Progress where
  given : Given := {}
  pending : Option (Parameter × Option String) := none
  deriving DecidableEq, Repr

namespace Progress

/-- Takes in the parameter that was held back. -/
def settle (s : Progress) : Except Stop Given :=
  match s.pending with
  | none => .ok s.given
  | some (p, none) => refuse (.missingValue p)
  | some (p, some value) => s.given.put p value

/-- Reads an option by its name. -/
def long (scope : Scope) (s : Progress) (name : String) (value : Option String) :
    Except Stop Progress :=
  match scope.parameters.find? (·.name == name), value with
  | some p, none => do return ⟨← s.settle, some (p, none)⟩
  | some p, some value => do return ⟨← (← s.settle).put p value, none⟩
  | none, _ =>
    match scope.switches.find? (·.name == name), value with
    | none, _ => refuse (.unexpectedArgument ("--" ++ name))
    | some w, some value => refuse (.unexpectedValue value w)
    | some w, none => do return ⟨← (← s.settle).turnOn scope w, none⟩

/-- Reads an option by its letter. -/
def letter (scope : Scope) (s : Progress) (c : Char) : Except Stop Progress :=
  match scope.switches.find? (·.letter? == some c) with
  | none => refuse (.unexpectedArgument ("-" ++ c.toString))
  | some w => do return ⟨← (← s.settle).turnOn scope w, none⟩

/-- Whether the next word is a value if it is not an option. -/
def awaitsValue (s : Progress) : Bool := s.pending.any (·.2.isNone)

/-- Reads the value of the parameter that was held back. -/
def takeValue (s : Progress) (value : String) : Progress :=
  { s with pending := s.pending.map fun (p, _) ↦ (p, some value) }

end Progress

/-! ### Reading a whole command line -/

/-- Reads the words after a command. -/
def readOptions (scope : Scope) (s : Progress) : List String → Except Stop Given
  | [] => s.settle
  | word :: rest =>
    match Word.ofText word with
    | .escape =>
      match rest with
      | [] => s.settle
      | next :: _ => refuse (.unexpectedArgument next)
    | .long name value => do readOptions scope (← s.long scope name value) rest
    | .letter c => do readOptions scope (← s.letter scope c) rest
    | .plain =>
      if s.awaitsValue then readOptions scope (s.takeValue word) rest
      else refuse (.unexpectedArgument word)

/-- A command, and the file of settings that is asked for. -/
structure Invocation where
  config : Option String
  command : Command
  deriving DecidableEq, Repr

/-- How many contexts are checked if no number is given. -/
def defaultContexts : Nat := 2

/-- The command of a name with its options. -/
def CommandName.command (name : CommandName) (g : Given) : Command :=
  match name with
  | .tag => .tag g.json
  | .exports => .exports g.json
  | .check => .check (g.contexts.getD defaultContexts)

/-- The word that asks for help like a command. -/
def helpWord : String := "help"

/-- What is asked for by the words after `helpWord`: help, perhaps on a command. -/
def helpTopic : List String → Stop
  | [] => .help .program
  | word :: rest =>
    match CommandName.ofText? word, rest with
    | some name, [] => .help (.command name)
    | some _, next :: _ => .usage (.unknownCommand next)
    | none, rest =>
      if word = helpWord then
        match rest with
        | [] => .help .program
        | next :: _ => .usage (.unknownCommand next)
      else .usage (.unknownCommand word)

/-- What is wrong with a command line that ends without a command. -/
def withoutCommand (s : Progress) : Except Stop Invocation := do
  match (← s.settle).config with
  | none => refuse .noArguments
  | some _ => refuse .missingCommand

/-- Whether a word is in the place of a command. -/
def isCommandWord (word : String) : Bool :=
  (CommandName.ofText? word).isSome || word == helpWord

/-- Reads the words up to the command, and the command. A file of settings that is named after the
command takes the place of one that is named before it. -/
def readProgram (s : Progress) : List String → Except Stop Invocation
  | [] => withoutCommand s
  | word :: rest =>
    match Word.ofText word with
    | .escape =>
      match rest with
      | [] => withoutCommand s
      | next :: _ =>
        if isCommandWord next then refuse (.unexpectedArgument next)
        else refuse (.unknownCommand next)
    | .long name value => do readProgram (← s.long .program name value) rest
    | .letter c => do readProgram (← s.letter .program c) rest
    | .plain =>
      if s.awaitsValue then readProgram (s.takeValue word) rest
      else if word = helpWord then .error (helpTopic rest)
      else
        match CommandName.ofText? word with
        | none => refuse (.unknownCommand word)
        | some name => do
          let inner ← readOptions (.command name) {} rest
          let outer ← s.settle
          return ⟨inner.config.or outer.config, name.command inner⟩

/-- What a command line asks for. -/
inductive Request where
  | run (invocation : Invocation)
  | help (scope : Scope)
  | version
  deriving DecidableEq, Repr

/-- Reads a command line. -/
def Request.read (args : List String) : Except UsageError Request :=
  match readProgram {} args with
  | .ok invocation => .ok (.run invocation)
  | .error (.usage e) => .error e
  | .error (.help scope) => .ok (.help scope)
  | .error .version => .ok .version

end GrammarExport.CommandLine
