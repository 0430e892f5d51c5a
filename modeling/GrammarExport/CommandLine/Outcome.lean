import GrammarExport.CommandLine.Usage
import GrammarExport.Log.Output

/-!
# The outcome of a run

A run of the program ends with an exit code, the text on standard output, and the lines on
standard error (`outcome`). The settings are loaded first, then the log is set up, and then the
command is run; events from before the log are lost. Whether the command fails or not, what it has
printed is on standard output.
-/

namespace GrammarExport.CommandLine

/-- What a run leaves behind. -/
structure Outcome where
  code : UInt32
  output : String
  errors : List String
  deriving DecidableEq, Repr

/-- The lines of a text. -/
def textLines (text : String) : List String := text.splitOn "\n"

/-- The lines about an error, given its text and those of its causes, outermost first. -/
def errorLines : List String → List String
  | [] => []
  | message :: causes =>
    textLines ("Error: " ++ message) ++
      if causes.isEmpty then []
      else "" :: "Caused by:" :: (causes.flatMap textLines).map ("    " ++ ·)

/-- The text of an error in loading settings and of its cause. A file that is not a document is
its own cause. -/
def loadErrorChain (e : Settings.LoadError) : List String :=
  match e with
  | .fault .. => [e.message, e.cause]
  | _ => [e.message]

/-- A run that succeeds. -/
def Outcome.success (output : String) (errors : List String) : Outcome := ⟨0, output, errors⟩

/-- A run that fails. -/
def Outcome.failure (output : String) (logged chain : List String) : Outcome :=
  ⟨1, output, logged ++ errorLines chain⟩

/-- Runs a command. The time is what log lines are marked with. -/
def Invocation.outcome (build : Build) (files : Settings.FileTree) (env : Settings.Environment)
    (time : String) (i : Invocation) : Outcome :=
  match (Settings.load files env (i.config.getD Settings.defaultFile)).value with
  | .error e => .failure "" [] (loadErrorChain e)
  | .ok settings =>
    let log := Log.ofSettings settings.logging env
    let answer := (i.command.run build).runFrom ""
    let logged := (log.lines time answer.events).flatMap textLines
    match answer.value with
    | (.ok (), output) => .success output logged
    | (.error failure, output) => .failure output logged failure.chain

/-- Runs the program on a command line. -/
def outcome (build : Build) (files : Settings.FileTree) (env : Settings.Environment)
    (time : String) (args : List String) : Outcome :=
  match Request.read args with
  | .error e => ⟨2, "", e.lines.flatMap textLines⟩
  | .ok (.help scope) => .success (Command.linesText scope.help) []
  | .ok .version => .success (Command.linesText [versionLine]) []
  | .ok (.run i) => i.outcome build files env time

end GrammarExport.CommandLine
