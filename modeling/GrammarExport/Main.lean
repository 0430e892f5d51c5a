import GrammarExport.CommandLine.Outcome
import Std.Time

/-!
# The program

Collects what a run of the inspection tool depends on (arguments, environment, files, time), and
writes what it leaves behind.
-/

namespace GrammarExport

open CommandLine

/-- The variables of the process. -/
def processEnvironment : IO Settings.Environment := do
  return .ofBlock (← IO.FS.readBinFile "/proc/self/environ")

/-- Whether there is a directory at an absolute path. -/
def hasDirectoryAt (parts : List String) : IO Bool := do
  try
    let _ ← IO.FS.realPath (Settings.Path.absoluteText parts ++ "/.")
    return true
  catch _ => return false

/-- Whether there is a file at an absolute path, whether or not it can be read. -/
def hasFileAt (parts : List String) : IO Bool := do
  try
    let path ← IO.FS.realPath (Settings.Path.absoluteText parts)
    return (← path.metadata).type == .file
  catch _ => return false

/-- The text of the file at an absolute path. -/
def textAt (parts : List String) : IO String := do
  let some text := String.fromUTF8? (← IO.FS.readBinFile (Settings.Path.absoluteText parts))
    | throw (IO.userError "stream did not contain valid UTF-8")
  return text

/-- The file that settings come from, if they are asked for by a path, and the directories on the
way to it. A file that is there and cannot be read ends the run. -/
def filesFor (path : String) : IO Settings.FileTree := do
  let workingDirectory := (Settings.Path.ofText (← IO.currentDir).toString).parts
  let mut tree : Settings.FileTree := ⟨[], workingDirectory, []⟩
  for parts in Settings.FileTree.candidates workingDirectory (.ofText path) do
    for n in List.range parts.length do
      if let some directory := tree.resolve [] (parts.take n) then
        if ← hasDirectoryAt directory then
          tree := { tree with directories := tree.directories ++ [directory] }
    if let some file := tree.resolve [] parts then
      if ← hasFileAt file then
        -- The nearest file hides those further up, which are not even opened.
        return { tree with files := [(file, ← textAt file)] }
  return tree

/-- The files that a run on a command line depends on. -/
def filesOf (args : List String) : IO Settings.FileTree :=
  match Request.read args with
  | .ok (.run i) => filesFor (i.config.getD Settings.defaultFile)
  | _ => pure ⟨[], [], []⟩

/-- The present time, to the microsecond. -/
def now : IO String := do
  let time := Std.Time.DateTime.ofTimestamp (← Std.Time.Timestamp.now) .UTC
  return time.format "uuuu-MM-dd'T'HH:mm:ss.SSSSSS'Z'"

/-- Runs the program in the build that has no generated grammar. -/
def runProgram (args : List String) : IO UInt32 := do
  let result := outcome .bare (← filesOf args) (← processEnvironment) (← now) args
  for line in result.errors do
    IO.eprintln line
  IO.print result.output
  return result.code

end GrammarExport

/-- Runs the inspection tool. -/
def main (args : List String) : IO UInt32 := GrammarExport.runProgram args
