/-!
# Where files are

The files that a program can see from its working directory. A relative path is looked for in the
working directory and then in each directory above it; an absolute path is taken as it is. A file
is named to people by the way to it from the working directory (`FileTree.relative`).
-/

namespace GrammarExport.Settings

/-- A path: whether it starts at the root, and its parts. Parts that stay where they are have been
dropped. -/
structure Path where
  absolute : Bool
  parts : List String
  deriving DecidableEq, Repr

/-- The text of an absolute path. -/
def Path.absoluteText (parts : List String) : String := "/" ++ "/".intercalate parts

/-- The path that a text names. -/
def Path.ofText (text : String) : Path where
  absolute := text.toList.head? == some '/'
  parts := (text.splitOn "/").filter fun part ↦ part ≠ "" ∧ part ≠ "."

/-- The files that can be seen, by the parts of their absolute paths, the working directory, and
directories that are known to exist whether or not there are files in them. -/
structure FileTree where
  files : List (List String × String)
  workingDirectory : List String
  directories : List (List String) := []

namespace FileTree

/-- Whether there is a directory. -/
def hasDirectory (t : FileTree) (dir : List String) : Bool :=
  dir.isPrefixOf t.workingDirectory || t.directories.contains dir ||
    t.files.any fun f ↦ dir.isPrefixOf f.1 && dir.length < f.1.length

/-- Where a path leads from a directory, taking each step up from a directory that exists. -/
def resolve (t : FileTree) : (dir : List String) → (parts : List String) → Option (List String)
  | dir, [] => some dir
  | dir, part :: parts =>
    if part = ".." then
      if t.hasDirectory dir then t.resolve dir.dropLast parts else none
    else t.resolve (dir ++ [part]) parts

/-- The text of the file at an absolute path. -/
def text? (t : FileTree) (parts : List String) : Option String :=
  (t.resolve [] parts).bind fun target ↦ t.files.lookup target

/-- The directories from one up to the root. -/
def ancestors (dir : List String) : List (List String) :=
  (List.range (dir.length + 1)).reverse.map fun n ↦ dir.take n

/-- The absolute paths under which the file of a path is looked for, in order. -/
def candidates (workingDirectory : List String) (path : Path) : List (List String) :=
  if path.absolute then [path.parts]
  else (ancestors workingDirectory).map (· ++ path.parts)

/-- The file that a path names, with the parts of the path under which it was found. -/
def find? (t : FileTree) (path : Path) : Option (List String × String) :=
  (candidates t.workingDirectory path).findSome? fun parts ↦
    (t.text? parts).map fun text ↦ (parts, text)

/-- The way from one directory to a path: up to the last common directory and down again. -/
def wayFrom : (dir parts : List String) → List String
  | d :: dir, p :: parts =>
    if d = p then wayFrom dir parts else (d :: dir).map (fun _ ↦ "..") ++ p :: parts
  | dir, parts => dir.map (fun _ ↦ "..") ++ parts

/-- How a file is named to people. -/
def relative (t : FileTree) (parts : List String) : String :=
  "/".intercalate (wayFrom t.workingDirectory parts)

end FileTree

end GrammarExport.Settings
