import GrammarExport.Log.Event
import GrammarExport.Text.Count

/-!
# Which events are let through

A filter is a list of directives. Each sets a limit for the targets that begin with its text, or
for all targets; of the directives that cover a target the longest one decides, and of equally
long ones the last (`Filter.limitFor`). A filter is made from one level (`Filter.ofLevel`) or read
from a text of directives between commas (`Filter.ofText`).
-/

namespace GrammarExport

/-! ### Levels and limits in text -/

namespace Level

/-- The level of a name, in any letter case. -/
def ofName? (s : String) : Option Level :=
  all.find? fun l ↦ l.name.toList == s.toList.map Char.toUpper

/-- The level of a verbosity. -/
def ofVerbosity? (n : Nat) : Option Level := all.find? (·.verbosity == n)

/-- The level that a text gives by its verbosity or by its name. -/
def ofText? (s : String) : Option Level :=
  ((Count.read s.toList).toOption.bind ofVerbosity?).or (ofName? s)

end Level

/-- How much is let through: nothing, or all events down to a level. -/
inductive Limit where
  | off
  | upTo (level : Level)
  deriving DecidableEq, Repr

namespace Limit

/-- How much a limit lets through, from zero to five. -/
def verbosity : Limit → Nat
  | off => 0
  | upTo level => level.verbosity

/-- Whether events of a level are let through. -/
def allows (limit : Limit) (level : Level) : Bool := decide (level.verbosity ≤ limit.verbosity)

/-- The limit that a text gives: a level, or zero or `off` for nothing. -/
def ofText? (s : String) : Option Limit :=
  if (Count.read s.toList).toOption = some 0 ∨ s.toList.map Char.toUpper = "OFF".toList then
    some off
  else (Level.ofText? s).map upTo

end Limit

/-! ### Directives -/

/-- A limit, and the beginning of the targets it is for; without one it is for all targets. -/
structure Directive where
  target : Option String
  limit : Limit
  deriving DecidableEq, Repr

namespace Directive

/-- Why a text is not a directive. -/
inductive Problem where
  /-- It does not begin like a target or a level. -/
  | malformed
  /-- What stands after the equals sign is not a limit. -/
  | unknownLevel
  deriving DecidableEq, Repr

/-- The text of a problem. -/
def Problem.message : Problem → String
  | malformed => "invalid filter directive"
  | unknownLevel =>
    "error parsing level filter: expected one of \"off\", \"error\", \"warn\", \"info\", " ++
      "\"debug\", \"trace\", or a number 0-5"

/-- Whether a directive can begin with a character: a letter or digit of any script, or one of
the marks that occur in targets. -/
def canBegin (c : Char) : Bool :=
  c.isAlphanum || c == '-' || c == ':' || c == '_' || c == '[' || 0x80 ≤ c.toNat

/-- Reads a directive: `target=limit`, a limit alone, or a target alone. Where no limit is given
everything is let through. -/
def read (text : String) : Except Problem Directive :=
  let s := text.toList
  if (s.dropWhile Char.isWhitespace).head?.all (!canBegin ·) then .error .malformed
  else
    match s.dropWhile (· != '=') with
    | [] =>
      match Limit.ofText? text with
      | some limit => .ok ⟨none, limit⟩
      | none => .ok ⟨some text, .upTo .trace⟩
    | _ :: level =>
      let target := String.ofList (s.takeWhile (· != '='))
      if level.isEmpty then .ok ⟨some target, .upTo .trace⟩
      else
        match Limit.ofText? (String.ofList level) with
        | some limit => .ok ⟨some target, limit⟩
        | none => .error .unknownLevel

/-- Whether a directive is for a target. -/
def covers (d : Directive) (target : String) : Bool :=
  match d.target with
  | none => true
  | some beginning => beginning.toList.isPrefixOf target.toList

/-- How closely a directive describes its targets: by how many characters they begin with, and
least of all if it is for all of them. -/
def closeness (d : Directive) : Nat :=
  match d.target with
  | none => 0
  | some beginning => beginning.length + 1

end Directive

/-! ### Filters -/

/-- The directives by which events are let through. -/
structure Filter where
  directives : List Directive
  deriving DecidableEq, Repr

namespace Filter

/-- The closer of two directives, the later one if both are equally close. -/
def closer (best : Option Directive) (d : Directive) : Option Directive :=
  match best with
  | none => some d
  | some b => if b.closeness ≤ d.closeness then some d else some b

/-- The directive that decides about a target. -/
def deciding? (f : Filter) (target : String) : Option Directive :=
  (f.directives.filter (·.covers target)).foldl closer none

/-- The limit for a target; nothing is let through where no directive covers it. -/
def limitFor (f : Filter) (target : String) : Limit :=
  match f.deciding? target with
  | some d => d.limit
  | none => .off

/-- Whether an event is let through. -/
def allows (f : Filter) (e : Event) : Bool := (f.limitFor e.target).allows e.level

/-- The most that any directive lets through. -/
def verbosity (f : Filter) : Nat := f.directives.foldl (fun n d ↦ max n d.limit.verbosity) 0

/-- Everything down to a level, whatever the target. -/
def ofLevel (level : Level) : Filter := ⟨[⟨none, .upTo level⟩]⟩

/-- The parts of a text between commas that are not empty. -/
def parts (text : String) : List String := (text.splitOn ",").filter (· ≠ "")

/-- The filter that a text of directives gives. What is not a directive is passed over, and
without any directive only errors are let through. -/
def ofText (text : String) : Filter :=
  match (parts text).filterMap fun part ↦ (Directive.read part).toOption with
  | [] => ofLevel .error
  | directives => ⟨directives⟩

/-- What is said about the parts of a text that are not directives. -/
def complaints (text : String) : List String :=
  (parts text).filterMap fun part ↦
    match Directive.read part with
    | .ok _ => none
    | .error problem => some ("ignoring `" ++ part ++ "`: " ++ problem.message)

/-- The level for a setting that does not give one. -/
def fallback : Level := .warn

/-- The filter for a text of directives, if there is one, and for a level otherwise. -/
def choose (directives : Option String) (level : String) : Filter :=
  match directives with
  | some text => ofText text
  | none => ofLevel ((Level.ofText? level).getD fallback)

end Filter

end GrammarExport
