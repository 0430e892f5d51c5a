import GrammarExport.Log.Filter
import GrammarExport.Log.Line
import GrammarExport.Settings.Basic
import GrammarExport.Settings.Environment

/-!
# The log

What becomes of events: a filter lets some of them through, and these are written as lines. Both
are settled once, from the settings and the environment (`Log.ofSettings`). Of the environment,
`RUST_LOG` gives the whole filter, `LOG_LEVEL` the level without it, `LOG_FORMAT` the format, and
`NO_COLOR` turns colours off.
-/

namespace GrammarExport

/-- Which events are written, and how. -/
structure Log where
  filter : Filter
  format : LogFormat
  style : Style
  /-- What is said about a filter that could not be read in full. -/
  complaints : List String := []

namespace Log

/-- The format that a text asks for, in any letter case. -/
def formatOf? (text : String) : Option LogFormat :=
  match Lowercase.text text with
  | "json" => some .json
  | "pretty" => some .pretty
  | "human" => some .pretty
  | _ => none

/-- Lines are plain if the environment turns colours off by a text that is not empty. -/
def styleOf (noColour : Option String) : Style :=
  match noColour with
  | none => .coloured
  | some "" => .coloured
  | some _ => .plain

/-- The log for settings in an environment, which comes before the settings. -/
def ofSettings (settings : LogSettings) (env : Settings.Environment) : Log where
  filter := .choose (env.get? "RUST_LOG") ((env.get? "LOG_LEVEL").getD settings.level)
  format := ((env.get? "LOG_FORMAT").bind formatOf?).getD settings.format
  style := styleOf (env.get? "NO_COLOR")
  complaints := ((env.get? "RUST_LOG").map Filter.complaints).getD []

/-- The line of an event. -/
def line (log : Log) (time : String) (e : Event) : String :=
  match log.format with
  | .pretty => e.line log.style time
  | .json => e.jsonLine time

/-- The lines for events. -/
def lines (log : Log) (time : String) (events : List Event) : List String :=
  log.complaints ++ (events.filter log.filter.allows).map (log.line time)

end Log

end GrammarExport
