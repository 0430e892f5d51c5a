import GrammarExport.Context

/-!
# Reports on contexts

A report says what the grammar's module exports in a context, after checking that it exports what
it should (`Context.report`). `checkContexts` makes several contexts and demands that all of them
resolve the same table.
-/

namespace GrammarExport

/-- What the grammar's module exports in a context. -/
structure Report where
  binding : String
  name : String
  keys : List String
  typeTag : Option Tag
  tableAddress : String
  deriving DecidableEq, Repr

/-- Why there is no report. -/
inductive Report.Failure where
  /-- The module could not be loaded, or its language is not a language table. -/
  | cause (e : Error)
  /-- The module has other keys than it should. -/
  | unexpectedKeys (keys : List String)
  /-- The published name is not a text. -/
  | nameNotText
  /-- The published name is another one. -/
  | wrongName (name : String)
  deriving DecidableEq, Repr

namespace Report

/-- The text of a failure. -/
def Failure.message : Failure → String
  | cause e => e.message
  | unexpectedKeys keys => "unexpected export keys: " ++ ", ".intercalate keys
  | nameNotText => "name export is not a string"
  | wrongName name => "name export is '" ++ name ++ "', expected '" ++ grammarName ++ "'"

/-- What is said about exports that were found in order. -/
def verification (table : Table) : Event where
  level := .info
  target := "w_inspect::commands"
  message := "Verified exports"
  fields := [("binding", .text bindingName), ("table", .shown table.shown)]

/-- The keys that the grammar's module should have, in ascending order. -/
def expectedKeys : List String := [languageKey, nameKey]

/-- The report on an exports object: the keys are checked first, then the name, then the
language. -/
def ofExports (exports : Exports) : ExceptT Failure Logged Report := do
  let keys := exports.keys
  if keys ≠ expectedKeys then throw (.unexpectedKeys keys)
  match (exports.get? nameKey).bind (·.text?) with
  | none => throw .nameNotText
  | some name =>
    if name ≠ grammarName then throw (.wrongName name)
    let table ← exports.language.adapt .cause
    Logged.emit (verification table)
    return {
      binding := bindingName
      name
      keys
      typeTag := ((exports.get? languageKey).bind (·.external?)).bind (·.tag)
      tableAddress := table.address.text }

end Report

/-- The answer to a request for a report: the report or a failure, the context afterwards, and the
initializer that was run for it, if one was. -/
structure Context.ReportAnswer where
  result : Except Report.Failure Report
  context : Context
  ran : Option Initializer

/-- Loads the grammar's module and reports on it. -/
def Context.report (c : Context) (cells : Cells) : Logged Context.ReportAnswer := do
  let answer ← c.require cells bindingName
  match answer.result with
  | .error e => pure ⟨.error (.cause e), answer.context, answer.ran⟩
  | .ok exports => return ⟨← (Report.ofExports exports).run, answer.context, answer.ran⟩

/-! ### Several contexts -/

/-- Why several contexts were found not to be in order. -/
inductive CheckFailure where
  /-- No context was asked for. -/
  | noContexts
  /-- A context could not be made. -/
  | construction (e : Error)
  /-- A context has no report. -/
  | context (index : Nat) (failure : Report.Failure)
  /-- A context resolves another table than the first one. -/
  | disagreement (index : Nat) (address first : String)
  deriving DecidableEq, Repr

namespace CheckFailure

/-- The text of a failure and of what caused it, outermost first. -/
def chain : CheckFailure → List String
  | noContexts => ["--contexts must be at least 1"]
  | construction e => [e.message]
  | context index failure => ["context " ++ toString index, failure.message]
  | disagreement index address first =>
    ["context " ++ toString index ++ " resolved table " ++ address ++
      " but context 0 resolved " ++ first]

end CheckFailure

/-- Makes and checks the `remaining` contexts from `index` on, after those before it gave the
report `first?`. The second part of the result counts the contexts that were asked for. -/
def checkContextsFrom (make : Nat → Except Error Context) (cells : Cells) :
    (remaining index : Nat) → (first? : Option Report) →
      Logged (Except CheckFailure (Option Report) × Nat)
  | 0, index, first? => pure (.ok first?, index)
  | remaining + 1, index, first? => do
    match make index with
    | .error e => pure (.error (.construction e), index + 1)
    | .ok context =>
      match (← context.report cells).result with
      | .error failure => pure (.error (.context index failure), index + 1)
      | .ok report =>
        match first? with
        | none => checkContextsFrom make cells remaining (index + 1) (some report)
        | some first =>
          if report.tableAddress ≠ first.tableAddress then
            pure (.error (.disagreement index report.tableAddress first.tableAddress), index + 1)
          else checkContextsFrom make cells remaining (index + 1) (some first)

/-- The result of checking several contexts, and how many of them were made. -/
structure ContextsCheck where
  result : Except CheckFailure Report
  made : Nat

/-- Makes `count` contexts, in order, and checks that all of them export the same table; the
report is that of the first one. The first context that is not in order ends the check. -/
def checkContexts (count : Nat) (make : Nat → Except Error Context) (cells : Cells) :
    Logged ContextsCheck := do
  match ← checkContextsFrom make cells count 0 none with
  | (.error failure, made) => pure ⟨.error failure, made⟩
  | (.ok none, made) => pure ⟨.error .noContexts, made⟩
  | (.ok (some report), made) => pure ⟨.ok report, made⟩

end GrammarExport
