import GrammarExport.CommandLine.Outcome
import GrammarExport.Proofs.ContextsCheck

/-!
# When a run succeeds

A run of the program succeeds if its settings can be loaded and its command is one that the build
supports: the tag is always at hand, and everything else needs the table of the grammar
(`Command.Supported`). A run that succeeds prints something on standard output, and one that fails
prints nothing there, at whatever stage it fails (`CommandLine.exit_code_eq_zero_iff`).

## What the proof rests on

* The accessor of the grammar returns the table that was linked into the build
  (`Context.withGrammar_of_table`), so any number of contexts report this table and agree
  (`checkContexts_withBinding`).
* A command that is supported prints at least one line (`Command.Supported.exists_run_eq_ok`), and
  any other fails before it prints the first one (`Command.exists_run_eq_error`).
* What the command prints is all that a run prints (`CommandLine.Invocation.outcome_cases`).
-/

namespace GrammarExport

/-! ### The contexts of a build -/

section Contexts

variable {build : Build} {t : Table} {cells : Cells}

theorem Accessor.table_fixed (symbol : String) (t : Table) (cells : Cells) :
    (fixed symbol t.address).table cells = .ok t := by
  rw [table, fixed, Table.at?_address]

theorem Context.withGrammar_of_bare (h : build.grammarTable = none) :
    withGrammar build = .error .grammarUnavailable := by
  rw [withGrammar, Build.grammar, Build.grammar?, h]
  rfl

/-- With the grammar, the module's accessor is the one that is linked to its table. -/
theorem Context.withGrammar_of_table (h : build.grammarTable = some t) :
    withGrammar build = .ok (withBinding (.fixed Build.grammarSymbol t.address)) := by
  rw [withGrammar, Build.grammar, Build.grammar?, h]
  rfl

/-- Any number of contexts with one accessor agree, if it returns a table. -/
theorem checkContexts_withBinding {a : Accessor} (h : a.table cells = .ok t) {n : Nat}
    (hn : 1 ≤ n) :
    ∃ r, (checkContexts n (fun _ ↦ .ok (.withBinding a)) cells).value.result = .ok r := by
  have hreports : ∀ i, ∃ r, ContextsCheck.Reports (fun _ ↦ .ok (.withBinding a)) cells i r t :=
    fun i ↦ ContextsCheck.reports_withBinding rfl h
  have hnone : ∀ i < n, ∀ f texts,
      ¬ ContextsCheck.Fault (fun _ ↦ .ok (.withBinding a)) cells i f texts := by
    intro i _ f texts hfault
    obtain ⟨r, hr⟩ := hreports i
    obtain ⟨r₀, hr₀⟩ := hreports 0
    -- With the reports at hand, the turn of this context goes well.
    have hturn := hfault.turn_some hr₀
    rw [hr.turn_some hr₀, if_neg (by simp)] at hturn
    cases hturn
  obtain ⟨r, -, -, hcheck⟩ := checkContexts_eq_of_no_fault hn hnone
  exact ⟨r, by rw [hcheck]⟩

/-- Where the first context cannot be made, that is why the check fails. -/
theorem checkContexts_of_construction {make : Nat → Except Error Context} {e : Error}
    (h : make 0 = .error e) {n : Nat} (hn : 1 ≤ n) :
    (checkContexts n make cells).value.result = .error (.construction e) := by
  rw [checkContexts_eq_of_fault hn (.construction h) (by simp)]

end Contexts

/-! ### Commands -/

namespace Command

/-- The commands that a build can carry out. -/
inductive Supported (build : Build) : Command → Prop
  | tag (json : Bool) : Supported build (tag json)
  | exports (json : Bool) (h : build.grammarTable.isSome) : Supported build (exports json)
  | check {contexts : Nat} (h : build.grammarTable.isSome) (hn : 1 ≤ contexts) :
    Supported build (check contexts)

variable {build : Build}

theorem append_line_ne_empty (text line : String) : text ++ (line ++ "\n") ≠ "" := by
  rw [ne_eq, String.append_eq_empty_iff, String.append_eq_empty_iff]
  exact fun hempty ↦ absurd hempty.2.2 (by decide)

theorem append_linesText_ne_empty (text : String) {lines : List String} (h : lines ≠ []) :
    text ++ linesText lines ≠ "" := by
  cases lines with
  | nil => exact absurd rfl h
  | cons line lines =>
    rw [linesText, List.map_cons, String.join_cons, ← String.append_assoc, ne_eq,
      String.append_eq_empty_iff]
    exact fun hempty ↦ append_line_ne_empty text line hempty.1

/-- **A command that is supported prints something**, whatever it is asked for and whatever has been
printed before it. -/
theorem Supported.exists_run_eq_ok {c : Command} (h : Supported build c) (text : String) :
    ∃ printed, printed ≠ "" ∧ ((c.run build).runFrom text).value = (.ok (), printed) := by
  rcases h with json | ⟨json, h⟩ | ⟨h, hn⟩
  · exact ⟨_, append_line_ne_empty text _, rfl⟩
  · obtain ⟨t, ht⟩ := Option.isSome_iff_exists.1 h
    have hreport := Context.report_withBinding
      (Accessor.table_fixed Build.grammarSymbol t noCells)
    rw [run, Context.withGrammar_of_table ht]
    simp only [Attempt.value_runFrom_bind, Attempt.value_runFrom_ofResult, Logged.value_pure,
      Logged.value_map, hreport, Except.mapError]
    -- The report is there; it is shown as one line or as several.
    cases json with
    | true => exact ⟨_, append_line_ne_empty text _, rfl⟩
    | false =>
      exact ⟨_, append_linesText_ne_empty text (List.cons_ne_nil _ _), value_runFrom_printLines ..⟩
  · obtain ⟨t, ht⟩ := Option.isSome_iff_exists.1 h
    obtain ⟨r, hr⟩ := checkContexts_withBinding
      (Accessor.table_fixed Build.grammarSymbol t noCells) hn
    rw [run]
    simp only [Attempt.value_runFrom_bind, Attempt.value_runFrom_ofResult, Logged.value_map,
      Context.withGrammar_of_table ht, hr, Except.mapError]
    exact ⟨_, append_line_ne_empty text _, rfl⟩

/-- A command that is not supported fails, before it has printed anything. -/
theorem exists_run_eq_error {c : Command} (h : ¬ Supported build c) (text : String) :
    ∃ f, ((c.run build).runFrom text).value = (.error f, text) := by
  rcases c with json | json | contexts
  · exact absurd (.tag json) h
  · have hbare : build.grammarTable = none := by
      simpa using mt (Supported.exports json) h
    rw [run, Context.withGrammar_of_bare hbare]
    exact ⟨_, rfl⟩
  · rw [run, Attempt.value_runFrom_bind, Attempt.value_runFrom_ofResult, Logged.value_map]
    rcases Nat.eq_zero_or_pos contexts with rfl | hn
    · exact ⟨_, rfl⟩
    · have hbare : build.grammarTable = none := by
        simpa using fun hsome ↦ h (.check hsome hn)
      rw [checkContexts_of_construction (Context.withGrammar_of_bare hbare) hn]
      exact ⟨_, rfl⟩

end Command

/-! ### Settings from nothing -/

namespace Settings

/-- Where there are no files, none is found. -/
theorem FileTree.find?_of_no_files (dir : List String) (path : Path) :
    find? ⟨[], dir, []⟩ path = none := by
  rw [find?, List.findSome?_eq_none_iff]
  intro parts _
  simp [text?]

/-- Without files and variables, the settings are the defaults. -/
theorem load_defaults (path : String) : (load ⟨[], [], []⟩ [] path).value = .ok {} := by
  rw [load, layers?, FileTree.find?_of_no_files]
  rfl

end Settings

/-! ### Runs -/

namespace CommandLine

variable (build : Build) (files : Settings.FileTree) (env : Settings.Environment) (time : String)

/-- **What a run with a command can come to**: the settings are loaded and the command is supported,
and then something is printed; or the run fails, and nothing is printed. -/
theorem Invocation.outcome_cases (i : Invocation) :
    ((∃ s, (Settings.load files env (i.config.getD Settings.defaultFile)).value = .ok s) ∧
      i.command.Supported build ∧ (i.outcome build files env time).code = 0 ∧
      (i.outcome build files env time).output ≠ "") ∨
    (¬ ((∃ s, (Settings.load files env (i.config.getD Settings.defaultFile)).value = .ok s) ∧
        i.command.Supported build) ∧
      (i.outcome build files env time).code = 1 ∧
      (i.outcome build files env time).output = "") := by
  rw [outcome]
  rcases (Settings.load files env (i.config.getD Settings.defaultFile)).value with e | s
  · exact .inr ⟨by simp, rfl, rfl⟩
  · by_cases hsupported : i.command.Supported build
    · obtain ⟨text, hne, hrun⟩ := hsupported.exists_run_eq_ok ""
      simp only [hrun]
      exact .inl ⟨⟨s, rfl⟩, hsupported, rfl, hne⟩
    · obtain ⟨f, hrun⟩ := Command.exists_run_eq_error hsupported ""
      simp only [hrun]
      exact .inr ⟨fun h ↦ hsupported h.2, rfl, rfl⟩

/-- **When a run succeeds.** Where the words of a command line ask for a command, the exit code is
zero if and only if the settings can be loaded and the build supports the command; and there is
something on standard output if and only if the exit code is zero. -/
theorem exit_code_eq_zero_iff (args : List String) (i : Invocation)
    (h : Request.read args = .ok (.run i)) :
    ((outcome build files env time args).code = 0 ↔
      (∃ s, (Settings.load files env (i.config.getD Settings.defaultFile)).value = .ok s) ∧
        i.command.Supported build) ∧
    ((outcome build files env time args).output ≠ "" ↔
      (outcome build files env time args).code = 0) := by
  rw [outcome, h]
  show ((i.outcome build files env time).code = 0 ↔ _) ∧
    ((i.outcome build files env time).output ≠ "" ↔ (i.outcome build files env time).code = 0)
  rcases i.outcome_cases build files env time with ⟨hloads, hsupported, hcode, houtput⟩ |
    ⟨hnot, hcode, houtput⟩
  · rw [hcode]
    exact ⟨iff_of_true rfl ⟨hloads, hsupported⟩, iff_of_true houtput rfl⟩
  · rw [hcode, houtput]
    exact ⟨iff_of_false (by decide) hnot, iff_of_false (by simp) (by decide)⟩

/-- A build with a table. -/
def linked : Build := ⟨some ⟨⟨32⟩, by decide⟩⟩

/-- Three contexts are checked with success where there is a table, and only there; to check no
context is a failure even so. -/
theorem exit_code_eq_zero_iff_check :
    (outcome linked ⟨[], [], []⟩ [] "" ["check", "--contexts", "3"]).code = 0 ∧
      (outcome linked ⟨[], [], []⟩ [] "" ["check", "--contexts", "3"]).output ≠ "" ∧
      (outcome .bare ⟨[], [], []⟩ [] "" ["check", "--contexts", "3"]).code ≠ 0 ∧
      (outcome .bare ⟨[], [], []⟩ [] "" ["check", "--contexts", "3"]).output = "" ∧
      (outcome linked ⟨[], [], []⟩ [] "" ["check", "--contexts", "0"]).code ≠ 0 := by
  have hthree : Request.read ["check", "--contexts", "3"] = .ok (.run ⟨none, .check 3⟩) := by decide
  have hzero : Request.read ["check", "--contexts", "0"] = .ok (.run ⟨none, .check 0⟩) := by decide
  obtain ⟨hlinked, hwritten⟩ := exit_code_eq_zero_iff linked ⟨[], [], []⟩ [] "" _ _ hthree
  obtain ⟨hbare, hsilent⟩ := exit_code_eq_zero_iff .bare ⟨[], [], []⟩ [] "" _ _ hthree
  obtain ⟨hnone, -⟩ := exit_code_eq_zero_iff linked ⟨[], [], []⟩ [] "" _ _ hzero
  have hcode := hlinked.2 ⟨⟨_, Settings.load_defaults _⟩, .check rfl (by decide)⟩
  have hfails : (outcome .bare ⟨[], [], []⟩ [] "" ["check", "--contexts", "3"]).code ≠ 0 := by
    intro hzero
    cases (hbare.1 hzero).2 with
    | check h hn => cases h
  refine ⟨hcode, hwritten.2 hcode, hfails, ?_, fun hzero ↦ ?_⟩
  · exact by_contra fun houtput ↦ hfails (hsilent.1 houtput)
  · cases (hnone.1 hzero).2 with
    | check h hn => cases hn

end CommandLine

end GrammarExport
