import GrammarExport.Proofs.Publication

/-!
# An export is all or nothing

A foreign caller keeps records in variables and has them filled, again and again: it names an
accessor or asks for that of the generated grammar, and hands in one of its records or none. The
cells that accessors read may change between any two calls. After every run of such calls a record
is the surface of the last export into it that succeeded, as a whole, or what it was at the
beginning (`OutputRecord.holds_last_export`).

## What the proof rests on

* A call succeeds if a record was handed in and the accessor exists and returns a table; otherwise
  the record stays as it was, for whichever reason (`OutputRecord.Call.fill_eq`). So one call either
  overwrites one variable or does nothing (`OutputRecord.step_of_exports`,
  `OutputRecord.step_of_not_exports`).
* What was in a variable plays no part in what is written there, so the last success decides alone
  (`OutputRecord.written?_step`, and `Run.view_after_eq_last` for whole runs).
-/

namespace GrammarExport.OutputRecord

universe u

variable {ι : Type u}

/-! ### Calls -/

/-- Whose surface is asked for. -/
inductive Source where
  /-- That of an accessor that the caller names. -/
  | named (accessor : Accessor)
  /-- That of the generated grammar, if it was linked into the program. -/
  | generated (build : Build)

/-- The accessor of a source, if there is one. -/
def Source.accessor? : Source → Option Accessor
  | named accessor => some accessor
  | generated build => build.grammar?

/-- A call for an export: the variable whose record is handed in, unless the caller hands in none,
the source, and what the cells hold at the time of the call. -/
structure Call (ι : Type u) where
  out : Option ι
  source : Source
  cells : Cells

namespace Call

/-- What a call does with the record that it is handed, and what it answers. -/
def fill (call : Call ι) (out : Option OutputRecord) : Bool × Option OutputRecord :=
  match call.source with
  | .named accessor => (exportInto out accessor call.cells).value
  | .generated build => (exportGrammarInto build out call.cells).value

/-- The address that the accessor of a call returns, if there is an accessor. -/
def address? (call : Call ι) : Option Address :=
  call.source.accessor?.map fun accessor ↦ accessor.address call.cells

/-- The table that the accessor of a call returns, if it exists and returns one. -/
def table? (call : Call ι) : Option Table := call.address?.bind Table.at?

end Call

/-- The record of a surface as it is laid out: the name, and the address of a table under the
language tag. -/
def surfaceAt (address : Address) : OutputRecord := ⟨some "w", ⟨address, .language, 1⟩⟩

section Export

variable (out : Option OutputRecord) (accessor : Accessor) (cells : Cells)

/-- An export with an accessor: the record that was handed in is filled if the accessor returns a
table, and otherwise it is handed back. -/
theorem value_exportInto :
    (exportInto out accessor cells).value =
      match out, Table.at? (accessor.address cells) with
      | some _, some table => (true, some (surfaceAt table.address))
      | out, _ => (false, out) := by
  rcases out with - | record
  · rfl
  · simp only [exportInto, Logged.value_bind, value_load, Accessor.table]
    rcases Table.at? (accessor.address cells) with - | table <;> rfl

end Export

/-- The three ways to fail come to the same: no record, no accessor, or no table. -/
theorem Call.fill_eq (call : Call ι) (out : Option OutputRecord) :
    call.fill out =
      match out, call.table? with
      | some _, some table => (true, some (surfaceAt table.address))
      | out, _ => (false, out) := by
  rw [fill, table?, address?]
  rcases call.source with accessor | build
  · exact value_exportInto out accessor call.cells
  · rw [Source.accessor?]
    rcases hgrammar : build.grammar? with - | accessor
    · simp only [exportGrammarInto, hgrammar]
      rcases out with - | record <;> rfl
    · simp only [exportGrammarInto, hgrammar]
      exact value_exportInto out accessor call.cells

/-- A call has a table exactly if its accessor returns an address that is not null. -/
theorem Call.isSome_table?_iff {call : Call ι} :
    call.table?.isSome ↔ ∃ address, call.address? = some address ∧ address ≠ .null := by
  rw [table?]
  rcases call.address? with - | address
  · simp
  · simp [Table.at?]

/-! ### One call -/

variable [DecidableEq ι]

/-- A call, what it does to the variables, and its answer. -/
def step (m : ι → OutputRecord) (call : Call ι) : (ι → OutputRecord) × Bool :=
  match call.out with
  | none => (m, (call.fill none).1)
  | some x =>
    let (answer, record) := call.fill (some (m x))
    (Function.update m x (record.getD (m x)), answer)

section Step

variable {m : ι → OutputRecord} {call : Call ι}

/-- An export that succeeds overwrites the record that was handed in, and no other. -/
theorem step_of_exports {x : ι} {table : Table} (hout : call.out = some x)
    (htable : call.table? = some table) :
    step m call = (Function.update m x (surfaceAt table.address), true) := by
  simp only [step, hout, Call.fill_eq, htable, Option.getD_some]

/-- An export that fails changes nothing. -/
theorem step_of_not_exports (h : call.out = none ∨ call.table? = none) :
    step m call = (m, false) := by
  rcases hout : call.out with - | x
  · simp only [step, hout, Call.fill_eq]
  · have htable : call.table? = none := h.resolve_left (by simp [hout])
    simp only [step, hout, Call.fill_eq, htable, Option.getD_some, Function.update_eq_self]

/-- A call is answered with success if and only if it was handed a record and the accessor exists
and returns a table. -/
theorem step_snd_eq_true_iff :
    (step m call).2 = true ↔
      call.out.isSome ∧ ∃ address, call.address? = some address ∧ address ≠ .null := by
  rw [← Call.isSome_table?_iff]
  rcases hout : call.out with - | x
  · simp [step_of_not_exports (m := m) (.inl hout)]
  · rcases htable : call.table? with - | table
    · simp [step_of_not_exports (m := m) (.inr htable)]
    · simp [step_of_exports (m := m) hout htable]

end Step

/-! ### Runs -/

/-- The record that an exchange puts into a variable, if it is an export into this variable that was
answered with success. -/
def written? (x : ι) (exchange : Call ι × Bool) : Option OutputRecord :=
  if exchange.2 = true ∧ exchange.1.out = some x then exchange.1.address?.map surfaceAt else none

/-- After a call, a variable holds what the call put there, or else what it held before. -/
theorem written?_step (x : ι) (m : ι → OutputRecord) (call : Call ι) :
    some ((step m call).1 x) = (written? x (call, (step m call).2)).or (some (m x)) := by
  by_cases hfails : call.out = none ∨ call.table? = none
  · rw [step_of_not_exports hfails]
    simp [written?]
  · obtain ⟨hout, htable⟩ := not_or.1 hfails
    obtain ⟨y, hout⟩ := Option.ne_none_iff_exists'.1 hout
    obtain ⟨table, htable⟩ := Option.ne_none_iff_exists'.1 htable
    rw [step_of_exports hout htable]
    by_cases hx : x = y
    · subst hx
      obtain ⟨address, haddress, hat⟩ := Option.bind_eq_some_iff.1 htable
      obtain rfl := Table.at?_eq_some_iff.1 hat
      simp [written?, hout, haddress]
    · simp [written?, hout, hx, eq_comm]

/-- **An export is all or nothing.** In every run, a call is answered with success if and only if a
record was handed in and the accessor exists and returns a table at that call. After the run every
record is the whole surface of the last export into it that succeeded, or else what it was at the
beginning. -/
theorem holds_last_export (m : ι → OutputRecord) (calls : List (Call ι)) :
    (∀ exchange ∈ Run.transcript step m calls,
      exchange.2 = true ↔ exchange.1.out.isSome ∧
        ∃ address, exchange.1.address? = some address ∧ address ≠ .null) ∧
    ∀ x, Run.after step m calls x =
      ((Run.transcript step m calls).filterMap (written? x)).getLast?.getD (m x) := by
  constructor
  · exact Run.forall_transcript (P := fun _ ↦ True)
      (fun m call _ ↦ ⟨trivial, step_snd_eq_true_iff⟩) trivial calls
  · intro x
    have hlast := Run.view_after_eq_last (fun m ↦ some (m x)) (written? x) (written?_step x) m calls
    rw [Option.or_some] at hlast
    exact Option.some.inj hlast

/-- A cell's table is exported twice, and the cell changes in between; all other exports fail: for
want of a table, of a record, and of a grammar. -/
def interrupted : List (Call Unit) :=
  [⟨some (), .named (.cell "cell" 0), fun _ ↦ ⟨16⟩⟩,
    ⟨some (), .named (.cell "cell" 0), fun _ ↦ .null⟩,
    ⟨some (), .named (.cell "cell" 0), fun _ ↦ ⟨32⟩⟩,
    ⟨none, .named (.cell "cell" 0), fun _ ↦ ⟨48⟩⟩,
    ⟨some (), .generated .bare, fun _ ↦ ⟨48⟩⟩]

theorem holds_last_export_interrupted :
    Run.after step (fun _ ↦ ⟨none, .untagged ⟨8⟩⟩) interrupted () =
        ⟨some "w", ⟨⟨32⟩, .language, 1⟩⟩ ∧
      ∃ second third, (Run.transcript step (fun _ ↦ ⟨none, .untagged ⟨8⟩⟩) interrupted)[1]? =
          some second ∧
        (Run.transcript step (fun _ ↦ ⟨none, .untagged ⟨8⟩⟩) interrupted)[2]? = some third ∧
        second.2 ≠ true ∧ third.2 = true := by
  obtain ⟨hanswers, hlast⟩ := holds_last_export (fun _ ↦ ⟨none, .untagged ⟨8⟩⟩) interrupted
  refine ⟨(hlast ()).trans rfl, _, _, rfl, rfl, fun hsucceeds ↦ ?_, ?_⟩
  · obtain ⟨-, address, haddress, hnull⟩ := (hanswers _ (by simp [interrupted])).1 hsucceeds
    exact hnull (Option.some.inj haddress).symm
  · exact (hanswers _ (by simp [interrupted])).2 ⟨rfl, ⟨32⟩, rfl, by decide⟩

end GrammarExport.OutputRecord
