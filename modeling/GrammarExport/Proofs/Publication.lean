import GrammarExport.OutputRecord
import GrammarExport.Report
import GrammarExport.Proofs.Context.Call

/-!
# All adapters publish the same

A table comes out of an accessor in several shapes: a surface, the exports object of a module,
which is also what a context hands out, and the output record of foreign callers. It goes back in
through several checks. `adapters_agree` says that for every accessor the shapes agree with each
other, and that every check leads from any of them back to the address that the accessor returned.

## What the proof rests on

* The accessor alone decides: every producer is a function of `Accessor.table`, the table that the
  accessor returns or the error that it returns none (`Surface.value_load`,
  `Exports.value_publish`, `Context.require_withBinding`, `OutputRecord.value_load`).
* All checks go through `External.verify`, so what passes it is found by all of them
  (`External.leadsTo_of_verify`); and the external of a table passes
  (`External.value_verify_ofTable`).
* A report checks the keys, the name and the language of an exports object and repeats what it
  found (`Report.value_ofExports_eq_ok_iff`).
-/

namespace GrammarExport

/-! ### Producers -/

/-- The table that an accessor returns, or the error that it returns none. -/
def Accessor.table (a : Accessor) (cells : Cells) : Except Error Table :=
  match Table.at? (a.address cells) with
  | some t => .ok t
  | none => .error (.nullTable a.symbol)

/-- The exports object of a surface. -/
def Exports.ofSurface (s : Surface) : Exports :=
  ⟨(Dict.empty.insert nameKey (.text s.name)).insert languageKey (.external s.language)⟩

section Producers

variable (a : Accessor) (cells : Cells)

/-- Resolving an accessor gives the table it returns. -/
theorem Accessor.value_resolve : (a.resolve cells).run.value = a.table cells := by
  rw [resolve, table]
  rcases Table.at? (a.address cells) with - | t <;> rfl

variable {a cells} in
/-- An accessor that returns null has no table. -/
theorem Accessor.table_of_null (h : a.address cells = .null) :
    a.table cells = .error (.nullTable a.symbol) := by
  rw [table, h, Table.at?_null]

variable {a cells} in
theorem Accessor.table_of_ne_null (h : a.address cells ≠ .null) :
    a.table cells = .ok ⟨a.address cells, h⟩ := by
  rw [table, Table.at?, dif_neg h]

/-- A surface is loaded with the table of the accessor, or fails as it does. -/
theorem Surface.value_load : (load a cells).run.value = (a.table cells).map ofTable := by
  simp only [load, Logged.value_run_bind, Accessor.value_resolve, Logged.value_run_pure]
  rcases a.table cells with e | t <;> rfl

theorem OutputRecord.value_load :
    (load a cells).run.value = (a.table cells).map fun t ↦ ofSurface (.ofTable t) := by
  simp only [load, Logged.value_run_bind, Surface.value_load, Logged.value_run_pure]
  rcases a.table cells with e | t <;> rfl

/-- To publish is one call to the host, if there is a table. -/
theorem Host.value_publish {σ : Type} (host : Host σ) (s : σ) :
    ((host.publish a cells).runFrom s).value =
      match a.table cells with
      | .ok t => host.define (nameKey, .text grammarName) (languageKey, .external (.ofTable t)) s
      | .error e => (.error e, s) := by
  simp only [publish, Attempt.value_runFrom_bind, Attempt.value_runFrom_lift,
    value_runFrom_call, Attempt.value_runFrom_emit, Surface.value_load]
  rcases a.table cells with e | t
  · rfl
  · simp only [Except.map, Surface.ofTable]
    rcases host.define _ _ s with ⟨e | -, s'⟩ <;> rfl

theorem nameKey_ne_languageKey : nameKey ≠ languageKey := by decide

/-- The exports object that a module publishes. -/
theorem Exports.value_publish :
    ((Exports.host.publish a cells).runFrom .empty).value =
      match a.table cells with
      | .ok t => (.ok (), .ofSurface (.ofTable t))
      | .error e => (.error e, .empty) := by
  rw [Host.value_publish]
  rcases a.table cells with e | t
  · rfl
  · simp [host, define, empty, Dict.contains, nameKey_ne_languageKey, ofSurface, Surface.ofTable]

/-- The initializer that publishes fills an exports object with the surface of the table. -/
theorem Initializer.outcome_ofAccessor :
    (ofAccessor a).outcome cells = (a.table cells).map fun t ↦ .ofSurface (.ofTable t) := by
  rw [outcome, ofAccessor, Exports.value_publish]
  rcases a.table cells with e | t <;> rfl

theorem Context.require_withBinding :
    ((withBinding a).require cells bindingName).value.result =
      (a.table cells).map fun t ↦ .ofSurface (.ofTable t) := by
  have hregistered : (withBinding a).registered.get? bindingName = some (.ofAccessor a) := by
    simp [withBinding, register, Dict.get?_insert]
  rw [require_of_registered rfl hregistered]
  exact Initializer.outcome_ofAccessor a cells

end Producers

/-! ### Consumers -/

namespace Exports

variable (s : Surface)

@[simp] theorem get?_name_ofSurface : (ofSurface s).get? nameKey = some (.text s.name) := by
  simp [get?, ofSurface, Dict.get?_insert, nameKey_ne_languageKey]

@[simp] theorem get?_language_ofSurface :
    (ofSurface s).get? languageKey = some (.external s.language) := by
  simp [get?, ofSurface, Dict.get?_insert]

@[simp] theorem keys_ofSurface : (ofSurface s).keys = [languageKey, nameKey] := by
  have hlt : languageKey < nameKey := by decide
  simp [keys, ofSurface, Dict.keys, Dict.insert, Dict.insertEntry, Dict.empty, hlt]

end Exports

/-- Every consumer finds the table at an address behind an external: the boundary check itself, a
surface and an exports object that hold the external, and the check for foreign callers. -/
structure External.LeadsTo (e : External) (address : Address) : Prop where
  verify : e.verify.run.value.map Table.address = .ok address
  surface : ∀ s : Surface, s.language = e → s.table.run.value.map Table.address = .ok address
  exports : ∀ x : Exports, x.get? languageKey = some (.external e) →
    x.language.run.value.map Table.address = .ok address
  checked : (External.checkedAddress (some e)).value = address

/-- The external of a table passes the boundary check. -/
theorem External.value_verify_ofTable (t : Table) : (ofTable t).verify.run.value = .ok t := by
  simp [verify, ofTable, hasTag, isTagged]

/-- The language of an exports object is what the boundary check makes of the external there. -/
theorem Exports.language_eq_verify {x : Exports} {e : External}
    (h : x.get? languageKey = some (.external e)) : x.language = e.verify := by
  rw [language, h, ExportValue.tableOf]

/-- An external that passes the boundary check leads every consumer to the same table. -/
theorem External.leadsTo_of_verify {e : External} {t : Table} (h : e.verify.run.value = .ok t) :
    e.LeadsTo t.address where
  verify := by rw [h]; rfl
  surface s hs := by
    rw [Surface.table, hs, h]
    rfl
  exports x hx := by
    rw [Exports.language_eq_verify hx, h]
    rfl
  checked := by
    simp [checkedAddress, h]

/-! ### Reports -/

/-- An exports object has a report if it has the right keys, the right name, and a language that
passes the boundary check; the report says so. -/
theorem Report.value_ofExports_eq_ok_iff {x : Exports} {r : Report} :
    (ofExports x).run.value = .ok r ↔
      x.keys = expectedKeys ∧ (x.get? nameKey).bind (·.text?) = some grammarName ∧
        ∃ t, x.language.run.value = .ok t ∧
          r = ⟨bindingName, grammarName, expectedKeys,
            ((x.get? languageKey).bind (·.external?)).bind (·.tag), t.address.text⟩ := by
  rw [ofExports]
  by_cases hkeys : x.keys = expectedKeys
  · rcases hname : (x.get? nameKey).bind (·.text?) with - | name
    · simp [hkeys]
    · by_cases hw : name = grammarName
      · rcases hlanguage : x.language.run.value with e | t
        · simp [hkeys, hw, hlanguage, Except.mapError]
        · simp [hkeys, hw, hlanguage, Except.mapError, Except.map, eq_comm]
      · simp [hkeys, hw]
  · simp [hkeys]

/-- A report is about the exports that the request gives, or fails as it does. -/
theorem Context.value_report (c : Context) (cells : Cells) :
    (c.report cells).value.result =
      match (c.require cells bindingName).value.result with
      | .ok x => (Report.ofExports x).run.value
      | .error e => .error (.cause e) := by
  rw [report, Logged.value_bind]
  rcases (c.require cells bindingName).value.result with e | x <;> rfl

/-! ### Agreement -/

section

variable (a : Accessor) (cells : Cells)

/-- Every producer fails with the same error, and a module's exports object stays empty. -/
structure Accessor.Refused (e : Error) : Prop where
  surface : (Surface.load a cells).run.value = .error e
  exports : ((Exports.host.publish a cells).runFrom .empty).value = (.error e, .empty)
  required : ((Context.withBinding a).require cells bindingName).value.result = .error e
  record : (OutputRecord.load a cells).run.value = .error e

/-- Every producer succeeds: a surface, an exports object, which is also what a context hands out,
and an output record. -/
structure Accessor.Published (s : Surface) (x : Exports) (r : OutputRecord) : Prop where
  surface : (Surface.load a cells).run.value = .ok s
  exports : ((Exports.host.publish a cells).runFrom .empty).value = (.ok (), x)
  required : ((Context.withBinding a).require cells bindingName).value.result = .ok x
  record : (OutputRecord.load a cells).run.value = .ok r

variable {a cells}

/-- Without a table, every producer fails with the accessor's error. -/
theorem Accessor.refused_of_table {e : Error} (h : a.table cells = .error e) :
    a.Refused cells e where
  surface := by rw [Surface.value_load, h]; rfl
  exports := by rw [Exports.value_publish, h]
  required := by rw [Context.require_withBinding, h]; rfl
  record := by rw [OutputRecord.value_load, h]; rfl

/-- With a table, every producer succeeds with its surface. -/
theorem Accessor.published_of_table {t : Table} (h : a.table cells = .ok t) :
    a.Published cells (.ofTable t) (.ofSurface (.ofTable t)) (.ofSurface (.ofTable t)) where
  surface := by rw [Surface.value_load, h]; rfl
  exports := by rw [Exports.value_publish, h]
  required := by rw [Context.require_withBinding, h]; rfl
  record := by rw [OutputRecord.value_load, h]; rfl

/-- A context with the accessor's module reports the accessor's table. -/
theorem Context.report_withBinding {t : Table} (h : a.table cells = .ok t) :
    ((withBinding a).report cells).value.result =
      .ok ⟨bindingName, grammarName, [languageKey, nameKey], some .language, t.address.text⟩ := by
  rw [value_report, (Accessor.published_of_table h).required, Report.value_ofExports_eq_ok_iff]
  refine ⟨Exports.keys_ofSurface _, by simp [ExportValue.text?, Surface.ofTable], t, ?_, ?_⟩
  · rw [Exports.language_eq_verify (Exports.get?_language_ofSurface _)]
    exact External.value_verify_ofTable t
  · rw [Exports.get?_language_ofSurface]
    rfl

end

/-- **All adapters publish the same.** From an accessor that returns null, every producer fails
with the error that says so. From any other, all succeed with the same name and the same external,
behind which every consumer finds the table that the accessor returned; and what a surface says
about itself is what is reported of a context. -/
theorem adapters_agree (a : Accessor) (cells : Cells) :
    (a.address cells = .null ∧ a.Refused cells (.nullTable a.symbol)) ∨
    (a.address cells ≠ .null ∧ ∃ surface exports record value,
      a.Published cells surface exports record ∧
      (surface.name = "w" ∧ exports.get? "name" = some (.text "w") ∧ record.name = some "w") ∧
      (surface.language = value ∧ exports.get? "language" = some (.external value) ∧
        record.language = value) ∧
      value.LeadsTo (a.address cells) ∧
      ∃ report, ((Context.withBinding a).report cells).value.result = .ok report ∧
        report.name = surface.summary.name ∧ report.typeTag = surface.summary.typeTag ∧
        report.tableAddress = surface.summary.tableAddress ∧
        report.keys.Perm surface.summary.keys) := by
  by_cases hnull : a.address cells = .null
  · have htable : a.table cells = .error (.nullTable a.symbol) := by
      rw [Accessor.table, hnull, Table.at?_null]
    exact .inl ⟨hnull, Accessor.refused_of_table htable⟩
  · let t : Table := ⟨a.address cells, hnull⟩
    have htable : a.table cells = .ok t := by
      rw [Accessor.table, show Table.at? (a.address cells) = some t from t.at?_address]
    exact .inr ⟨hnull, .ofTable t, .ofSurface (.ofTable t), .ofSurface (.ofTable t), .ofTable t,
      Accessor.published_of_table htable, ⟨rfl, Exports.get?_name_ofSurface _, rfl⟩,
      ⟨rfl, Exports.get?_language_ofSurface _, rfl⟩,
      External.leadsTo_of_verify (External.value_verify_ofTable t),
      _, Context.report_withBinding htable, rfl, rfl, rfl, List.Perm.swap ..⟩

end GrammarExport
