import GrammarExport.Proofs.External.Boundary

/-!
# Reports are exact

A report is made of whatever the grammar's module exports in a context, and its initializer may have
exported anything. There is a report exactly if the exports are those of a language table
(`Exports.WellFormed`); these can differ from what a module publishes in the flag byte of the
external, and in nothing else. What can be wrong instead is said by `Context.Defect`, each thing on
its own and with its rank; exports may have several defects, and the failure is that of the lowest
rank (`Context.report_exact`).

## What the proof rests on

* A defect of lowest rank is reported (`Context.First.value_report`): the checks before it pass,
  since there is no defect of a lower rank.
* If there is any defect, there is one of lowest rank (`Context.Defect.exists_first`), and without
  defects the exports are well-formed (`Context.exists_wellFormed`), so they have a report
  (`Exports.WellFormed.value_ofExports`).
* Exports that were loaded are kept (`Context.loaded_of_require`), so a second report is made of the
  same exports.
-/

namespace GrammarExport

/-! ### Exports in order -/

/-- An exports object has the two properties of a surface and no others: the name of the grammar,
and an external that is a language table. -/
structure Exports.WellFormed (x : Exports) (e : External) : Prop where
  keys : ∀ k, k ∈ x.keys ↔ k = "name" ∨ k = "language"
  name : x.get? "name" = some (.text "w")
  language : x.get? "language" = some (.external e)
  flag : e.flag ≠ 0
  words : e.words = .language
  data : e.data ≠ .null

/-- Values that are the same, but perhaps for the flag byte of an external. -/
inductive ExportValue.AlikeButFlag : ExportValue → ExportValue → Prop
  | text (s : String) : AlikeButFlag (.text s) (.text s)
  | external (data : Address) (words : Tag) (flag flag' : UInt8) :
    AlikeButFlag (.external ⟨data, words, flag⟩) (.external ⟨data, words, flag'⟩)

namespace Exports

variable {x : Exports} {e : External}

/-- Keys come in order, so it is enough to know which ones there are. -/
theorem keys_eq_expectedKeys_iff :
    x.keys = Report.expectedKeys ↔ ∀ k, k ∈ x.keys ↔ k = "name" ∨ k = "language" := by
  have hmem : ∀ k, k ∈ Report.expectedKeys ↔ k = "name" ∨ k = "language" := fun k ↦ by
    simp [Report.expectedKeys, languageKey, nameKey, or_comm]
  constructor
  · intro h k
    rw [h, hmem]
  · intro h
    have hexpected : Report.expectedKeys.Pairwise (· < ·) := by decide
    have hkeys : x.keys.Pairwise (· < ·) := Dict.pairwise_keys _
    have hperm : x.keys.Perm Report.expectedKeys :=
      (List.perm_ext_iff_of_nodup (hkeys.imp String.ne_of_lt)
        (hexpected.imp String.ne_of_lt)).2 fun k ↦ by rw [h, hmem]
    exact hperm.eq_of_pairwise (fun a b _ _ hab hba ↦ absurd hba (String.lt_asymm hab)) hkeys
      hexpected

/-- Only an external passes as a language. -/
theorem exists_external_of_language {t : Table} (h : x.language.run.value = .ok t) :
    ∃ e, x.get? "language" = some (.external e) := by
  rw [language] at h
  rcases hget : x.get? languageKey with - | ⟨s | e⟩
  · simp [hget, ExportValue.tableOf] at h
  · simp [hget, ExportValue.tableOf] at h
  · exact ⟨e, hget⟩

namespace WellFormed

variable (h : x.WellFormed e)

include h

theorem value_language : x.language.run.value = .ok ⟨e.data, h.data⟩ := by
  rw [language_eq_verify h.language, External.value_verify_eq_ok_iff,
    External.tag_of_flag_ne_zero h.flag, h.words]
  exact ⟨rfl, rfl⟩

/-- Exports that are in order have a report, on their table. -/
theorem value_ofExports :
    (Report.ofExports x).run.value =
      .ok ⟨bindingName, "w", ["language", "name"], some .language, e.data.text⟩ := by
  have hname : x.get? nameKey = some (.text grammarName) := h.name
  have hlanguage : x.get? languageKey = some (.external e) := h.language
  refine Report.value_ofExports_eq_ok_iff.2
    ⟨keys_eq_expectedKeys_iff.2 h.keys, by rw [hname]; rfl, _, h.value_language, ?_⟩
  rw [hlanguage]
  show _ = Report.mk _ _ _ e.tag _
  rw [External.tag_of_flag_ne_zero h.flag, h.words]
  rfl

/-- Exports that are in order are what a module publishes for the address, but for the flag. -/
theorem alikeButFlag {a : Accessor} {cells : Cells} (ha : a.address cells = e.data) :
    ∃ x', ((host.publish a cells).runFrom .empty).value = (.ok (), x') ∧
      ∀ k, Option.Rel ExportValue.AlikeButFlag (x'.get? k) (x.get? k) := by
  let t : Table := ⟨e.data, h.data⟩
  have htable : a.table cells = .ok t := by
    rw [Accessor.table, ha, show Table.at? e.data = some t from t.at?_address]
  refine ⟨_, (Accessor.published_of_table htable).exports, fun k ↦ ?_⟩
  by_cases hname : k = "name"
  · subst hname
    rw [h.name, show (ofSurface (.ofTable t)).get? "name" = _ from get?_name_ofSurface _]
    exact .some (.text _)
  · by_cases hlanguage : k = "language"
    · subst hlanguage
      rw [h.language, show (ofSurface (.ofTable t)).get? "language" = _ from
        get?_language_ofSurface _]
      obtain ⟨data, words, flag⟩ := e
      obtain rfl : words = .language := h.words
      exact .some (.external ..)
    · have hpublished : (ofSurface (.ofTable t)).get? k = none :=
        Dict.get?_eq_none_iff.2 (by
          show k ∉ (ofSurface (.ofTable t)).keys
          simpa [languageKey, nameKey] using ⟨hlanguage, hname⟩)
      have hx : x.get? k = none :=
        Dict.get?_eq_none_iff.2 (mt (h.keys k).1 (not_or.2 ⟨hname, hlanguage⟩))
      rw [hpublished, hx]
      exact .none

end WellFormed

end Exports

/-! ### Exports that are not in order -/

namespace Report

variable {x : Exports}

/-- Wrong keys are reported before anything else. -/
theorem value_ofExports_of_keys (h : x.keys ≠ expectedKeys) :
    (ofExports x).run.value = .error (.unexpectedKeys x.keys) := by
  simp [ofExports, h]

variable (hkeys : x.keys = expectedKeys)

include hkeys

theorem value_ofExports_of_name_none (h : (x.get? nameKey).bind (·.text?) = none) :
    (ofExports x).run.value = .error .nameNotText := by
  simp [ofExports, hkeys, h]

theorem value_ofExports_of_name_ne {s : String} (h : x.get? nameKey = some (.text s))
    (hne : s ≠ grammarName) : (ofExports x).run.value = .error (.wrongName s) := by
  simp [ofExports, hkeys, h, ExportValue.text?, hne]

/-- What the boundary check complains of is reported as it is. -/
theorem value_ofExports_of_language {e : Error} (h : x.get? nameKey = some (.text grammarName))
    (hlanguage : x.language.run.value = .error e) :
    (ofExports x).run.value = .error (.cause e) := by
  have hname : (x.get? nameKey).bind (·.text?) = some grammarName := by rw [h]; rfl
  rw [ofExports, hkeys, hname]
  simp only [ne_eq, not_true_eq_false, if_false, Logged.value_run_bind, Logged.value_run_adapt,
    hlanguage]
  rfl

end Report

namespace Context

variable (c : Context) (cells : Cells)

/-- What can be wrong with the grammar's module in a context, each thing without regard to the
others. The number is the rank of a defect, which is its place in the order of the checks. -/
inductive Defect : Nat → Report.Failure → Prop
  /-- The module cannot be loaded. -/
  | loading {e : Error} (h : (c.require cells bindingName).value.result = .error e) :
    Defect 0 (.cause e)
  /-- It has other keys than it should. -/
  | keys {x : Exports} (hx : (c.require cells bindingName).value.result = .ok x)
    (h : ¬ ∀ k, k ∈ x.keys ↔ k = "name" ∨ k = "language") : Defect 1 (.unexpectedKeys x.keys)
  /-- Its name is not a text. -/
  | nameNotText {x : Exports} (hx : (c.require cells bindingName).value.result = .ok x)
    (h : ∀ s, x.get? "name" ≠ some (.text s)) : Defect 2 .nameNotText
  /-- Its name is another one. -/
  | wrongName {x : Exports} {s : String} (hx : (c.require cells bindingName).value.result = .ok x)
    (hname : x.get? "name" = some (.text s)) (hne : s ≠ "w") : Defect 3 (.wrongName s)
  /-- Its language does not pass the boundary check. -/
  | language {x : Exports} {e : Error} (hx : (c.require cells bindingName).value.result = .ok x)
    (h : x.language.run.value = .error e) : Defect 4 (.cause e)

/-- A defect of lowest rank. -/
def First (rank : Nat) (f : Report.Failure) : Prop :=
  Defect c cells rank f ∧ ∀ lower < rank, ∀ g, ¬ Defect c cells lower g

variable {c cells}

/-- Where there is a defect, there is one of lowest rank. -/
theorem Defect.exists_first {rank : Nat} {f : Report.Failure} (h : Defect c cells rank f) :
    ∃ lowest g, First c cells lowest g := by
  induction rank using Nat.strongRecOn generalizing f with
  | ind rank ih =>
    by_cases hlower : ∃ lower < rank, ∃ g, Defect c cells lower g
    · obtain ⟨lower, hlt, g, hg⟩ := hlower
      exact ih lower hlt hg
    · exact ⟨rank, f, h, fun lower hlt g hg ↦ hlower ⟨lower, hlt, g, hg⟩⟩

/-! ### What the absence of defects tells -/

section Absent

variable {x : Exports} (hx : (c.require cells bindingName).value.result = .ok x)

include hx

theorem keys_of_not_defect (h : ∀ g, ¬ Defect c cells 1 g) : x.keys = Report.expectedKeys :=
  Exports.keys_eq_expectedKeys_iff.2 (by_contra fun hkeys ↦ h _ (.keys hx hkeys))

theorem name_of_not_defect (htext : ∀ g, ¬ Defect c cells 2 g) (hname : ∀ g, ¬ Defect c cells 3 g) :
    x.get? "name" = some (.text "w") := by
  obtain ⟨s, hs⟩ : ∃ s, x.get? "name" = some (.text s) :=
    by_contra fun hnone ↦ htext _ (.nameNotText hx fun s hs ↦ hnone ⟨s, hs⟩)
  obtain rfl : s = "w" := by_contra fun hne ↦ hname _ (.wrongName hx hs hne)
  exact hs

theorem language_of_not_defect (h : ∀ g, ¬ Defect c cells 4 g) :
    ∃ t, x.language.run.value = .ok t := by
  rcases hlanguage : x.language.run.value with e | t
  · exact absurd (.language hx hlanguage) (h _)
  · exact ⟨t, rfl⟩

end Absent

/-- Without defects, the module is loaded and its exports are in order. -/
theorem exists_wellFormed (h : ∀ rank f, ¬ Defect c cells rank f) :
    ∃ x e, (c.require cells bindingName).value.result = .ok x ∧ x.WellFormed e := by
  rcases hx : (c.require cells bindingName).value.result with e | x
  · exact absurd (.loading hx) (h _ _)
  · obtain ⟨t, ht⟩ := language_of_not_defect hx (h 4)
    obtain ⟨e, he⟩ := Exports.exists_external_of_language ht
    rw [Exports.language_eq_verify he] at ht
    obtain ⟨hflag, hwords, hdata⟩ := e.verdict.exists_eq_ok_iff.1 ⟨t, ht⟩
    exact ⟨x, e, rfl, Exports.keys_eq_expectedKeys_iff.1 (keys_of_not_defect hx (h 1)),
      name_of_not_defect hx (h 2) (h 3), he, hflag, hwords, hdata⟩

/-! ### Reports -/

/-- **The defect of lowest rank is reported.** The checks before it pass. -/
theorem First.value_report {rank : Nat} {f : Report.Failure} (h : First c cells rank f) :
    (c.report cells).value.result = .error f := by
  obtain ⟨hdefect, hlower⟩ := h
  rw [Context.value_report]
  cases hdefect with
  | loading he => rw [he]
  | keys hx hkeys =>
    rw [hx]
    exact Report.value_ofExports_of_keys (mt Exports.keys_eq_expectedKeys_iff.1 hkeys)
  | @nameNotText x hx htext =>
    have hkeys := keys_of_not_defect hx (hlower 1 (by decide))
    rw [hx]
    refine Report.value_ofExports_of_name_none hkeys ?_
    rcases hname : x.get? nameKey with - | ⟨s | e⟩
    · rfl
    · exact absurd hname (htext s)
    · rfl
  | wrongName hx hname hne =>
    have hkeys := keys_of_not_defect hx (hlower 1 (by decide))
    rw [hx]
    exact Report.value_ofExports_of_name_ne hkeys hname hne
  | language hx hlanguage =>
    have hkeys := keys_of_not_defect hx (hlower 1 (by decide))
    have hname := name_of_not_defect hx (hlower 2 (by decide)) (hlower 3 (by decide))
    rw [hx]
    exact Report.value_ofExports_of_language hkeys hname hlanguage

/-- A request for exports that are in order is answered with a report on their table. -/
theorem value_report_of_wellFormed {x : Exports} {e : External}
    (hx : (c.require cells bindingName).value.result = .ok x) (h : x.WellFormed e) :
    (c.report cells).value.result =
      .ok ⟨bindingName, "w", ["language", "name"], some .language, e.data.text⟩ := by
  rw [value_report, hx]
  exact h.value_ofExports

/-- There is a report only on exports that are in order. -/
theorem exists_wellFormed_of_report {r : Report} (h : (c.report cells).value.result = .ok r) :
    ∃ x e, (c.require cells bindingName).value.result = .ok x ∧ x.WellFormed e := by
  refine exists_wellFormed fun rank f hdefect ↦ ?_
  obtain ⟨lowest, g, hfirst⟩ := hdefect.exists_first
  cases h.symm.trans hfirst.value_report

/-- Every failure is that of a defect of lowest rank. -/
theorem exists_first_of_report {f : Report.Failure}
    (h : (c.report cells).value.result = .error f) : ∃ rank, First c cells rank f := by
  -- There is some defect, or else there would be a report.
  obtain ⟨rank, g, hg⟩ : ∃ rank g, Defect c cells rank g := by
    by_contra hnone
    simp only [not_exists] at hnone
    obtain ⟨x, e, hx, hwellFormed⟩ := exists_wellFormed hnone
    cases h.symm.trans (value_report_of_wellFormed hx hwellFormed)
  obtain ⟨lowest, g', hfirst⟩ := hg.exists_first
  obtain rfl : f = g' := Except.error.inj (h.symm.trans hfirst.value_report)
  exact ⟨lowest, hfirst⟩

theorem context_report (c : Context) (cells : Cells) :
    (c.report cells).value.context = (c.require cells bindingName).value.context := by
  rw [report, Logged.value_bind]
  rcases (c.require cells bindingName).value.result with e | x <;> rfl

/-- Once the module is loaded, every further report says the same. -/
theorem report_again {x : Exports} (hx : (c.require cells bindingName).value.result = .ok x)
    (cells' : Cells) :
    ((c.report cells).value.context.report cells').value.result = (c.report cells).value.result ∧
      ((c.report cells).value.context.report cells').value.context =
        (c.report cells).value.context := by
  have hagain : (c.require cells bindingName).value.context.require cells' bindingName =
      ⟨⟨.ok x, (c.require cells bindingName).value.context, none⟩, []⟩ :=
    require_of_loaded (loaded_of_require hx)
  rw [context_report, value_report, value_report, context_report, hagain, hx]
  exact ⟨rfl, rfl⟩

/-- **A report is made of exports in order, and of no others.**

* There is a report if and only if the module is loaded and its exports are well-formed. It gives
  the language tag and the address of the external, for which a module publishes the same exports,
  but perhaps for the flag.
* The failure is the defect of lowest rank.
* Once the module is loaded, with a report or not, every further request for a report is answered in
  the same way, whatever the accessors' cells hold then. -/
theorem report_exact (c : Context) (cells : Cells) :
    ((∃ r, (c.report cells).value.result = .ok r) ↔
      ∃ x e, (c.require cells bindingName).value.result = .ok x ∧ x.WellFormed e) ∧
    (∀ r, (c.report cells).value.result = .ok r →
      ∃ x e, (c.require cells bindingName).value.result = .ok x ∧ x.WellFormed e ∧
        r = ⟨bindingName, "w", ["language", "name"], some .language, e.data.text⟩ ∧
        ∀ a cells', a.address cells' = e.data →
          ∃ x', ((Exports.host.publish a cells').runFrom .empty).value = (.ok (), x') ∧
            ∀ k, Option.Rel ExportValue.AlikeButFlag (x'.get? k) (x.get? k)) ∧
    (∀ f, (c.report cells).value.result = .error f ↔ ∃ rank, First c cells rank f) ∧
    ∀ x, (c.require cells bindingName).value.result = .ok x → ∀ cells',
      ((c.report cells).value.context.report cells').value.result =
          (c.report cells).value.result ∧
        ((c.report cells).value.context.report cells').value.context =
          (c.report cells).value.context := by
  refine ⟨⟨fun ⟨r, hr⟩ ↦ exists_wellFormed_of_report hr, fun ⟨x, e, hx, h⟩ ↦
    ⟨_, value_report_of_wellFormed hx h⟩⟩, fun r hr ↦ ?_, fun f ↦
    ⟨exists_first_of_report, fun ⟨rank, h⟩ ↦ h.value_report⟩, fun x hx cells' ↦
    report_again hx cells'⟩
  obtain ⟨x, e, hx, h⟩ := exists_wellFormed_of_report hr
  refine ⟨x, e, hx, h, ?_, fun a cells' ↦ h.alikeButFlag⟩
  exact Except.ok.inj (hr.symm.trans (value_report_of_wellFormed hx h))

/-- A context in which the grammar's module exports a name and an external of its own choice. -/
def exporting (name : String) (e : External) : Context :=
  empty.register bindingName (.define ("name", .text name) ("language", .external e))

/-- An external with an unusual flag passes, and its exports are those of a module but for it; of a
wrong name and a language without a tag, the name is blamed, now and later. -/
theorem report_exact_exporting :
    (∃ x e x', ((exporting "w" ⟨⟨16⟩, .language, 0xFF⟩).require (fun _ ↦ .null)
          bindingName).value.result = .ok x ∧ x.WellFormed e ∧
        ((Exports.host.publish (.fixed "t" e.data) fun _ ↦ .null).runFrom .empty).value =
          (.ok (), x') ∧
        ∀ k, Option.Rel ExportValue.AlikeButFlag (x'.get? k) (x.get? k)) ∧
      (∃ f, Defect (exporting "v" (.untagged ⟨16⟩)) (fun _ ↦ .null) 4 f) ∧
      (∃ rank, First (exporting "v" (.untagged ⟨16⟩)) (fun _ ↦ .null) rank (.wrongName "v")) ∧
      (((exporting "v" (.untagged ⟨16⟩)).report fun _ ↦ .null).value.context.report
        fun _ ↦ ⟨1⟩).value.result = .error (.wrongName "v") := by
  obtain ⟨hok, hreport, -⟩ := report_exact (exporting "w" ⟨⟨16⟩, .language, 0xFF⟩) fun _ ↦ .null
  obtain ⟨-, -, hfirst, hagain⟩ := report_exact (exporting "v" (.untagged ⟨16⟩)) fun _ ↦ .null
  obtain ⟨r, hr⟩ := hok.2 ⟨_, ⟨⟨16⟩, .language, 0xFF⟩, rfl,
    Exports.keys_eq_expectedKeys_iff.1 rfl, rfl, rfl, by decide, rfl, by decide⟩
  obtain ⟨x, e, hx, hwellFormed, -, halike⟩ := hreport r hr
  obtain ⟨x', hpublished, hrel⟩ := halike (.fixed "t" e.data) (fun _ ↦ .null) rfl
  have hwrong : ((exporting "v" (.untagged ⟨16⟩)).report fun _ ↦ .null).value.result =
      .error (.wrongName "v") := rfl
  exact ⟨⟨x, e, x', hx, hwellFormed, hpublished, hrel⟩, ⟨_, .language rfl rfl⟩,
    (hfirst _).1 hwrong, (hagain _ rfl _).1.trans hwrong⟩

end Context

end GrammarExport
