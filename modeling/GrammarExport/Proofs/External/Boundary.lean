import GrammarExport.Proofs.External.History
import GrammarExport.Proofs.Publication

/-!
# The boundary check is exact

A foreign caller lays out an external as it likes: any address, any two tag words, any flag byte.
There are four kinds of layouts, each with a verdict of its own (`External.Verdict`): there is no
tag, whatever the tag words say; there is a tag, and it is not that of language tables; there is the
right tag and no address; or there is a language table. The boundary check gives this verdict for
every layout, and so does every other way in (`External.verify_exact`).

## What the proof rests on

* The check decides by the flag and the tag words, and looks at the address only behind the right
  tag (`External.verdict`). The verdict then settles each answer: no layout is of two kinds.
* A tag is two words, so it is another one as soon as one word differs (`Tag.eq_language_iff`).
* An exports object and a surface pass their external on to the check
  (`Exports.language_eq_verify`), and the check for foreign callers only forgets the reason of a
  refusal (`External.value_checkedAddress`).
-/

namespace GrammarExport

theorem Tag.eq_language_iff {t : Tag} :
    t = .language ↔ t.lower = Tag.language.lower ∧ t.upper = Tag.language.upper := by
  constructor
  · rintro rfl
    exact ⟨rfl, rfl⟩
  · intro ⟨hlower, hupper⟩
    cases t
    exact congrArg₂ Tag.mk hlower hupper

namespace External

/-! ### The four kinds of layouts -/

/-- The kinds of layouts, and what is to be answered to each. -/
inductive Verdict (e : External) : Except Error Table → Prop
  | untagged (hflag : e.flag = 0) : Verdict e (.error (.tagMismatch .language none))
  | mistagged (hflag : e.flag ≠ 0) (hwords : e.words ≠ .language) :
    Verdict e (.error (.tagMismatch .language (some e.words)))
  | null (hflag : e.flag ≠ 0) (hwords : e.words = .language) (hnull : e.data = .null) :
    Verdict e (.error (.nullTable "external value"))
  | table (hflag : e.flag ≠ 0) (hwords : e.words = .language) (hnull : e.data ≠ .null) :
    Verdict e (.ok ⟨e.data, hnull⟩)

variable {e : External}

theorem tag_of_flag_eq_zero (h : e.flag = 0) : e.tag = none := by
  simp [tag, isTagged, h]

/-- Any flag byte but zero counts as a mark. -/
theorem tag_of_flag_ne_zero (h : e.flag ≠ 0) : e.tag = some e.words := by
  simp [tag, isTagged, h]

/-- A value without the language tag is turned away, whatever its address is. -/
theorem value_verify_of_tag_ne (h : e.tag ≠ some .language) :
    e.verify.run.value = .error (.tagMismatch .language e.tag) := by
  have hrefused : e.hasTag .language = false := by
    rw [Bool.eq_false_iff, ne_eq, hasTag_iff]
    exact h
  rw [verify, hrefused]
  rfl

/-- Behind the language tag, the address decides. -/
theorem value_verify_of_tag_eq (h : e.tag = some .language) :
    e.verify.run.value =
      match Table.at? e.data with
      | some t => .ok t
      | none => .error (.nullTable "external value") := by
  rw [verify, (hasTag_iff e .language).2 h]
  rcases ht : Table.at? e.data with - | t <;> simp

/-- **The boundary check gives the verdict on every layout.** -/
theorem verdict (e : External) : e.Verdict e.verify.run.value := by
  by_cases hflag : e.flag = 0
  · have htag := tag_of_flag_eq_zero hflag
    rw [value_verify_of_tag_ne (by simp [htag]), htag]
    exact .untagged hflag
  · have htag := tag_of_flag_ne_zero hflag
    by_cases hwords : e.words = .language
    · rw [value_verify_of_tag_eq (by rw [htag, hwords])]
      by_cases hnull : e.data = .null
      · rw [hnull, Table.at?_null]
        exact .null hflag hwords hnull
      · rw [show Table.at? e.data = some ⟨e.data, hnull⟩ from Table.at?_address ⟨e.data, hnull⟩]
        exact .table hflag hwords hnull
    · rw [value_verify_of_tag_ne (by simpa [htag] using hwords), htag]
      exact .mistagged hflag hwords

/-! ### What a verdict tells -/

namespace Verdict

variable {answer : Except Error Table} (h : e.Verdict answer)

include h

/-- A right answer is a table exactly for what is marked, carries the language tag and points
somewhere. -/
theorem exists_eq_ok_iff :
    (∃ t, answer = .ok t) ↔ e.flag ≠ 0 ∧ e.words = .language ∧ e.data ≠ .null := by
  cases h <;> simp [*]

theorem address_eq {t : Table} (ht : answer = .ok t) : t.address = e.data := by
  cases h <;> cases ht
  rfl

theorem eq_untagged_iff : answer = .error (.tagMismatch .language none) ↔ e.flag = 0 := by
  cases h <;> simp [*]

/-- A right answer complains of another tag exactly if that tag is there. -/
theorem eq_mistagged_iff {found : Tag} :
    answer = .error (.tagMismatch .language (some found)) ↔
      found = e.words ∧ e.flag ≠ 0 ∧ e.words ≠ .language := by
  rw [eq_comm (a := found)]
  cases h <;> simp [*]

/-- A right answer complains of a null pointer exactly if there is nothing else to complain of. -/
theorem eq_null_iff :
    answer = .error (.nullTable "external value") ↔
      e.flag ≠ 0 ∧ e.words = .language ∧ e.data = .null := by
  cases h <;> simp [*]

end Verdict

/-! ### Other ways in -/

/-- The check for foreign callers gives the address of the table, and null for every refusal. -/
theorem value_checkedAddress (e : External) :
    (checkedAddress (some e)).value =
      match e.verify.run.value with
      | .ok t => t.address
      | .error _ => .null := by
  rw [checkedAddress, Logged.value_bind]
  rcases e.verify.run.value with err | t <;> rfl

/-- **The boundary check is exact, and every boundary applies it.** For every layout of an external:

* there is a table, the one at the address, if and only if the flag is not zero, both tag words are
  those of the language tag, and the address is not null;
* the refusal says that no tag was found if and only if the flag is zero, and it names the tag that
  was found if and only if the flag is not zero and a tag word differs;
* in the remaining case the address is said to be null.

The check for foreign callers gives the same address, or null for every refusal; exports and
surfaces that hold the external are checked in the same way. -/
theorem verify_exact (e : External) :
    ((∃ t, e.verify.run.value = .ok t) ↔
      e.flag ≠ 0 ∧ (e.words.lower = Tag.language.lower ∧ e.words.upper = Tag.language.upper) ∧
        e.data ≠ .null) ∧
    (∀ t, e.verify.run.value = .ok t → t.address = e.data) ∧
    (e.verify.run.value = .error (.tagMismatch .language none) ↔ e.flag = 0) ∧
    (∀ found, e.verify.run.value = .error (.tagMismatch .language (some found)) ↔
      found = e.words ∧ e.flag ≠ 0 ∧
        (e.words.lower ≠ Tag.language.lower ∨ e.words.upper ≠ Tag.language.upper)) ∧
    (e.verify.run.value = .error (.nullTable "external value") ↔
      e.flag ≠ 0 ∧ (e.words.lower = Tag.language.lower ∧ e.words.upper = Tag.language.upper) ∧
        e.data = .null) ∧
    (∀ t, e.verify.run.value = .ok t → (checkedAddress (some e)).value = t.address) ∧
    (∀ err, e.verify.run.value = .error err → (checkedAddress (some e)).value = .null) ∧
    (∀ x : Exports, x.get? "language" = some (.external e) → x.language = e.verify) ∧
    ∀ s : Surface, s.language = e → s.table = e.verify := by
  have hverdict := e.verdict
  simp only [ne_eq, ← not_and_or, ← Tag.eq_language_iff]
  refine ⟨hverdict.exists_eq_ok_iff, fun t ↦ hverdict.address_eq, hverdict.eq_untagged_iff,
    fun found ↦ hverdict.eq_mistagged_iff, hverdict.eq_null_iff, fun t ht ↦ ?_, fun err herr ↦ ?_,
    fun x ↦ Exports.language_eq_verify, fun s hs ↦ ?_⟩
  · rw [value_checkedAddress, ht]
  · rw [value_checkedAddress, herr]
  · rw [Surface.table, hs]

/-- The language tag with another upper word, under a flag that no producer of this layer writes. -/
def halfTagged : External := ⟨⟨16⟩, ⟨Tag.language.lower, 0⟩, 0xFF⟩

/-- The external of a table, with its flag cleared and its tag words left behind. -/
def cleared : External := ⟨⟨16⟩, .language, 0⟩

/-- Half of the language tag does not pass, and neither does all of it under a cleared flag; any
other flag will do. -/
theorem verify_exact_raw_layouts :
    halfTagged.verify.run.value = .error (.tagMismatch .language (some halfTagged.words)) ∧
      (checkedAddress (some halfTagged)).value = .null ∧
      (Exports.ofSurface ⟨"w", cleared⟩).language.run.value =
        .error (.tagMismatch .language none) ∧
      Surface.table ⟨"w", cleared⟩ = cleared.verify ∧
      ∃ t, (⟨⟨16⟩, .language, 0xFF⟩ : External).verify.run.value = .ok t ∧ t.address = ⟨16⟩ ∧
        (checkedAddress (some ⟨⟨16⟩, .language, 0xFF⟩)).value = t.address := by
  obtain ⟨-, -, -, hhalf, -, -, hnull, -⟩ := verify_exact halfTagged
  obtain ⟨-, -, hcleared, -, -, -, -, hexports, hsurface⟩ := verify_exact cleared
  obtain ⟨hpasses, haddress, -, -, -, hchecked, -⟩ := verify_exact ⟨⟨16⟩, .language, 0xFF⟩
  have hrefused := (hhalf halfTagged.words).2 ⟨rfl, by decide, by decide⟩
  obtain ⟨t, ht⟩ := hpasses.2 ⟨by decide, ⟨rfl, rfl⟩, by decide⟩
  refine ⟨hrefused, hnull _ hrefused, ?_, hsurface _ rfl, t, ht, haddress t ht, hchecked t ht⟩
  rw [hexports _ (Exports.get?_language_ofSurface _)]
  exact hcleared.2 rfl

end External

end GrammarExport
