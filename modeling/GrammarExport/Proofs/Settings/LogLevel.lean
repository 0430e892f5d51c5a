import GrammarExport.Log.Output
import GrammarExport.Proofs.Settings.Layering
import GrammarExport.Proofs.Text.LetterCase

/-!
# Valid levels are the levels of the log

Settings are valid if their level, in lower case, is one of five words. The log looks for the name
of a level by itself: it disregards the case of ASCII letters only, reads numbers too, and falls
back on a level of its own for anything else. The two agree: what is valid is what names a level,
and the log then lets through the events down to just this level (`Settings.valid_levels_agree`).
So its fallback never stands in for the level of settings that were loaded.

## What the proof rests on

* The names of levels are words of plain letters (`Settings.isPlain_of_mem_levelNames`), for which
  the two ways to disregard letter case agree (`Lowercase.IsForm.eq_iff_sameButForCase`).
* A name is not taken for a number, since it starts with a letter
  (`Level.ofText?_of_sameButForCase`).
-/

namespace GrammarExport

variable {s : String} {level : Level}

/-! ### The level of a name -/

theorem Count.read_cons_of_not_digit {c : Char} (hplus : c ≠ '+') (hdigit : ¬ ('0' ≤ c ∧ c ≤ '9'))
    (rest : List Char) : Count.read (c :: rest) = .error .invalidDigit := by
  have hpush : Count.push 0 c = .error .invalidDigit := if_neg hdigit
  rw [read]
  · rw [List.foldlM_cons, hpush]
    rfl
  · simp
  · intro _ _ hc
    exact absurd (List.cons.inj hc).1 hplus

namespace Level

/-- A level is found by its name, in whatever case its ASCII letters are. -/
theorem ofName?_of_sameButForCase (h : SameButForCase s level.name) : ofName? s = some level := by
  have hupper : s.toList.map Char.toUpper = level.name.toList := by
    have hmap := congrArg (List.map Char.toUpper) h
    simp only [List.map_map, Function.comp_def, Lowercase.toUpper_toLower] at hmap
    rw [hmap]
    cases level <;> decide
  rw [ofName?, hupper]
  cases level <;> decide

/-- A name of a level starts with a letter, which comes after the digits and the plus sign. -/
theorem exists_head_of_sameButForCase (h : SameButForCase s level.name) :
    ∃ c rest, s.toList = c :: rest ∧ 65 ≤ c.toNat := by
  obtain ⟨d, ds, hname, hd⟩ : ∃ d ds, level.name.toList = d :: ds ∧ 97 ≤ d.toLower.toNat := by
    cases level <;> exact ⟨_, _, rfl, by decide⟩
  rw [SameButForCase, hname, List.map_cons] at h
  obtain ⟨c, rest, hs, hc, -⟩ := List.map_eq_cons_iff.1 h
  have hlower := Lowercase.toNat_toLower c
  rw [hc] at hlower
  refine ⟨c, rest, hs, ?_⟩
  split at hlower <;> omega

/-- A text names one level at most. -/
theorem sameButForCase_iff (h : SameButForCase s level.name) (l : Level) :
    SameButForCase s l.name ↔ l = level := by
  constructor
  · intro hl
    exact Option.some.inj ((ofName?_of_sameButForCase hl).symm.trans (ofName?_of_sameButForCase h))
  · rintro rfl
    exact h

/-- A name of a level is not taken for a number. -/
theorem ofText?_of_sameButForCase (h : SameButForCase s level.name) :
    ofText? s = some level := by
  obtain ⟨c, rest, hs, hc⟩ := exists_head_of_sameButForCase h
  have hplus : c ≠ '+' := by
    rintro rfl
    exact absurd hc (by decide)
  have hdigit : ¬ ('0' ≤ c ∧ c ≤ '9') := by
    rintro ⟨-, hnine⟩
    have hle : c.toNat ≤ 57 := hnine
    omega
  rw [ofText?, hs, Count.read_cons_of_not_digit hplus hdigit, ofName?_of_sameButForCase h]
  rfl

end Level

/-! ### Valid levels -/

namespace Settings

/-- The names of levels are made of plain letters: none of them has a `k` in it. -/
theorem isPlain_of_mem_levelNames :
    ∀ name ∈ levelNames, ∀ d ∈ name.toList, Lowercase.IsPlain d := by
  simp [levelNames, Lowercase.IsPlain]

/-- The words for levels in settings are the names of the levels. -/
theorem exists_mem_levelNames_iff :
    (∃ name ∈ levelNames, SameButForCase s name) ↔
      ∃ level : Level, SameButForCase s level.name := by
  have hlevel : ∀ name ∈ levelNames, ∃ level ∈ Level.all, SameButForCase name level.name := by
    decide +kernel
  have hname : ∀ level : Level, ∃ name ∈ levelNames, SameButForCase level.name name := by
    intro level
    cases level <;> decide +kernel
  constructor
  · rintro ⟨name, hmem, hs⟩
    obtain ⟨level, -, hsame⟩ := hlevel name hmem
    exact ⟨level, hs.trans hsame⟩
  · rintro ⟨level, hs⟩
    obtain ⟨name, hmem, hsame⟩ := hname level
    exact ⟨name, hmem, hs.trans hsame⟩

/-- Settings pass exactly if their level, in lower case, is the name of one. -/
theorem validate_eq_ok_iff {settings : Settings} :
    settings.validate = .ok () ↔ Lowercase.text settings.logging.level ∈ levelNames := by
  rw [validate, isValid]
  split <;> simp_all

/-- A level name is a lower-case form of those texts that are the same but for the case of ASCII
letters, and of no others. -/
theorem mem_levelNames_iff {t : String} (h : Lowercase.IsForm s.toList t.toList) :
    t ∈ levelNames ↔ ∃ name ∈ levelNames, SameButForCase s name := by
  constructor
  · intro ht
    exact ⟨t, ht, (h.eq_iff_sameButForCase (isPlain_of_mem_levelNames t ht)).1 rfl⟩
  · rintro ⟨name, hname, hsame⟩
    rw [(h.eq_iff_sameButForCase (isPlain_of_mem_levelNames name hname)).2 hsame]
    exact hname

/-- Settings that were loaded are valid. -/
theorem validate_of_load {files : FileTree} {env : Environment} {path : String}
    {settings : Settings} (h : (load files env path).value = .ok settings) :
    settings.validate = .ok () := by
  rw [value_load] at h
  split at h
  · cases h
  · exact validate_of_ofLayers_eq_ok h

end Settings

/-! ### Filters -/

namespace Filter

theorem verbosity_ofLevel (level : Level) : (ofLevel level).verbosity = level.verbosity := by
  simp [verbosity, ofLevel, Limit.verbosity]

theorem limitFor_ofLevel (level : Level) (target : String) :
    (ofLevel level).limitFor target = .upTo level := rfl

/-- The name of a level, in any letter case, is the filter that lets this level through. -/
theorem choose_none_of_sameButForCase (h : SameButForCase s level.name) :
    choose none s = ofLevel level := by
  rw [choose, Level.ofText?_of_sameButForCase h, Option.getD_some]

end Filter

namespace Settings

/-- **Valid levels are the levels of the log.**

* A text is a valid level if and only if it is one of the five words but for the case of ASCII
  letters; and no other text has one of these words as a lower-case form.
* Without directives, the log lets through just the events down to the level that such a text names.
* So the log of settings that were loaded has the level they name, unless the environment gives
  directives or a level. -/
theorem valid_levels_agree (s : String) :
    (∀ format, validate ⟨⟨s, format⟩⟩ = .ok () ↔
      ∃ name ∈ ["trace", "debug", "info", "warn", "error"], SameButForCase s name) ∧
    (∀ t : String, Lowercase.IsForm s.toList t.toList →
      (t ∈ ["trace", "debug", "info", "warn", "error"] ↔
        ∃ name ∈ ["trace", "debug", "info", "warn", "error"], SameButForCase s name)) ∧
    (∀ format, validate ⟨⟨s, format⟩⟩ = .ok () →
      ∃ level : Level, (∀ l : Level, SameButForCase s l.name ↔ l = level) ∧
        (Filter.choose none s).verbosity = level.verbosity ∧
        ∀ target, (Filter.choose none s).limitFor target = .upTo level) ∧
    ∀ files env path settings, (load files env path).value = .ok settings →
      settings.logging.level = s → env.get? "RUST_LOG" = none → env.get? "LOG_LEVEL" = none →
      ∃ level : Level, (∀ l : Level, SameButForCase s l.name ↔ l = level) ∧
        (Log.ofSettings settings.logging env).filter = .ofLevel level := by
  have hvalid : ∀ {settings : Settings}, settings.logging.level = s →
      (settings.validate = .ok () ↔ ∃ name ∈ levelNames, SameButForCase s name) := by
    rintro settings rfl
    rw [validate_eq_ok_iff, mem_levelNames_iff (Lowercase.isForm_text _)]
  refine ⟨fun format ↦ hvalid rfl, fun t ↦ mem_levelNames_iff, fun format h ↦ ?_,
    fun files env path settings hload hlevel hdirectives hoverride ↦ ?_⟩
  · obtain ⟨level, hsame⟩ := exists_mem_levelNames_iff.1 ((hvalid rfl).1 h)
    rw [Filter.choose_none_of_sameButForCase hsame]
    exact ⟨level, Level.sameButForCase_iff hsame, Filter.verbosity_ofLevel level,
      Filter.limitFor_ofLevel level⟩
  · obtain ⟨level, hsame⟩ :=
      exists_mem_levelNames_iff.1 ((hvalid hlevel).1 (validate_of_load hload))
    refine ⟨level, Level.sameButForCase_iff hsame, ?_⟩
    rw [Log.ofSettings, hdirectives, hoverride, Option.getD_none, hlevel]
    exact Filter.choose_none_of_sameButForCase hsame

theorem load_levelFile : (load levelFile [] "w").value = .ok ⟨⟨"info", .pretty⟩⟩ := by
  have hvalid : Settings.validate ⟨⟨"info", .pretty⟩⟩ = .ok () := if_pos (by decide +kernel)
  have hsettings : ofDocument
      (Layers.merged ⟨some ("w", levelDocument), Environment.document []⟩) =
        .ok ⟨⟨"info", .pretty⟩⟩ := rfl
  rw [value_load, layers?_levelFile]
  simp only [ofLayers, hsettings, hvalid]

/-- The case of ASCII letters does not matter, and numbers and other capitals are not valid. The
level of a file reaches the log. -/
theorem valid_levels_agree_info :
    validate ⟨⟨"InFO", .json⟩⟩ = .ok () ∧ (Filter.choose none "InFO").verbosity = 3 ∧
      validate ⟨⟨"3", .json⟩⟩ ≠ .ok () ∧ validate ⟨⟨"İnfo", .json⟩⟩ ≠ .ok () ∧
      (Log.ofSettings ⟨"info", .pretty⟩ []).filter = .ofLevel .info := by
  obtain ⟨hvalid, -, hfilter, -⟩ := valid_levels_agree "InFO"
  obtain ⟨-, -, -, hloaded⟩ := valid_levels_agree "info"
  have hok : validate ⟨⟨"InFO", .json⟩⟩ = .ok () :=
    (hvalid .json).2 ⟨"info", by decide, by decide +kernel⟩
  obtain ⟨level, hnamed, hverbosity, -⟩ := hfilter .json hok
  obtain rfl : Level.info = level := (hnamed .info).1 (by decide +kernel)
  obtain ⟨level, hnamed, hlevel⟩ := hloaded levelFile [] "w" _ load_levelFile rfl rfl rfl
  obtain rfl : Level.info = level := (hnamed .info).1 (by decide +kernel)
  refine ⟨hok, hverbosity, fun h ↦ ?_, fun h ↦ ?_, hlevel⟩
  · exact absurd (((valid_levels_agree "3").1 .json).1 h) (by decide +kernel)
  · exact absurd (((valid_levels_agree "İnfo").1 .json).1 h) (by decide +kernel)

end Settings

end GrammarExport
