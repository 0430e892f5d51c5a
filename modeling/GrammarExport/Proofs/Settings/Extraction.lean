import GrammarExport.Proofs.Settings.Ordered
import GrammarExport.Settings.Basic

/-!
# Settings taken out of a document

Only what a document has at `logging` counts, and of a map only its two settings
(`logSettingsOf_congr`): a map with both gives what the two values give
(`ofDocument_eq_ofWinners`). What is wrong with a document is told with a path that starts at
`logging`, and in a map goes on to one of the settings, unless one is missing
(`path_of_logSettingsOf_map`).
-/

namespace GrammarExport.Settings

/-- The keys of the two settings under `logging`. -/
def settingNames : List String := ["level", "format"]

theorem mem_settingNames_iff {key : String} :
    key ∈ settingNames ↔ key = "level" ∨ key = "format" := by simp [settingNames]

/-- The key `logging` is no place in a list. -/
theorem toNat?_logging : "logging".toNat? = none := by
  simp [String.toNat?, String.Slice.toNat?, String.Slice.isNat]

theorem toNat?_of_mem_settingNames {key : String} (h : key ∈ settingNames) :
    key.toNat? = none := by
  rcases mem_settingNames_iff.1 h with rfl | rfl <;>
    simp [String.toNat?, String.Slice.toNat?, String.Slice.isNat]

/-- The settings that the two values give; the format is looked at first. -/
def ofWinners (level format : Value) : Except Fault Settings := do
  let format ← formatOf ["logging", "format"] format
  let level ← levelOf ["logging", "level"] level
  return ⟨⟨level, format⟩⟩

variable {d d' v v' : Value} {f : Fault}

/-- From a map only the two settings are taken. -/
theorem logSettingsOf_congr (hv : v.isMap = true) (hv' : v'.isMap = true)
    (h : ∀ key ∈ settingNames, v'.child? key = v.child? key) (path : List String) :
    logSettingsOf path v' = logSettingsOf path v := by
  obtain ⟨entries, rfl⟩ := Value.exists_eq_map_of_isMap hv
  obtain ⟨entries', rfl⟩ := Value.exists_eq_map_of_isMap hv'
  have hlevel : Dict.find? "level" entries' = Dict.find? "level" entries := h _ (by decide)
  have hformat : Dict.find? "format" entries' = Dict.find? "format" entries := h _ (by decide)
  rw [logSettingsOf, logSettingsOf, hlevel, hformat]

/-- Of a document with something at `logging`, only that counts. -/
theorem ofDocument_eq (h : d.child? "logging" = some v) :
    ofDocument d = (logSettingsOf ["logging"] v).map Settings.mk := by rw [ofDocument, h]

/-- What is wrong with a document is wrong with what it has at `logging`. -/
theorem ofDocument_eq_error_iff : ofDocument d = .error f ↔
    ∃ v, d.child? "logging" = some v ∧ logSettingsOf ["logging"] v = .error f := by
  rcases hv : d.child? "logging" with - | v
  · simp [ofDocument, hv]
  · rw [ofDocument_eq hv]
    rcases hlog : logSettingsOf ["logging"] v with e | s <;> simp [Except.map, hlog]

/-- The settings of a document with a map at `logging` that has both. -/
theorem ofDocument_eq_ofWinners {level format : Value} (hd : d.child? "logging" = some v)
    (hv : v.isMap = true) (hlevel : v.child? "level" = some level)
    (hformat : v.child? "format" = some format) : ofDocument d = ofWinners level format := by
  obtain ⟨entries, rfl⟩ := Value.exists_eq_map_of_isMap hv
  have hlevel : Dict.find? "level" entries = some level := hlevel
  have hformat : Dict.find? "format" entries = some format := hformat
  rw [ofDocument_eq hd, logSettingsOf, hlevel, hformat, ofWinners]
  simp only [Option.mapM_some, List.cons_append, List.nil_append]
  rcases formatOf ["logging", "format"] format with e | format
  · rfl
  · rcases levelOf ["logging", "level"] level with e | level <;> rfl

/-- What is wrong with a level is told with the place of the level. -/
theorem path_of_levelOf {path : List String} (h : levelOf path v = .error f) : f.path = path := by
  cases v with
  | text s => cases h
  | char c => cases h
  | _ => cases h; rfl

/-- What is wrong with a format is told with the place of the format, or with one inside it. -/
theorem path_of_formatOf {path : List String} (h : formatOf path v = .error f) :
    ∃ rest, f.path = path ++ rest := by
  unfold formatOf at h
  split at h
  · split at h
    · cases h
    · cases h; exact ⟨[], (List.append_nil _).symm⟩
  · cases h; exact ⟨[], (List.append_nil _).symm⟩
  · split at h
    · cases h; exact ⟨_, rfl⟩
    · cases h
    · cases h; exact ⟨_, rfl⟩
  · cases h; exact ⟨[], (List.append_nil _).symm⟩

/-- Of two steps the first one that fails gives the error. -/
theorem bind_eq_error_iff {α β : Type} {x : Except Fault α} {g : α → Except Fault β} :
    (x >>= g) = .error f ↔ x = .error f ∨ ∃ a, x = .ok a ∧ g a = .error f := by
  cases x <;> simp [bind, Except.bind]

/-- Only a value that is there can be wrong. -/
theorem mapM_eq_error_iff {α : Type} {o : Option Value} {g : Value → Except Fault α} :
    o.mapM g = .error f ↔ ∃ v, o = some v ∧ g v = .error f := by
  cases o with
  | none => simp [pure, Except.pure]
  | some v => rcases hv : g v with e | a <;> simp [hv, Functor.map, Except.map]

theorem eq_none_of_mapM_eq_ok {α : Type} {o : Option Value} {g : Value → Except Fault α}
    (h : o.mapM g = .ok none) : o = none := by
  cases o with
  | none => rfl
  | some v => rcases hv : g v with e | a <;> simp [hv, Functor.map, Except.map] at h

/-- What is wrong with a map is that it lacks a setting, or lies at a setting. -/
theorem path_of_logSettingsOf_map {path : List String} (hv : v.isMap = true)
    (h : logSettingsOf path v = .error f) :
    (f.path = path ∧ ∃ key ∈ settingNames, v.child? key = none) ∨
      ∃ key ∈ settingNames, ∃ rest, f.path = path ++ key :: rest := by
  obtain ⟨entries, rfl⟩ := Value.exists_eq_map_of_isMap hv
  rw [logSettingsOf] at h
  rcases bind_eq_error_iff.1 h with h | ⟨format, hformat, h⟩
  · obtain ⟨u, -, hu⟩ := mapM_eq_error_iff.1 h
    obtain ⟨rest, hrest⟩ := path_of_formatOf hu
    exact .inr ⟨"format", by decide, rest, by rw [hrest, List.append_assoc]; rfl⟩
  rcases bind_eq_error_iff.1 h with h | ⟨level, hlevel, h⟩
  · obtain ⟨u, -, hu⟩ := mapM_eq_error_iff.1 h
    exact .inr ⟨"level", by decide, [], path_of_levelOf hu⟩
  split at h
  · cases h
    exact .inl ⟨rfl, "level", by decide, eq_none_of_mapM_eq_ok hlevel⟩
  · cases h
    exact .inl ⟨rfl, "format", by decide, eq_none_of_mapM_eq_ok hformat⟩
  · cases h

theorem path_of_logSettingsOf {path : List String} (h : logSettingsOf path v = .error f) :
    ∃ rest, f.path = path ++ rest := by
  cases v with
  | map entries =>
    rcases path_of_logSettingsOf_map rfl h with ⟨hpath, -⟩ | ⟨key, -, rest, hpath⟩
    · exact ⟨[], by rw [hpath, List.append_nil]⟩
    · exact ⟨key :: rest, hpath⟩
  | list items =>
    simp only [logSettingsOf] at h
    split at h
    · cases h; exact ⟨[], (List.append_nil _).symm⟩
    rcases bind_eq_error_iff.1 h with h | ⟨level, -, h⟩
    · exact ⟨["0"], path_of_levelOf h⟩
    split at h
    · cases h; exact ⟨[], (List.append_nil _).symm⟩
    rcases bind_eq_error_iff.1 h with h | ⟨format, -, h⟩
    · obtain ⟨rest, hrest⟩ := path_of_formatOf h
      exact ⟨"1" :: rest, by rw [hrest, List.append_assoc]; rfl⟩
    · cases h
  | _ => cases h; exact ⟨[], (List.append_nil _).symm⟩

/-- Whatever is wrong with a document is told with a path that starts at `logging`. -/
theorem path_of_ofDocument (h : ofDocument d = .error f) : ∃ rest, f.path = "logging" :: rest := by
  obtain ⟨v, -, hv⟩ := ofDocument_eq_error_iff.1 h
  exact path_of_logSettingsOf hv

end GrammarExport.Settings
