import GrammarExport.Proofs.Settings.Extraction
import GrammarExport.Proofs.Settings.Keys
import GrammarExport.Proofs.Toml.Ordered
import GrammarExport.Settings.Load

/-!
# Layers of settings

Settings are taken out of three documents laid over one another. What comes out can be said
without merging anything: each of the two settings is taken, on its own, from the topmost layer
that has it (`Layers.winner?`), and the two values decide the rest (`ofWinners`). No other key of
any layer counts. `load_eq_of_winners` states this for whole loads.

Both layers above the defaults are ordered maps (`areDocuments_of_layers?`), so the proof can look
at one key at a time: at `logging` in the three documents (`Layers.child?_merged`), and then at
`level` and `format` in what they have there (`Layers.child?_setting_merged`). A key beside these
is added to a layer without a change at either (`Layers.Adds.at?_eq`, `Layers.Adds.sameSettings`).
-/

namespace GrammarExport.Settings

/-! ### Layers -/

namespace Layers

open Value (layOver IsOpen)

variable {l l' : Layers}

/-- The documents above the defaults. -/
def documents (l : Layers) : List Value := l.environment :: (l.file.map Prod.snd).toList

/-- The value of a key of `logging` in the topmost layer that has it: the environment, or else the
file, or else the defaults. -/
def winner? (l : Layers) (key : String) : Option Value :=
  (l.environment.at? ["logging", key]).or
    ((l.file.bind (·.2.at? ["logging", key])).or
      (({} : Settings).toDocument.at? ["logging", key]))

/-- Layers in which no two maps meet at `level` or `format`, nor anything but maps at `logging`.
Below the file are the defaults, which have texts at both settings, so what the file has there may
be anything. -/
structure Plain (l : Layers) : Prop where
  logging : ∀ d ∈ l.documents, IsOpen (d.child? "logging")
  settings : ∀ key ∈ settingNames, ∀ v, l.environment.at? ["logging", key] = some v →
    v.isMap = false

/-- Adding a value at a path of keys to one of the layers. A file that is not there counts as
empty. -/
inductive Adds (path : List String) (v : Value) : Layers → Layers → Prop where
  | environment (file : Option (String × Value)) (d : Value) :
      Adds path v ⟨file, d⟩ ⟨file, d.putAt path v⟩
  | file (name : String) (d e : Value) :
      Adds path v ⟨some (name, d), e⟩ ⟨some (name, d.putAt path v), e⟩
  | newFile (name : String) (e : Value) :
      Adds path v ⟨none, e⟩ ⟨some (name, (Value.map []).putAt path v), e⟩

/-- Keys that do not count: those outside `logging`, and, if what is merged at `logging` is a map,
those of it that are no settings. -/
inductive Ignores (l : Layers) : (path : List String) → Prop where
  | outside {key : String} (h : key ≠ "logging") : Ignores l [key]
  | within {key : String} (h : key ∉ settingNames)
      (hmap : ∃ v, l.merged.child? "logging" = some v ∧ v.isMap = true) :
      Ignores l ["logging", key]

/-- What the file has at a path, with its name. -/
def fileAt? (l : Layers) (path : List String) : Option (String × Value) :=
  l.file.bind fun f ↦ (f.2.at? path).map (f.1, ·)

/-- Where a value comes from depends on what the layers have at its path. -/
theorem origin_congr {path : List String} (hfile : l'.fileAt? path = l.fileAt? path)
    (henv : l'.environment.at? path = l.environment.at? path) : l'.origin path = l.origin path := by
  have horigin : ∀ l : Layers, l.origin path =
      if (l.environment.at? path).isSome then .environment
      else match l.fileAt? path with
        | some f => .file f.1
        | none => .defaults := by
    intro ⟨file, environment⟩
    cases file with
    | none => rfl
    | some f => rcases hf : f.2.at? path with - | v <;> simp [origin, fileAt?, hf]
  rw [horigin, horigin, hfile, henv]

/-- What the file has at `logging`. -/
def fileLogging (l : Layers) : Option Value := l.file.bind fun f ↦ f.2.child? "logging"

theorem fileLogging_eq (l : Layers) : l.fileLogging = (l.fileAt? ["logging"]).map Prod.snd := by
  obtain ⟨_ | f, environment⟩ := l
  · rfl
  · simp [fileLogging, fileAt?, Value.at?_singleton, Function.comp_def]

/-- What the defaults have at `logging`. -/
def defaultLogging : Value := .map [("format", .text "pretty"), ("level", .text "warn")]

theorem isOpen_defaultLogging : IsOpen (some defaultLogging) := Value.isOpen_some_iff.2 rfl

/-- Ordered maps in both layers. -/
def AreDocuments (l : Layers) : Prop := ∀ d ∈ l.documents, d.IsDocument

theorem AreDocuments.environment (h : l.AreDocuments) : l.environment.IsDocument :=
  h _ List.mem_cons_self

theorem AreDocuments.file (h : l.AreDocuments) {f : String × Value} (hf : l.file = some f) :
    f.2.IsDocument :=
  h _ (List.mem_cons_of_mem _ (by simp [hf]))

theorem AreDocuments.ordered_fileLogging (h : l.AreDocuments) {v : Value}
    (hv : l.fileLogging = some v) : v.Ordered := by
  obtain ⟨f, hf, hchild⟩ := Option.bind_eq_some_iff.1 hv
  exact (h.file hf).ordered_child? hchild

/-- What both layers have at `logging` is laid over the defaults. -/
theorem child?_merged (h : l.AreDocuments) :
    l.merged.child? "logging" =
      layOver (layOver (some defaultLogging) l.fileLogging) (l.environment.child? "logging") := by
  have hmerged : some l.merged =
      layOver (layOver (some ({} : Settings).toDocument) (l.file.map Prod.snd))
        (some l.environment) := by
    obtain ⟨_ | f, environment⟩ := l <;> rfl
  have hfile : ∀ v, l.file.map Prod.snd = some v → v.IsDocument := by
    intro v hv
    obtain ⟨f, hf, rfl⟩ := Option.map_eq_some_iff.1 hv
    exact h.file hf
  have hbind : l.merged.child? "logging" = (some l.merged).bind (·.child? "logging") := rfl
  rw [hbind, hmerged, Value.child?_layOver toNat?_logging (by simpa using h.environment),
    Value.child?_layOver toNat?_logging hfile, Option.bind_map]
  rfl

theorem exists_child?_merged (h : l.AreDocuments) : ∃ v, l.merged.child? "logging" = some v := by
  rw [← Option.ne_none_iff_exists', child?_merged h]
  intro hnone
  cases (Value.layOver_eq_none_iff.1 (Value.layOver_eq_none_iff.1 hnone).1).1

theorem child?_defaultLogging {key : String} (h : key ∈ settingNames) :
    ∃ v, defaultLogging.child? key = some v ∧ v.isMap = false := by
  rcases mem_settingNames_iff.1 h with rfl | rfl
  · exact ⟨.text "warn", rfl, rfl⟩
  · exact ⟨.text "pretty", rfl, rfl⟩

/-- A setting of what is merged, where everything at `logging` is a map. -/
theorem child?_setting_merged (h : l.AreDocuments) (hfile : IsOpen l.fileLogging)
    (henv : IsOpen (l.environment.child? "logging")) {key : String} (hkey : key ∈ settingNames) :
    (l.merged.child? "logging").bind (·.child? key) =
      layOver (layOver (defaultLogging.child? key) (l.fileLogging.bind (·.child? key)))
        (l.environment.at? ["logging", key]) := by
  have htoNat := toNat?_of_mem_settingNames hkey
  rw [child?_merged h,
    Value.child?_layOver htoNat fun v hv ↦ ⟨h.environment.ordered_child? hv, henv v hv⟩,
    Value.child?_layOver htoNat fun v hv ↦ ⟨h.ordered_fileLogging hv, hfile v hv⟩,
    Value.at?_pair]
  rfl

/-- The winner of a key, by what each layer has at `logging`. -/
theorem winner?_eq (l : Layers) (key : String) :
    l.winner? key = (l.environment.at? ["logging", key]).or
      ((l.fileLogging.bind (·.child? key)).or (defaultLogging.child? key)) := by
  have hdefault : ({} : Settings).toDocument.at? ["logging", key] = defaultLogging.child? key :=
    Value.at?_pair _ _ _
  rw [winner?, hdefault, fileLogging, Option.bind_assoc]
  simp only [Value.at?_pair]

/-- Each setting has a winner, since the defaults have both. -/
theorem exists_winner? (l : Layers) {key : String} (hkey : key ∈ settingNames) :
    ∃ v, l.winner? key = some v := by
  obtain ⟨v, hv, -⟩ := child?_defaultLogging hkey
  rw [← Option.ne_none_iff_exists', winner?_eq, hv]
  simp

namespace Plain

/-- In plain layers, the file has a map at `logging` or nothing. -/
theorem isOpen_fileLogging (h : l.Plain) : IsOpen l.fileLogging := by
  intro v hv
  obtain ⟨f, hf, hchild⟩ := Option.bind_eq_some_iff.1 hv
  exact h.logging f.2 (List.mem_cons_of_mem _ (by simp [hf])) v hchild

theorem isOpen_environment (h : l.Plain) : IsOpen (l.environment.child? "logging") :=
  h.logging _ List.mem_cons_self

/-- What is merged at a setting is the topmost value. -/
theorem child?_setting_merged (h : l.Plain) (hdoc : l.AreDocuments) {key : String}
    (hkey : key ∈ settingNames) :
    (l.merged.child? "logging").bind (·.child? key) = l.winner? key := by
  obtain ⟨v, hv, hmap⟩ := child?_defaultLogging hkey
  rw [Layers.child?_setting_merged hdoc h.isOpen_fileLogging h.isOpen_environment hkey,
    Value.layOver_eq_or (.inr (h.settings key hkey)),
    Value.layOver_eq_or (.inl (by simpa [hv] using hmap)), winner?_eq]

/-- A map is merged at `logging`, and it has the topmost values at both settings. -/
theorem exists_child?_merged (h : l.Plain) (hdoc : l.AreDocuments) :
    ∃ v, l.merged.child? "logging" = some v ∧ v.isMap = true ∧
      ∀ key ∈ settingNames, v.child? key = l.winner? key := by
  obtain ⟨v, hv⟩ := Layers.exists_child?_merged hdoc
  have hopen : IsOpen (l.merged.child? "logging") := by
    rw [child?_merged hdoc, Value.isOpen_layOver_iff
      ((Value.isOpen_layOver_iff isOpen_defaultLogging).2 h.isOpen_fileLogging)]
    exact h.isOpen_environment
  refine ⟨v, hv, hopen v hv, fun key hkey ↦ ?_⟩
  rw [← h.child?_setting_merged hdoc hkey, hv, Option.bind_some]

end Plain

end Layers

/-! ### What does not count -/

open Value (layOver IsOpen)

/-- Two values at `logging`, of which the second may have more keys, but not more settings. -/
structure SameSettings (v v' : Option Value) : Prop where
  isOpen_iff : IsOpen v' ↔ IsOpen v
  eq_none : v' = none → v = none
  child?_eq : ∀ key ∈ settingNames, v'.bind (·.child? key) = v.bind (·.child? key)

namespace SameSettings

variable {base base' top top' : Option Value}

theorem refl (v : Option Value) : SameSettings v v := ⟨.rfl, id, fun _ _ ↦ rfl⟩

/-- Adding a key beside the settings leaves the settings as they are. -/
theorem putAt {d v : Value} {key : String} (hd : d.isMap = true) (hkey : key ∉ settingNames) :
    SameSettings (d.child? "logging") ((d.putAt ["logging", key] v).child? "logging") := by
  have hput : (d.putAt ["logging", key] v).child? "logging" =
      some (((d.child? "logging").getD (.map [])).put key v) := Value.child?_put_self hd _ _
  rw [hput]
  refine ⟨?_, by simp, fun k hk ↦ ?_⟩
  · rw [Value.isOpen_some_iff, Value.isMap_put]
    rcases d.child? "logging" with - | u
    · exact iff_of_true rfl Value.isOpen_none
    · exact Value.isOpen_some_iff.symm
  · have hne : k ≠ key := fun h ↦ hkey (h ▸ hk)
    rw [Option.bind_some, Value.child?_put_of_ne hne]
    rcases d.child? "logging" with - | u <;> rfl

/-- Laid over values with the same settings they have the same settings, where what comes out is
a map. -/
theorem child?_layOver (hbase : SameSettings base base') (htop : SameSettings top top')
    (hordered : ∀ v, top = some v → v.Ordered) (hordered' : ∀ v, top' = some v → v.Ordered)
    (hopen : IsOpen (layOver base top)) :
    IsOpen (layOver base' top') ∧ ∀ key ∈ settingNames,
      (layOver base' top').bind (·.child? key) = (layOver base top).bind (·.child? key) := by
  have htopOpen : IsOpen top := by
    cases top with
    | none => exact Value.isOpen_none
    | some v => exact Value.isOpen_some_iff.2 (Value.isOpen_layOver_some_iff.1 hopen)
  have htopOpen' : IsOpen top' := htop.isOpen_iff.2 htopOpen
  constructor
  · cases top' with
    | none =>
      rw [htop.eq_none rfl] at hopen
      exact hbase.isOpen_iff.2 hopen
    | some v => exact Value.isOpen_layOver_some_iff.2 (htopOpen' v rfl)
  · intro key hkey
    have htoNat := toNat?_of_mem_settingNames hkey
    rw [Value.child?_layOver htoNat fun v hv ↦ ⟨hordered v hv, htopOpen v hv⟩,
      Value.child?_layOver htoNat fun v hv ↦ ⟨hordered' v hv, htopOpen' v hv⟩,
      hbase.child?_eq key hkey, htop.child?_eq key hkey]

/-- Laid over the defaults they have the same settings in any case. -/
theorem layOver_defaultLogging (htop : SameSettings top top')
    (hordered : ∀ v, top = some v → v.Ordered) (hordered' : ∀ v, top' = some v → v.Ordered) :
    SameSettings (layOver (some Layers.defaultLogging) top)
      (layOver (some Layers.defaultLogging) top') := by
  have hdefault := Layers.isOpen_defaultLogging
  refine ⟨?_, fun h ↦ ?_, ?_⟩
  · rw [Value.isOpen_layOver_iff hdefault, Value.isOpen_layOver_iff hdefault, htop.isOpen_iff]
  · exact absurd (Value.layOver_eq_none_iff.1 h).1 (by simp)
  · by_cases hopen : IsOpen top
    · exact (child?_layOver (refl _) htop hordered hordered'
        ((Value.isOpen_layOver_iff hdefault).2 hopen)).2
    · rw [Value.layOver_of_not_isOpen hopen,
        Value.layOver_of_not_isOpen fun h ↦ hopen (htop.isOpen_iff.1 h)]
      exact htop.child?_eq

end SameSettings

namespace Layers

variable {l l' : Layers}

/-- Adding something changes nothing where a path turns off the way there. -/
theorem Adds.at?_eq {key k : String} {way path : List String} {v : Value}
    (h : Adds (way ++ key :: path) v l l') (hne : k ≠ key) (rest : List String) :
    l'.fileAt? (way ++ k :: rest) = l.fileAt? (way ++ k :: rest) ∧
      l'.environment.at? (way ++ k :: rest) = l.environment.at? (way ++ k :: rest) := by
  cases h with
  | environment file d => exact ⟨rfl, Value.at?_putAt hne way path rest v d⟩
  | file name d e =>
    refine ⟨?_, rfl⟩
    simp only [fileAt?, Option.bind_some, Value.at?_putAt hne]
  | newFile name e =>
    refine ⟨?_, rfl⟩
    simp only [fileAt?, Option.bind_some, Value.at?_putAt hne]
    cases way <;> rfl

theorem Adds.sameSettings {key : String} {v : Value} (h : Adds ["logging", key] v l l')
    (hdoc : l.AreDocuments) (hkey : key ∉ settingNames) :
    SameSettings l.fileLogging l'.fileLogging ∧
      SameSettings (l.environment.child? "logging") (l'.environment.child? "logging") := by
  cases h with
  | environment file d => exact ⟨.refl _, .putAt hdoc.environment.isMap hkey⟩
  | file name d e => exact ⟨.putAt (hdoc.file rfl).isMap hkey, .refl _⟩
  | newFile name e =>
    have hempty : (Value.map []).isMap = true := rfl
    exact ⟨.putAt hempty hkey, .refl _⟩

/-- Where a map that is merged lacks a setting, the environment has put it there. -/
theorem isSome_environment_of_child?_eq_none (hdoc : l.AreDocuments) {v : Value}
    (hv : l.merged.child? "logging" = some v) (hmap : v.isMap = true) {key : String}
    (hkey : key ∈ settingNames) (hnone : v.child? key = none) :
    (l.environment.child? "logging").isSome := by
  rcases henv : l.environment.child? "logging" with - | u
  · have hfile : IsOpen l.fileLogging := by
      rw [child?_merged hdoc, henv] at hv
      exact (Value.isOpen_layOver_iff isOpen_defaultLogging).1
        (hv ▸ Value.isOpen_some_iff.2 hmap)
    have hsetting := child?_setting_merged hdoc hfile (henv ▸ Value.isOpen_none) hkey
    rw [hv, Option.bind_some, hnone] at hsetting
    obtain ⟨w, hw, -⟩ := child?_defaultLogging hkey
    have hbelow := (Value.layOver_eq_none_iff.1 (Value.layOver_eq_none_iff.1 hsetting.symm).1).1
    rw [hw] at hbelow
    cases hbelow
  · rfl

/-- What the layers give depends on the settings taken out of them, and on where faults lie. -/
theorem ofLayers_congr (hdocument : ofDocument l'.merged = ofDocument l.merged)
    (horigin : ∀ f, ofDocument l.merged = .error f → l'.origin f.path = l.origin f.path) :
    ofLayers l' = ofLayers l := by
  rw [ofLayers, ofLayers, hdocument]
  rcases hf : ofDocument l.merged with f | s
  · show Except.error (LoadError.fault f (l'.origin f.path)) = _
    rw [horigin f hf]
  · rfl

/-- A key beside `logging` does not matter. -/
theorem Adds.ofLayers_eq_of_outside {key : String} {v : Value} (h : Adds [key] v l l')
    (hdoc : l.AreDocuments) (hdoc' : l'.AreDocuments) (hkey : key ≠ "logging") :
    ofLayers l' = ofLayers l := by
  have hroot : Adds ([] ++ [key]) v l l' := h
  have hat : ∀ rest, l'.fileAt? ("logging" :: rest) = l.fileAt? ("logging" :: rest) ∧
      l'.environment.at? ("logging" :: rest) = l.environment.at? ("logging" :: rest) :=
    hroot.at?_eq hkey.symm
  have hfile : l'.fileLogging = l.fileLogging := by
    rw [fileLogging_eq, fileLogging_eq, (hat []).1]
  have henv : l'.environment.child? "logging" = l.environment.child? "logging" := by
    rw [← Value.at?_singleton, ← Value.at?_singleton, (hat []).2]
  refine ofLayers_congr ?_ fun f hf ↦ ?_
  · rw [ofDocument, ofDocument, child?_merged hdoc', child?_merged hdoc, hfile, henv]
  · obtain ⟨rest, hrest⟩ := path_of_ofDocument hf
    rw [hrest]
    exact origin_congr (hat rest).1 (hat rest).2

/-- A key beside the settings does not matter where what is merged at `logging` is a map. -/
theorem Adds.ofLayers_eq_of_within {key : String} {v u : Value}
    (h : Adds ["logging", key] v l l') (hdoc : l.AreDocuments) (hdoc' : l'.AreDocuments)
    (hkey : key ∉ settingNames) (hu : l.merged.child? "logging" = some u)
    (hmap : u.isMap = true) : ofLayers l' = ofLayers l := by
  obtain ⟨hfile, henv⟩ := h.sameSettings hdoc hkey
  have hbelow := hfile.layOver_defaultLogging (fun _ ↦ hdoc.ordered_fileLogging)
    fun _ ↦ hdoc'.ordered_fileLogging
  have hmerged := hbelow.child?_layOver henv (fun _ ↦ hdoc.environment.ordered_child?)
    fun _ ↦ hdoc'.environment.ordered_child?
  rw [← child?_merged hdoc, ← child?_merged hdoc', hu] at hmerged
  obtain ⟨hopen', hchild⟩ := hmerged (Value.isOpen_some_iff.2 hmap)
  obtain ⟨u', hu'⟩ := exists_child?_merged hdoc'
  rw [hu'] at hopen' hchild
  have hsettings : logSettingsOf ["logging"] u' = logSettingsOf ["logging"] u :=
    logSettingsOf_congr hmap (Value.isOpen_some_iff.1 hopen') hchild _
  refine ofLayers_congr (by rw [ofDocument_eq hu, ofDocument_eq hu', hsettings]) fun f hf ↦ ?_
  obtain ⟨w, hw, hfault⟩ := ofDocument_eq_error_iff.1 hf
  obtain rfl := Option.some.inj (hu.symm.trans hw)
  rcases path_of_logSettingsOf_map hmap hfault with ⟨hpath, k, hk, hnone⟩ | ⟨k, hk, rest, hpath⟩
  · -- A setting can only be missing if the environment has something at `logging`.
    have hsome := isSome_environment_of_child?_eq_none hdoc hu hmap hk hnone
    have hsome' := isSome_environment_of_child?_eq_none hdoc' hu' (Value.isOpen_some_iff.1 hopen')
      hk ((hchild k hk).trans hnone)
    rw [hpath, origin, origin, Value.at?_singleton, Value.at?_singleton, if_pos hsome,
      if_pos hsome']
  · have hne : k ≠ key := fun h ↦ hkey (h ▸ hk)
    have hadds : Adds (["logging"] ++ [key]) v l l' := h
    rw [hpath]
    exact origin_congr (hadds.at?_eq hne rest).1 (hadds.at?_eq hne rest).2

end Layers

/-! ### Loading -/

/-- What is loaded depends on the layers alone. -/
theorem value_load (files : FileTree) (env : Environment) (path : String) :
    (load files env path).value =
      match layers? files env path with
      | none => .error .unreadable
      | some l => ofLayers l := by
  rw [load, Logged.value_bind]
  rcases layers? files env path with - | l <;> rfl

/-- Both layers of a load are ordered maps. -/
theorem areDocuments_of_layers? {files : FileTree} {env : Environment} {path : String} {l : Layers}
    (h : layers? files env path = some l) : l.AreDocuments := by
  rw [layers?] at h
  split at h
  · cases h
    simpa [Layers.AreDocuments, Layers.documents] using env.isDocument_document
  · obtain ⟨d, hd, rfl⟩ := Option.map_eq_some_iff.1 h
    simpa [Layers.AreDocuments, Layers.documents] using
      ⟨env.isDocument_document, Toml.isDocument_of_read? hd⟩

theorem validate_of_ofLayers_eq_ok {l : Layers} {s : Settings} (h : ofLayers l = .ok s) :
    s.validate = .ok () := by
  rw [ofLayers] at h
  split at h
  · cases h
  · split at h
    · cases h
    · rename_i hvalid
      cases h
      exact hvalid

/-- Layers give invalid settings exactly if what is taken out of them does not pass. -/
theorem ofLayers_eq_invalid_iff {l : Layers} {message : String} :
    ofLayers l = .error (.invalid message) ↔
      ∃ s, ofDocument l.merged = .ok s ∧ s.validate = .error message := by
  rw [ofLayers]
  rcases ofDocument l.merged with f | t
  · simp
  · rcases ht : t.validate with message | _ <;> simp [ht]

/-- Taking the settings out of layers is taking them out of the two topmost values. -/
theorem Layers.Plain.ofLayers_eq {l : Layers} (h : l.Plain) (hdoc : l.AreDocuments)
    {level format : Value} (hlevel : l.winner? "level" = some level)
    (hformat : l.winner? "format" = some format) :
    ofLayers l =
      match ofWinners level format with
      | .error f => .error (.fault f (l.origin f.path))
      | .ok s =>
        match s.validate with
        | .error message => .error (.invalid message)
        | .ok () => .ok s := by
  obtain ⟨v, hv, hmap, hchild⟩ := h.exists_child?_merged hdoc
  have hdocument : ofDocument l.merged = ofWinners level format :=
    ofDocument_eq_ofWinners hv hmap ((hchild _ (by decide)).trans hlevel)
      ((hchild _ (by decide)).trans hformat)
  rcases hwinners : ofWinners level format with f | s
  · simp [ofLayers, hdocument, hwinners]
  · rcases hvalid : s.validate with message | _ <;>
      simp [ofLayers, hdocument, hwinners, hvalid]

/-- Where a fault lies does not matter to whether there are settings, and which. -/
theorem Layers.Plain.toOption_ofLayers_eq {l l' : Layers} (h : l.Plain) (hdoc : l.AreDocuments)
    (h' : l'.Plain) (hdoc' : l'.AreDocuments) {level format : Value}
    (hlevel : l.winner? "level" = some level) (hlevel' : l'.winner? "level" = some level)
    (hformat : l.winner? "format" = some format) (hformat' : l'.winner? "format" = some format) :
    (ofLayers l').toOption = (ofLayers l).toOption := by
  rw [h.ofLayers_eq hdoc hlevel hformat, h'.ofLayers_eq hdoc' hlevel' hformat']
  rcases ofWinners level format with f | s <;> rfl

/-- Adding a key that does not count leaves the settings as they are. -/
theorem Layers.Adds.ofLayers_eq {l l' : Layers} {keys : List String} {v : Value}
    (h : Layers.Adds keys v l l') (hdoc : l.AreDocuments) (hdoc' : l'.AreDocuments)
    (hkeys : l.Ignores keys) : ofLayers l' = ofLayers l := by
  cases hkeys with
  | outside hkey => exact h.ofLayers_eq_of_outside hdoc hdoc' hkey
  | within hkey hmap =>
    obtain ⟨u, hu, hmap⟩ := hmap
    exact h.ofLayers_eq_of_within hdoc hdoc' hkey hu hmap

/-- A variable that comes last adds something at its first key. -/
theorem Layers.Adds.variable {name key : String} {rest : List String}
    (hpath : Variable.path? name = some (key :: rest)) (text : String)
    (file : Option (String × Value)) (env : Environment) :
    ∃ v, Layers.Adds [key] v ⟨file, env.document⟩
      ⟨file, Environment.document (env ++ [(name, text)])⟩ := by
  obtain ⟨entries, hentries⟩ := Value.exists_eq_map_of_isMap env.isDocument_document.isMap
  have hdocument : Environment.document (env ++ [(name, text)]) =
      env.document.merge (Value.nested (key :: rest) (Variable.valueOf text)) := by
    rw [env.document_concat, hpath]
  obtain ⟨v, hv⟩ : ∃ v, Environment.document (env ++ [(name, text)]) =
      env.document.putAt [key] v := by
    rw [hdocument, hentries, Value.nested, Value.merge_map_map, Value.mergeEntries,
      Value.mergeEntries]
    exact ⟨_, rfl⟩
  exact ⟨v, hv ▸ .environment file _⟩

/-- **Each setting is taken from the topmost layer that has it.** Let the file, if there is one, be
a document, and the layers plain.

* The two settings are the values that the environment has for them, or else the file, or else the
  defaults, each on its own; a fault is told with the layer it comes from.
* Whether there are settings, and which, depends on these two values only.
* Keys that do not count may be added to a layer, and the outcome stays the same. This holds of
  layers that are not plain, too.

Whatever the layers are, settings that are loaded are valid, and they are called invalid exactly if
the layers give settings that do not pass. -/
theorem load_eq_of_winners (files : FileTree) (env : Environment) (path : String) :
    (∀ l, layers? files env path = some l →
      (l.Plain → ∃ level format,
        l.winner? "level" = some level ∧ l.winner? "format" = some format ∧
        (load files env path).value =
          (match ofWinners level format with
          | .error f => .error (.fault f (l.origin f.path))
          | .ok s =>
            match s.validate with
            | .error message => .error (.invalid message)
            | .ok () => .ok s) ∧
        ∀ files' env' path' l', layers? files' env' path' = some l' → l'.Plain →
          l'.winner? "level" = some level → l'.winner? "format" = some format →
          (load files' env' path').value.toOption = (load files env path).value.toOption) ∧
      ∀ files' env' path' l' keys v, layers? files' env' path' = some l' →
        Layers.Adds keys v l l' → l.Ignores keys →
        (load files' env' path').value = (load files env path).value) ∧
    (∀ s, (load files env path).value = .ok s → s.validate = .ok ()) ∧
    ∀ message, (load files env path).value = .error (.invalid message) ↔
      ∃ l s, layers? files env path = some l ∧ ofDocument l.merged = .ok s ∧
        s.validate = .error message := by
  refine ⟨fun l hl ↦ ⟨fun hplain ↦ ?_, ?_⟩, fun s hs ↦ ?_, fun message ↦ ?_⟩
  · have hdoc := areDocuments_of_layers? hl
    obtain ⟨level, hlevel⟩ := Layers.exists_winner? l (by decide : "level" ∈ settingNames)
    obtain ⟨format, hformat⟩ := Layers.exists_winner? l (by decide : "format" ∈ settingNames)
    refine ⟨level, format, hlevel, hformat, ?_, ?_⟩
    · rw [value_load, hl]
      exact hplain.ofLayers_eq hdoc hlevel hformat
    · intro files' env' path' l' hl' hplain' hlevel' hformat'
      rw [value_load, hl', value_load, hl]
      exact hplain.toOption_ofLayers_eq hdoc hplain' (areDocuments_of_layers? hl') hlevel hlevel'
        hformat hformat'
  · intro files' env' path' l' keys v hl' hadds hkeys
    rw [value_load, hl', value_load, hl]
    exact hadds.ofLayers_eq (areDocuments_of_layers? hl) (areDocuments_of_layers? hl') hkeys
  · rw [value_load] at hs
    split at hs
    · cases hs
    · exact validate_of_ofLayers_eq_ok hs
  · rw [value_load]
    rcases layers? files env path with - | l
    · simp
    · simpa using ofLayers_eq_invalid_iff

/-- Whether a document gives a text to one setting and says nothing else. -/
def Value.gives (key text : String) : Value → Bool
  | .map [(top, .map [(k, .text t)])] => top = "logging" && k = key && t = text
  | _ => false

/-- There is one document that gives a text to a setting and says nothing else. -/
theorem Value.eq_of_gives {d : Value} {key text : String} (h : d.gives key text = true) :
    d = .map [("logging", .map [(key, .text text)])] := by
  unfold gives at h
  split at h
  · rw [Bool.and_eq_true, Bool.and_eq_true, decide_eq_true_iff, decide_eq_true_iff,
      decide_eq_true_iff] at h
    obtain ⟨⟨rfl, rfl⟩, rfl⟩ := h
    rfl
  · cases h

/-- What the file `levelFile` says. -/
def levelDocument : Value := .map [("logging", .map [("level", .text "info")])]

/-- A file `w` in the root directory that gives a level. -/
def levelFile : FileTree := ⟨[(["w"], "logging.level = 'info'")], [], []⟩

/-- A variable that gives a format. -/
def formatVariable : String × String := ("TREE_SITTER_W_LOGGING__FORMAT", "json")

theorem layers?_levelFile (env : Environment) :
    layers? levelFile env "w" = some ⟨some ("w", levelDocument), env.document⟩ := by
  have hsplit : "w".splitOn "/" = ["w"] := by
    rw [String.splitOn, if_neg (by decide), String.splitOnAux.eq_def, if_neg (by decide),
      if_neg (by decide), String.splitOnAux.eq_def, if_pos (by decide)]
    rfl
  have hpath : Path.ofText "w" = ⟨false, ["w"]⟩ := by rw [Path.ofText, hsplit]; rfl
  have hfind : levelFile.find? (Path.ofText "w") = some (["w"], "logging.level = 'info'") := by
    rw [hpath]; rfl
  have hread : Toml.read? "logging.level = 'info'" = some levelDocument := by
    obtain ⟨d, hd, hgives⟩ : ∃ d, Toml.read? "logging.level = 'info'" = some d ∧
        d.gives "level" "info" = true :=
      (Option.any_eq_true _ _).1 (by decide +kernel)
    rw [hd, Value.eq_of_gives hgives]
    rfl
  have hname : levelFile.relative ["w"] = "w" := by decide +kernel
  rw [layers?, hfind]
  show (Toml.read? "logging.level = 'info'").map _ = _
  rw [hread, hname]
  rfl

theorem document_formatVariable : Environment.document [formatVariable] =
    .map [("logging", .map [("format", .text "json")])] :=
  Value.eq_of_gives (by decide +kernel)

/-- The level comes from the file and the format from the environment, and another variable
changes nothing. -/
theorem load_eq_of_winners_mixed :
    (load levelFile [formatVariable] "w").value = .ok ⟨⟨"info", .json⟩⟩ ∧
      (load levelFile [formatVariable, ("TREE_SITTER_W_COLOUR", "red")] "w").value =
        .ok ⟨⟨"info", .json⟩⟩ := by
  have hplain : Layers.Plain
      ⟨some ("w", levelDocument), Environment.document [formatVariable]⟩ := by
    rw [document_formatVariable]
    refine ⟨fun d hd ↦ ?_, fun key hkey v hv ↦ ?_⟩
    · have hlogging : ∃ entries, d.child? "logging" = some (.map entries) := by
        rcases List.mem_cons.1 hd with rfl | hd
        · exact ⟨_, rfl⟩
        · obtain rfl := List.mem_singleton.1 hd
          exact ⟨_, rfl⟩
      obtain ⟨entries, hentries⟩ := hlogging
      exact hentries ▸ Value.isOpen_some_iff.2 rfl
    · rcases mem_settingNames_iff.1 hkey with rfl | rfl
      · cases hv
      · cases hv; rfl
  have hload := (load_eq_of_winners levelFile [formatVariable] "w").1 _ (layers?_levelFile _)
  obtain ⟨level, format, hlevel, hformat, hvalue, -⟩ := hload.1 hplain
  rw [document_formatVariable] at hlevel hformat
  cases hlevel
  cases hformat
  have hok : (load levelFile [formatVariable] "w").value = .ok ⟨⟨"info", .json⟩⟩ := by
    have hvalid : Settings.validate ⟨⟨"info", .json⟩⟩ = .ok () := if_pos (by decide +kernel)
    have hsettings : ofWinners (.text "info") (.text "json") = .ok ⟨⟨"info", .json⟩⟩ := rfl
    simp only [hvalue, hsettings, hvalid]
  refine ⟨hok, ?_⟩
  have hpath : Variable.path? "TREE_SITTER_W_COLOUR" = some ["colour"] := by
    decide +kernel
  obtain ⟨v, hadds⟩ := Layers.Adds.variable hpath "red" (some ("w", levelDocument)) [formatVariable]
  have hadded := hload.2 _ _ _ _ _ v (layers?_levelFile _) hadds (.outside (by decide))
  exact hadded.trans hok

end GrammarExport.Settings
