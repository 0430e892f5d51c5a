import GrammarExport.Proofs.Exports.WriteOnce
import GrammarExport.Proofs.External.Canonical
import GrammarExport.Proofs.OutputRecord.LastExport

/-!
# Where externals come from

A program gets externals from this layer in many ways: it creates them, it loads surfaces, exports
objects and output records, it copies, strips and tags what it has, and puts externals into exports
objects and takes them out again. Here it keeps all of this in variables (`Holdings`), and one thing
is done after another (`Holdings.Act`), in any order and any number of times, also where it fails.

Whatever is done, all externals that the variables hold are in canonical form
(`Holdings.canonical_after`). So two of them are equal if they have the same address and the same
tag, and the same goes for exports objects and surfaces made of them: what is hidden in the layout
never makes a difference (`External.made_values_canonical`). Only foreign callers can lay out an
external in another form, and it gets lost again when the external is stripped or tagged.

## What the proof rests on

* Every source of externals gives a canonical form, and every operation leaves one
  (`External.canonical_ofTable`, `External.canonical_of_attach`, `Exports.BuiltFrom.call`,
  `Holding.Canonical.fill`).
* An act writes one variable, and what it writes is made of what the variables held before
  (`Holdings.canonical_written`). So every act keeps all variables in canonical form, and so does a
  whole run.
-/

namespace GrammarExport

/-! ### Holdings -/

/-- What a variable may hold: an external, or something that has externals in it. -/
inductive Holding where
  | external (e : External)
  | surface (s : Surface)
  | exports (x : Exports)
  | record (r : OutputRecord)

namespace Holding

/-- The externals of a holding. -/
def Has : Holding → External → Prop
  | external e, f => f = e
  | surface s, f => f = s.language
  | exports x, f => ∃ key, x.get? key = some (.external f)
  | record r, f => f = r.language

/-- The external itself, if the holding is one. -/
def external? : Holding → Option External
  | external e => some e
  | _ => none

/-- The language of a surface or of an output record. -/
def language? : Holding → Option External
  | surface s => some s.language
  | record r => some r.language
  | _ => none

/-- The external that an exports object has under a key. -/
def property? (key : String) : Holding → Option External
  | exports x => (x.get? key).bind (·.external?)
  | _ => none

/-- A tag is put forward for an external. -/
def attempt (tag : Tag) : Holding → Holding
  | external e => external (e.attempted tag)
  | h => h

/-- A call on an exports object. -/
def call (c : Exports.Call) : Holding → Holding
  | exports x => exports (x.call c).1
  | h => h

/-- An export into an output record. -/
def fill (call : OutputRecord.Call ℕ) : Holding → Holding
  | record r => ((call.fill (some r)).2.map record).getD (record r)
  | h => h

end Holding

/-- Variables and what they hold. -/
abbrev Holdings := ℕ → Option Holding

namespace Holdings

/-- The value of a property that is to be defined: a text, or the external in a variable. -/
abbrev Source := String ⊕ ℕ

/-- Something that is done with variables. -/
inductive Act where
  /-- An external without a tag is created. -/
  | create (x : ℕ) (data : Address)
  /-- The external of a table is created. -/
  | createFor (x : ℕ) (table : Table)
  /-- A tag is put forward, to be attached in place. -/
  | attach (x : ℕ) (tag : Tag)
  /-- One variable gets the external of another one, without its tag. -/
  | strip (x y : ℕ)
  /-- One variable gets what another one holds. -/
  | copy (x y : ℕ)
  /-- The surface of a table is created. -/
  | createSurface (x : ℕ) (table : Table)
  /-- A surface is loaded from an accessor. -/
  | load (x : ℕ) (accessor : Accessor) (cells : Cells)
  /-- An exports object without properties is created. -/
  | createExports (x : ℕ)
  /-- Two properties of an exports object are defined. -/
  | define (x : ℕ) (first second : String × Source)
  /-- A module publishes its surface in an exports object. -/
  | publish (x : ℕ) (accessor : Accessor) (cells : Cells)
  /-- A context of its own is asked for the exports of the grammar's module. -/
  | require (x : ℕ) (accessor : Accessor) (cells : Cells)
  /-- An output record with an external without a tag is created. -/
  | createRecord (x : ℕ) (data : Address)
  /-- An output record is loaded from an accessor. -/
  | loadRecord (x : ℕ) (accessor : Accessor) (cells : Cells)
  /-- An output record is handed in to be filled. -/
  | fill (x : ℕ) (source : OutputRecord.Source) (cells : Cells)
  /-- One variable gets the external that is a property of the exports object in another one. -/
  | get (x : ℕ) (key : String) (y : ℕ)
  /-- One variable gets the language of the surface or the output record in another one. -/
  | language (x y : ℕ)

/-- The value that a source stands for. -/
def value? (s : Holdings) : Source → Option ExportValue
  | .inl text => some (.text text)
  | .inr x => ((s x).bind (·.external?)).map .external

/-- The variable that an act writes, and what it holds then. Where there is nothing to be written,
it holds what it held before. -/
def written (s : Holdings) : Act → ℕ × Option Holding
  | .create x data => (x, some (.external (.untagged data)))
  | .createFor x table => (x, some (.external (.ofTable table)))
  | .attach x tag => (x, (s x).map (·.attempt tag))
  | .strip x y => (y, (((s x).bind (·.external?)).map fun e ↦ .external e.strip).or (s y))
  | .copy x y => (y, s x)
  | .createSurface x table => (x, some (.surface (.ofTable table)))
  | .load x accessor cells =>
    (x, ((Surface.load accessor cells).run.value.toOption.map .surface).or (s x))
  | .createExports x => (x, some (.exports .empty))
  | .define x first second =>
    match s.value? first.2, s.value? second.2 with
    | some v, some w => (x, (s x).map (·.call (.define (first.1, v) (second.1, w))))
    | _, _ => (x, s x)
  | .publish x accessor cells => (x, (s x).map (·.call (.publish accessor cells)))
  | .require x accessor cells =>
    (x, (((Context.withBinding accessor).require cells bindingName).value.result.toOption.map
      .exports).or (s x))
  | .createRecord x data => (x, some (.record ⟨none, .untagged data⟩))
  | .loadRecord x accessor cells =>
    (x, ((OutputRecord.load accessor cells).run.value.toOption.map .record).or (s x))
  | .fill x source cells => (x, (s x).map (·.fill ⟨some x, source, cells⟩))
  | .get x key y => (y, (((s x).bind (·.property? key)).map .external).or (s y))
  | .language x y => (y, (((s x).bind (·.language?)).map .external).or (s y))

/-- The variables after an act. -/
def act (s : Holdings) (a : Act) : Holdings := Function.update s (s.written a).1 (s.written a).2

/-- The variables after some acts, when they held nothing at the beginning. -/
def after (acts : List Act) : Holdings := acts.foldl act fun _ ↦ none

end Holdings

/-- An external comes from this layer: some acts lead to a variable that has it. -/
def External.Made (e : External) : Prop :=
  ∃ acts x h, Holdings.after acts x = some h ∧ h.Has e

/-! ### What operations leave -/

section BuiltFrom

variable {P : External → Prop} {x : Exports}

theorem Exports.builtFrom_empty : empty.BuiltFrom P := fun _ _ he ↦ nomatch he

/-- Another property does no harm, if it is a text or an external of the same kind as the others. -/
theorem Exports.BuiltFrom.insert (h : x.BuiltFrom P) (key : String) {v : ExportValue}
    (hv : ∀ e, v = .external e → P e) : (mk (x.properties.insert key v)).BuiltFrom P := by
  intro k e he
  change (x.properties.insert key v).get? k = _ at he
  rw [Dict.get?_insert] at he
  split_ifs at he with hk
  · exact hv e (Option.some.inj he)
  · exact h k e he

/-- An external is among the values that a call on an exports object is to define. -/
def Exports.Call.Defines (c : Exports.Call) (e : External) : Prop :=
  ∃ first second, c.batch = .ok (first, second) ∧
    (first.2 = .external e ∨ second.2 = .external e)

/-- A call on an exports object of externals of a certain kind leaves one, if the externals that it
defines are of this kind. -/
theorem Exports.BuiltFrom.call (h : x.BuiltFrom P) {c : Exports.Call}
    (hc : ∀ e, c.Defines e → P e) : (x.call c).1.BuiltFrom P := by
  rcases x.call_cases c with ⟨err, hcall⟩ | ⟨first, second, hbatch, -, -, -, hcall⟩
  · rw [hcall]
    exact h
  · rw [hcall]
    exact (h.insert first.1 fun e he ↦ hc e ⟨first, second, hbatch, .inl he⟩).insert second.1
      fun e he ↦ hc e ⟨first, second, hbatch, .inr he⟩

/-- The exports object of a surface has no other external than that of the surface. -/
theorem Exports.builtFrom_ofSurface {s : Surface} (h : P s.language) :
    (ofSurface s).BuiltFrom P :=
  (builtFrom_empty.insert nameKey fun _ he ↦ nomatch he).insert languageKey
    fun _ he ↦ ExportValue.external.inj he ▸ h

end BuiltFrom

/-- A module publishes no other external than that of a table. -/
theorem Exports.Call.canonical_of_publish {accessor : Accessor} {cells : Cells} {e : External}
    (h : (publish accessor cells).Defines e) : e.Canonical := by
  obtain ⟨first, second, hbatch, he⟩ := h
  rcases htable : accessor.table cells with err | table
  · rw [batch, htable] at hbatch
    cases hbatch
  · rw [batch, htable] at hbatch
    obtain ⟨rfl, rfl⟩ := Prod.mk.inj (Except.ok.inj hbatch)
    rcases he with he | he
    · cases he
    · obtain rfl := ExportValue.external.inj he
      exact External.canonical_ofTable table

namespace Holding

theorem has_of_external? {h : Holding} {e : External} (he : h.external? = some e) : h.Has e := by
  rcases h with f | s | x | r
  · exact (Option.some.inj he).symm
  all_goals cases he

theorem has_of_language? {h : Holding} {e : External} (he : h.language? = some e) : h.Has e := by
  rcases h with f | s | x | r
  · cases he
  · exact (Option.some.inj he).symm
  · cases he
  · exact (Option.some.inj he).symm

/-- A property of a holding is in it. -/
theorem has_of_property? {key : String} {h : Holding} {e : External}
    (he : h.property? key = some e) : h.Has e := by
  rcases h with f | s | x | r
  · cases he
  · cases he
  · obtain ⟨v, hv, hexternal⟩ := Option.bind_eq_some_iff.1 he
    rcases v with text | f
    · cases hexternal
    · obtain rfl := Option.some.inj hexternal
      exact ⟨key, hv⟩
  · cases he

/-- All externals of a holding are in canonical form. -/
def Canonical (h : Holding) : Prop := ∀ e, h.Has e → e.Canonical

theorem canonical_external {e : External} (h : e.Canonical) : (external e).Canonical :=
  fun _ hf ↦ hf ▸ h

theorem canonical_surface {s : Surface} (h : s.language.Canonical) : (surface s).Canonical :=
  fun _ hf ↦ hf ▸ h

theorem canonical_exports {x : Exports} (h : x.BuiltFrom External.Canonical) :
    (exports x).Canonical :=
  fun f ⟨key, hf⟩ ↦ h key f hf

theorem canonical_record {r : OutputRecord} (h : r.language.Canonical) : (record r).Canonical :=
  fun _ hf ↦ hf ▸ h

variable {h : Holding} (hcanonical : h.Canonical)

include hcanonical

/-- Attaching a tag to what is held keeps it canonical. -/
theorem Canonical.attempt (tag : Tag) : (h.attempt tag).Canonical := by
  rcases h with e | s | x | r
  · exact canonical_external ((hcanonical e rfl).attempted tag)
  all_goals exact hcanonical

/-- Defining canonical properties keeps what is held canonical. -/
theorem Canonical.call {c : Exports.Call} (hc : ∀ e, c.Defines e → e.Canonical) :
    (h.call c).Canonical := by
  rcases h with e | s | x | r
  · exact hcanonical
  · exact hcanonical
  · have hx : x.BuiltFrom External.Canonical := fun key e he ↦ hcanonical e ⟨key, he⟩
    exact canonical_exports (hx.call hc)
  · exact hcanonical

/-- Exporting into a record keeps what is held canonical. -/
theorem Canonical.fill (call : OutputRecord.Call ℕ) : (h.fill call).Canonical := by
  rcases h with e | s | x | r
  · exact hcanonical
  · exact hcanonical
  · exact hcanonical
  · show (((call.fill (some r)).2.map record).getD (record r)).Canonical
    rw [call.fill_eq]
    rcases call.table? with - | table
    · exact hcanonical
    · exact canonical_record (External.canonical_tagged table.address .language)

end Holding

/-! ### One act -/

namespace Holdings

/-- What a variable holds, if anything, is in canonical form. -/
def Sound (o : Option Holding) : Prop := ∀ h, o = some h → h.Canonical

theorem sound_some {h : Holding} (hcanonical : h.Canonical) : Sound (some h) :=
  fun _ heq ↦ Option.some.inj heq ▸ hcanonical

/-- What one of two sources gives is canonical, if what each of them gives is. -/
theorem sound_or {o o' : Option Holding} (h : Sound o) (h' : Sound o') : Sound (o.or o') := by
  rcases o with - | holding
  · exact h'
  · exact h

/-- What is made of the value that a source gives is canonical, if this holds of every value. -/
theorem sound_map {α : Type} {o : Option α} {f : α → Holding}
    (h : ∀ a, o = some a → (f a).Canonical) : Sound (o.map f) := by
  intro holding hholding
  obtain ⟨a, ha, rfl⟩ := Option.map_eq_some_iff.1 hholding
  exact h a ha

/-- An external that is taken out of a holding is in canonical form if all of its externals are. -/
theorem canonical_of_bind {o : Option Holding} (ho : Sound o) {part? : Holding → Option External}
    (hpart : ∀ {h e}, part? h = some e → h.Has e) {e : External} (he : o.bind part? = some e) :
    e.Canonical := by
  obtain ⟨h, hh, hpe⟩ := Option.bind_eq_some_iff.1 he
  exact ho h hh e (hpart hpe)

/-- What a table is turned into is in canonical form, if an accessor returns one at all. -/
theorem sound_of_table {α : Type} {result : Except Error α} {accessor : Accessor} {cells : Cells}
    {produce : Table → α} (hresult : result = (accessor.table cells).map produce)
    {f : α → Holding} (hf : ∀ table, (f (produce table)).Canonical) :
    Sound (result.toOption.map f) := by
  rw [hresult]
  rcases accessor.table cells with err | table
  · exact sound_map fun a ha ↦ nomatch ha
  · exact sound_some (hf table)

section Act

variable {s : Holdings} (hs : ∀ x, Sound (s x))

include hs

/-- The values that properties get are canonical. -/
theorem canonical_value? {source : Source} {v : ExportValue} (hv : s.value? source = some v)
    {e : External} (he : v = .external e) : e.Canonical := by
  rcases source with text | x
  · rw [he] at hv
    cases hv
  · obtain ⟨f, hf, rfl⟩ := Option.map_eq_some_iff.1 hv
    obtain rfl := ExportValue.external.inj he
    exact canonical_of_bind (hs x) Holding.has_of_external? hf

/-- **What an act writes is in canonical form**, if all that the variables hold is. -/
theorem canonical_written (a : Act) : Sound (s.written a).2 := by
  cases a with
  | create x data =>
    exact sound_some (Holding.canonical_external (External.canonical_untagged data))
  | createFor x table =>
    exact sound_some (Holding.canonical_external (External.canonical_ofTable table))
  | attach x tag => exact sound_map fun h hh ↦ (hs x h hh).attempt tag
  | strip x y =>
    exact sound_or (sound_map fun e _ ↦ Holding.canonical_external e.canonical_strip) (hs y)
  | copy x y => exact hs x
  | createSurface x table =>
    exact sound_some (Holding.canonical_surface (External.canonical_ofTable table))
  | load x accessor cells =>
    exact sound_or (sound_of_table (Surface.value_load accessor cells) fun table ↦
      Holding.canonical_surface (External.canonical_ofTable table)) (hs x)
  | createExports x => exact sound_some (Holding.canonical_exports Exports.builtFrom_empty)
  | define x first second =>
    rw [written]
    split
    · rename_i v w hv hw
      refine sound_map fun h hh ↦ (hs x h hh).call fun e ⟨first', second', hbatch, he⟩ ↦ ?_
      obtain ⟨rfl, rfl⟩ := Prod.mk.inj (Except.ok.inj hbatch)
      rcases he with he | he
      · exact canonical_value? hs hv he
      · exact canonical_value? hs hw he
    · exact hs x
  | publish x accessor cells =>
    exact sound_map fun h hh ↦ (hs x h hh).call fun e ↦ Exports.Call.canonical_of_publish
  | require x accessor cells =>
    exact sound_or (sound_of_table (Context.require_withBinding accessor cells) fun table ↦
      Holding.canonical_exports (Exports.builtFrom_ofSurface (External.canonical_ofTable table)))
      (hs x)
  | createRecord x data =>
    exact sound_some (Holding.canonical_record (External.canonical_untagged data))
  | loadRecord x accessor cells =>
    exact sound_or (sound_of_table (OutputRecord.value_load accessor cells) fun table ↦
      Holding.canonical_record (External.canonical_ofTable table)) (hs x)
  | fill x source cells => exact sound_map fun h hh ↦ (hs x h hh).fill _
  | get x key y =>
    exact sound_or (sound_map fun e he ↦ Holding.canonical_external
      (canonical_of_bind (hs x) Holding.has_of_property? he)) (hs y)
  | language x y =>
    exact sound_or (sound_map fun e he ↦ Holding.canonical_external
      (canonical_of_bind (hs x) Holding.has_of_language? he)) (hs y)

/-- An act keeps all variables in canonical form. -/
theorem canonical_act (a : Act) (x : ℕ) : Sound (s.act a x) := by
  rw [act]
  by_cases hx : x = (s.written a).1
  · rw [hx, Function.update_self]
    exact canonical_written hs a
  · rw [Function.update_of_ne hx]
    exact hs x

end Act

/-- **Along a run, all that the variables hold is in canonical form.** -/
theorem canonical_after (acts : List Act) (x : ℕ) : Sound (after acts x) := by
  suffices hrun : ∀ s : Holdings, (∀ x, Sound (s x)) → ∀ x, Sound (acts.foldl act s x) from
    hrun _ (fun _ h (hnone : none = some h) ↦ nomatch hnone) x
  induction acts with
  | nil => exact fun _ hs ↦ hs
  | cons a acts ih => exact fun s hs ↦ ih (s.act a) (canonical_act hs a)

end Holdings

/-! ### Canonical forms decide -/

namespace External

/-- Whatever was made by constructors and mutators is canonical. -/
theorem Made.canonical {e : External} (h : e.Made) : e.Canonical := by
  obtain ⟨acts, x, holding, hafter, hhas⟩ := h
  exact Holdings.canonical_after acts x holding hafter e hhas

/-- **All that comes from this layer is in canonical form, so nothing is hidden in it.**

* An external that comes from this layer has the flag zero or one, and with the flag zero it has
  tag words zero.
* Two such externals are equal if and only if they have the same address and the same tag.
* Two exports objects, and two surfaces, that are built from such externals are equal if and only if
  no observer tells them apart.
* Of an external that was laid out elsewhere, stripping makes a canonical form, and so does
  attaching a tag, if it succeeds. -/
theorem made_values_canonical :
    (∀ e : External, e.Made → e.Canonical) ∧
    (∀ e f : External, e.Made → f.Made → (e = f ↔ e.data = f.data ∧ e.tag = f.tag)) ∧
    (∀ x y : Exports, x.BuiltFrom Made → y.BuiltFrom Made → (x = y ↔ x.Alike y)) ∧
    (∀ s t : Surface, s.language.Made → t.language.Made → (s = t ↔ s.Alike t)) ∧
    ∀ e : External, e.strip.Canonical ∧ ∀ tag e', e.attach tag = .ok e' → e'.Canonical := by
  refine ⟨fun e he ↦ he.canonical, fun e f he hf ↦ he.canonical.eq_iff hf.canonical,
    fun x y hx hy ↦ ?_, fun s t hs ht ↦ Surface.eq_iff_alike hs.canonical ht.canonical,
    fun e ↦ ⟨e.canonical_strip, fun tag e' ↦ canonical_of_attach⟩⟩
  exact Exports.eq_iff_alike (fun key e he ↦ (hx key e he).canonical)
    fun key e he ↦ (hy key e he).canonical

/-- The external of a table is stripped, gets the language tag again and is put into an exports
object; a module publishes the same table in another one. -/
def republished : List Holdings.Act :=
  [.createFor 0 ⟨⟨64⟩, by decide⟩, .strip 0 1, .attach 1 .language, .createExports 2,
    .define 2 (nameKey, .inl "w") (languageKey, .inr 1), .createExports 3,
    .publish 3 (.fixed "table" ⟨64⟩) fun _ ↦ .null]

/-- Both ways lead to the same external. An external with the flag of a foreign caller looks like
it, but does not come from this layer. -/
theorem made_values_canonical_republished :
    ∃ e f, Holdings.after republished 0 = some (.external e) ∧
      Holdings.after republished 1 = some (.external f) ∧ e = f ∧
      (∃ x y, Holdings.after republished 2 = some (.exports x) ∧
        Holdings.after republished 3 = some (.exports y) ∧ x.Alike y) ∧
      e.Alike ⟨⟨64⟩, .language, 0xFF⟩ ∧ ¬ Made ⟨⟨64⟩, .language, 0xFF⟩ := by
  obtain ⟨hcanonical, hequal, hexports, -, -⟩ := made_values_canonical
  refine ⟨_, _, rfl, rfl, ?_, ⟨_, _, rfl, rfl, ?_⟩, ?_, fun hmade ↦ ?_⟩
  · exact (hequal _ _ ⟨republished, 0, _, rfl, rfl⟩ ⟨republished, 1, _, rfl, rfl⟩).2 ⟨rfl, rfl⟩
  · exact (hexports _ _ (fun key e he ↦ ⟨republished, 2, _, rfl, key, he⟩)
      fun key e he ↦ ⟨republished, 3, _, rfl, key, he⟩).1 rfl
  · exact ⟨rfl, rfl, fun _ ↦ rfl, rfl⟩
  · exact absurd (hcanonical _ hmade).flag (by decide)

end External

end GrammarExport
