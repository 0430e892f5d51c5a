import GrammarExport.Proofs.External.Boundary

/-!
# The canonical form of an external

The layout of an external says more than anybody can see. Tag words under a cleared flag are no tag,
and every flag but zero says the same; yet two externals are equal only if all of their bytes are.
An external is in canonical form if there is nothing hidden in it: its flag is zero or one, and
without a tag its tag words are zero (`External.Canonical`).

`Alike` says of two values that no observer tells them apart. Equal values are alike. Where all
externals are in canonical form, values that are alike are also equal: externals
(`External.Canonical.eq_of_alike`), exports objects (`Exports.eq_iff_alike`) and surfaces
(`Surface.eq_iff_alike`). This is because an external in canonical form can be put together again
from what is seen of it (`External.Canonical.eq_ofSeen`).
-/

namespace GrammarExport

namespace External

/-! ### Canonical forms -/

/-- Nothing is hidden in an external: its flag is zero or one, and its tag words are zero if they
are no tag. -/
structure Canonical (e : External) : Prop where
  flag : e.flag = 0 ∨ e.flag = 1
  words : e.flag = 0 → e.words = ⟨0, 0⟩

/-- An external without a tag has nothing in its tag words and its flag byte. -/
theorem canonical_untagged (data : Address) : (untagged data).Canonical :=
  ⟨.inl rfl, fun _ ↦ rfl⟩

/-- An external that was tagged has the flag byte one. -/
theorem canonical_tagged (data : Address) (tag : Tag) : (⟨data, tag, 1⟩ : External).Canonical :=
  ⟨.inr rfl, fun h ↦ absurd (show (1 : UInt8) = 0 from h) (by decide)⟩

theorem canonical_ofTable (table : Table) : (ofTable table).Canonical :=
  canonical_tagged table.address .language

/-- Stripping leaves a canonical form, whatever there was before. -/
theorem canonical_strip (e : External) : e.strip.Canonical := canonical_untagged e.data

/-- So does attaching a tag, unless the tag is refused. -/
theorem canonical_of_attach {e e' : External} {tag : Tag} (h : e.attach tag = .ok e') :
    e'.Canonical := by
  rw [attach] at h
  split at h
  · cases h
  · obtain rfl := Except.ok.inj h
    exact canonical_tagged e.data tag

/-- A tag that is refused changes nothing, so a canonical form is left in any case. -/
theorem Canonical.attempted {e : External} (h : e.Canonical) (tag : Tag) :
    (e.attempted tag).Canonical := by
  rw [External.attempted]
  rcases hattach : e.attach tag with err | e'
  · exact h
  · exact canonical_of_attach hattach

/-- The canonical external with a given address and a given tag, or none. -/
def ofSeen (data : Address) : Option Tag → External
  | none => untagged data
  | some tag => ⟨data, tag, 1⟩

/-- A canonical external is made of what is seen of it. -/
theorem Canonical.eq_ofSeen {e : External} (h : e.Canonical) : e = ofSeen e.data e.tag := by
  rcases h.flag with hflag | hflag
  · rw [tag_of_flag_eq_zero hflag]
    show (⟨e.data, e.words, e.flag⟩ : External) = ⟨e.data, ⟨0, 0⟩, 0⟩
    rw [h.words hflag, hflag]
  · rw [tag_of_flag_ne_zero (by rw [hflag]; decide)]
    show (⟨e.data, e.words, e.flag⟩ : External) = ⟨e.data, e.words, 1⟩
    rw [hflag]

/-- Canonical externals are the same exactly if they have the same pointer and the same tag. -/
theorem Canonical.eq_iff {e f : External} (he : e.Canonical) (hf : f.Canonical) :
    e = f ↔ e.data = f.data ∧ e.tag = f.tag := by
  constructor
  · rintro rfl
    exact ⟨rfl, rfl⟩
  · intro ⟨hdata, htag⟩
    rw [he.eq_ofSeen, hf.eq_ofSeen, hdata, htag]

/-! ### Observers -/

/-- No observer tells two externals apart: they have the same address and the same tag, and every
check gives the same answer. -/
structure Alike (e f : External) : Prop where
  data : e.data = f.data
  tag : e.tag = f.tag
  hasTag : ∀ tag, e.hasTag tag = f.hasTag tag
  verify : e.verify.run.value = f.verify.run.value

theorem Alike.refl (e : External) : e.Alike e := ⟨rfl, rfl, fun _ ↦ rfl, rfl⟩

/-- Canonical externals that look alike are the same. -/
theorem Canonical.eq_of_alike {e f : External} (he : e.Canonical) (hf : f.Canonical)
    (h : e.Alike f) : e = f :=
  (he.eq_iff hf).2 ⟨h.data, h.tag⟩

end External

/-- No observer tells two values apart: they are the same text, or externals that are alike. -/
structure ExportValue.Alike (v w : ExportValue) : Prop where
  text : v.text? = w.text?
  external : Option.Rel External.Alike v.external? w.external?

/-- No observer tells two exports objects apart: they have the same keys, and what is got under a
key is alike. -/
structure Exports.Alike (x y : Exports) : Prop where
  keys : x.keys = y.keys
  get : ∀ key, Option.Rel ExportValue.Alike (x.get? key) (y.get? key)

/-- No observer tells two surfaces apart. -/
structure Surface.Alike (s t : Surface) : Prop where
  name : s.name = t.name
  language : s.language.Alike t.language

/-- All externals among the properties are of a certain kind. -/
def Exports.BuiltFrom (P : External → Prop) (x : Exports) : Prop :=
  ∀ key e, x.get? key = some (.external e) → P e

theorem ExportValue.Alike.refl (v : ExportValue) : v.Alike v := by
  refine ⟨rfl, ?_⟩
  rcases v with s | e
  · exact .none
  · exact .some (.refl e)

/-- Exported values that look alike are the same, if the externals among them are canonical. -/
theorem ExportValue.Alike.eq {v w : ExportValue} (h : v.Alike w)
    (hv : ∀ e, v = .external e → e.Canonical) (hw : ∀ e, w = .external e → e.Canonical) :
    v = w := by
  rcases v with s | e
  · rcases w with t | f
    · exact congrArg ExportValue.text (Option.some.inj h.text)
    · cases h.text
  · rcases w with t | f
    · cases h.text
    · have halike : e.Alike f := Option.rel_some_some.1 h.external
      exact congrArg ExportValue.external ((hv e rfl).eq_of_alike (hw f rfl) halike)

/-- Exports objects of canonical externals are equal if no observer tells them apart. -/
theorem Exports.eq_iff_alike {x y : Exports} (hx : x.BuiltFrom External.Canonical)
    (hy : y.BuiltFrom External.Canonical) : x = y ↔ x.Alike y := by
  constructor
  · rintro rfl
    refine ⟨rfl, fun key ↦ ?_⟩
    rcases x.get? key with - | v
    · exact .none
    · exact .some (.refl v)
  · intro h
    have hget : ∀ key, x.properties.get? key = y.properties.get? key := fun key ↦ by
      have hkey := h.get key
      show x.get? key = y.get? key
      rcases hv : x.get? key with - | v
      · rcases hw : y.get? key with - | w
        · rfl
        · rw [hv, hw] at hkey
          cases hkey
      · rcases hw : y.get? key with - | w
        · rw [hv, hw] at hkey
          cases hkey
        · rw [hv, hw, Option.rel_some_some] at hkey
          exact congrArg some (hkey.eq (fun e he ↦ hx key e (he ▸ hv))
            fun e he ↦ hy key e (he ▸ hw))
    exact congrArg Exports.mk (Dict.ext_get? hget)

/-- Surfaces of canonical externals are equal if no observer tells them apart. -/
theorem Surface.eq_iff_alike {s t : Surface} (hs : s.language.Canonical)
    (ht : t.language.Canonical) : s = t ↔ s.Alike t := by
  constructor
  · rintro rfl
    exact ⟨rfl, .refl _⟩
  · intro h
    cases s
    cases t
    exact congrArg₂ Surface.mk h.name (hs.eq_of_alike ht h.language)

end GrammarExport
