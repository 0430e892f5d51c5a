import GrammarExport.Text.Hex

/-!
# Addresses and tables

An address is a 64-bit word that is carried around and never looked behind. A language table is
known only by its address, which is not null (`Table`).
-/

namespace GrammarExport

/-- The address of something outside this layer. -/
structure Address where
  word : UInt64
  deriving DecidableEq, Repr

namespace Address

/-- The address of nothing. -/
def null : Address := ⟨0⟩

/-- An address is written in lower-case hexadecimal without leading zeros, after `0x`. -/
def text (a : Address) : String :=
  "0x" ++ Hex.text .lower (Hex.shortest a.word.toNat)

/-- Addresses that are written alike are the same. -/
theorem text_inj {a b : Address} : a.text = b.text ↔ a = b := by
  refine ⟨fun h ↦ ?_, fun h ↦ h ▸ rfl⟩
  have hdigits : Hex.text .lower (Hex.shortest a.word.toNat) =
      Hex.text .lower (Hex.shortest b.word.toNat) := by
    simpa [text] using h
  have hread := congrArg (fun s ↦ Hex.read? s.toList) hdigits
  simp only [Hex.read?_text_shortest, Option.some.injEq] at hread
  cases a
  cases b
  exact congrArg Address.mk (UInt64.toNat_inj.1 hread)

end Address

/-- A language table, known by its address. -/
structure Table where
  address : Address
  nonnull : address ≠ .null
  deriving DecidableEq

namespace Table

/-- The table at an address, unless the address is null. -/
def at? (a : Address) : Option Table :=
  if h : a = .null then none else some ⟨a, h⟩

/-- A table is shown by its address. -/
def shown (t : Table) : String :=
  "LanguageTable(" ++ t.address.text ++ ")"

@[ext] theorem ext {s t : Table} (h : s.address = t.address) : s = t := by
  cases s; cases t; cases h; rfl

/-- There is no table at the null address. -/
@[simp] theorem at?_null : at? .null = none := by
  simp [at?]

@[simp] theorem at?_address (t : Table) : at? t.address = some t := by
  simp [at?, t.nonnull]

/-- A table is found at its own address and at no other. -/
theorem at?_eq_some_iff {a : Address} {t : Table} : at? a = some t ↔ t.address = a := by
  constructor
  · intro h
    by_cases ha : a = .null
    · simp [at?, ha] at h
    · simp [at?, ha] at h
      simp [← h]
  · rintro rfl
    exact at?_address t

end Table

end GrammarExport
