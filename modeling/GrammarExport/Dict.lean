/-!
# Dictionaries

A finite map from names to values, kept in the ascending order of its names (by code point, which
is also the byte order of their UTF-8 form). The order is part of the type, so two dictionaries
with the same entries are equal (`Dict.ext_get?`).
-/

namespace GrammarExport

/-- Entries in strictly ascending order of their names. -/
structure Dict (α : Type) where
  entries : List (String × α)
  sorted : entries.Pairwise fun a b ↦ a.1 < b.1

namespace Dict

variable {α : Type}

/-- The dictionary without entries. -/
def empty : Dict α := ⟨[], .nil⟩

/-- The value of the first entry of a name. -/
def find? (key : String) : List (String × α) → Option α
  | [] => none
  | e :: rest => if key = e.1 then some e.2 else find? key rest

/-- The value of a name. -/
def get? (d : Dict α) (key : String) : Option α := find? key d.entries

/-- Whether a name has a value. -/
def contains (d : Dict α) (key : String) : Bool := (d.get? key).isSome

/-- The names, in ascending order. -/
def keys (d : Dict α) : List String := d.entries.map Prod.fst

/-- The number of entries. -/
def size (d : Dict α) : Nat := d.entries.length

/-- Puts an entry at its place in an ascending list, over an entry of the same name. -/
def insertEntry (key : String) (value : α) : List (String × α) → List (String × α)
  | [] => [(key, value)]
  | e :: rest =>
    if key < e.1 then (key, value) :: e :: rest
    else if key = e.1 then (key, value) :: rest
    else e :: insertEntry key value rest

theorem mem_insertEntry {key : String} {value : α} {l : List (String × α)} {e : String × α}
    (h : e ∈ insertEntry key value l) : e = (key, value) ∨ e ∈ l := by
  induction l with
  | nil => simpa [insertEntry] using h
  | cons x rest ih =>
    rw [insertEntry] at h
    split at h
    · simpa using h
    · split at h
      · rcases List.mem_cons.1 h with h | h
        · exact .inl h
        · exact .inr (List.mem_cons_of_mem _ h)
      · rcases List.mem_cons.1 h with rfl | h
        · exact .inr List.mem_cons_self
        · exact (ih h).imp id (List.mem_cons_of_mem _)

/-- Putting an entry in keeps the keys in ascending order. -/
theorem pairwise_insertEntry (key : String) (value : α) {l : List (String × α)}
    (h : l.Pairwise fun a b ↦ a.1 < b.1) :
    (insertEntry key value l).Pairwise fun a b ↦ a.1 < b.1 := by
  induction l with
  | nil => exact List.pairwise_singleton _ _
  | cons x rest ih =>
    rw [insertEntry]
    have hx := List.pairwise_cons.1 h
    split
    · rename_i hlt
      refine List.pairwise_cons.2 ⟨fun e he ↦ ?_, h⟩
      rcases List.mem_cons.1 he with rfl | he
      · exact hlt
      · exact String.lt_trans hlt (hx.1 e he)
    · rename_i hnlt
      split
      · rename_i heq
        exact List.pairwise_cons.2 ⟨fun e he ↦ heq ▸ hx.1 e he, hx.2⟩
      · rename_i hne
        refine List.pairwise_cons.2 ⟨fun e he ↦ ?_, ih hx.2⟩
        rcases mem_insertEntry he with rfl | he
        · exact Std.lt_of_le_of_ne (String.not_lt.1 hnlt) (Ne.symm hne)
        · exact hx.1 e he

/-- The dictionary with `key` mapped to `value`, whatever it was mapped to before. -/
def insert (d : Dict α) (key : String) (value : α) : Dict α :=
  ⟨insertEntry key value d.entries, pairwise_insertEntry key value d.sorted⟩

/-! ### Looking up -/

@[simp] theorem get?_empty (key : String) : (empty : Dict α).get? key = none := rfl

/-- Under its key the new value is found, and under all other keys what was found before. -/
theorem find?_insertEntry (key k : String) (value : α) (l : List (String × α)) :
    find? k (insertEntry key value l) = if k = key then some value else find? k l := by
  induction l with
  | nil => rfl
  | cons x rest ih =>
    rw [insertEntry]
    split
    · rfl
    · split
      · rename_i heq
        simp only [find?, ← heq]
        split <;> rfl
      · rename_i hne
        simp only [find?, ih]
        by_cases hx : k = x.1
        · simp [hx, Ne.symm hne]
        · simp [hx]

/-- After an insertion the new name has the new value and every other name its old one. -/
theorem get?_insert (d : Dict α) (key k : String) (value : α) :
    (d.insert key value).get? k = if k = key then some value else d.get? k :=
  find?_insertEntry key k value d.entries

/-- In ascending order, every entry is found under its key. -/
theorem find?_eq_some_of_mem {l : List (String × α)} (h : l.Pairwise fun a b ↦ a.1 < b.1)
    {e : String × α} (he : e ∈ l) : find? e.1 l = some e.2 := by
  induction l with
  | nil => simp at he
  | cons x rest ih =>
    have hx := List.pairwise_cons.1 h
    rcases List.mem_cons.1 he with rfl | he
    · simp [find?]
    · have hne : e.1 ≠ x.1 := fun heq ↦ String.lt_irrefl _ (heq ▸ hx.1 e he)
      simp [find?, hne, ih hx.2 he]

/-- What is found is an entry. -/
theorem mem_of_find?_eq_some {l : List (String × α)} {k : String} {v : α}
    (h : find? k l = some v) : (k, v) ∈ l := by
  induction l with
  | nil => simp [find?] at h
  | cons x rest ih =>
    rw [find?] at h
    split at h
    · rename_i hk
      obtain rfl := Option.some.inj h
      simp [hk]
    · exact List.mem_cons_of_mem _ (ih h)

/-- The entries of a dictionary are the names with their values. -/
theorem mem_entries_iff {d : Dict α} {k : String} {v : α} :
    (k, v) ∈ d.entries ↔ d.get? k = some v :=
  ⟨fun h ↦ find?_eq_some_of_mem d.sorted h, mem_of_find?_eq_some⟩

/-- Ascending lists of entries are told apart by their members. -/
theorem eq_of_mem_iff {l m : List (String × α)} (hl : l.Pairwise fun a b ↦ a.1 < b.1)
    (hm : m.Pairwise fun a b ↦ a.1 < b.1) (h : ∀ e, e ∈ l ↔ e ∈ m) : l = m := by
  have hne : ∀ {a b : String × α}, a.1 < b.1 → a ≠ b := by
    rintro a _ hlt rfl
    exact String.lt_irrefl _ hlt
  have hperm : l.Perm m := (List.perm_ext_iff_of_nodup (hl.imp hne) (hm.imp hne)).2 h
  exact hperm.eq_of_pairwise (fun a b _ _ hab hba ↦ absurd hba (String.lt_asymm hab)) hl hm

/-- Dictionaries that give the same answer to every look-up are equal. -/
theorem ext_get? {c d : Dict α} (h : ∀ key, c.get? key = d.get? key) : c = d := by
  have he : c.entries = d.entries :=
    eq_of_mem_iff c.sorted d.sorted fun e ↦ by
      cases e
      rw [mem_entries_iff, mem_entries_iff, h]
  cases c; cases d; cases he; rfl

/-! ### Keys -/

theorem mem_keys_iff {d : Dict α} {key : String} : key ∈ d.keys ↔ d.contains key = true := by
  rw [keys, contains, Option.isSome_iff_exists, List.mem_map]
  constructor
  · intro ⟨e, he, hkey⟩
    exact ⟨e.2, mem_entries_iff.1 (hkey ▸ he)⟩
  · intro ⟨v, hv⟩
    exact ⟨(key, v), mem_entries_iff.2 hv, rfl⟩

theorem get?_eq_none_iff {d : Dict α} {key : String} : d.get? key = none ↔ key ∉ d.keys := by
  rw [mem_keys_iff, contains, Option.not_isSome_iff_eq_none]

theorem pairwise_keys (d : Dict α) : d.keys.Pairwise (· < ·) := List.pairwise_map.2 d.sorted

/-- Under a key that is new, one entry is added. -/
theorem perm_insertEntry {key : String} {value : α} {l : List (String × α)}
    (h : find? key l = none) : (insertEntry key value l).Perm ((key, value) :: l) := by
  induction l with
  | nil => exact .refl _
  | cons x rest ih =>
    have hne : key ≠ x.1 := fun heq ↦ by simp [find?, heq] at h
    rw [find?, if_neg hne] at h
    rw [insertEntry, if_neg hne]
    split
    · exact .refl _
    · exact ((ih h).cons x).trans (.swap ..)

/-- Inserting a new name adds one entry. -/
theorem perm_entries_insert {d : Dict α} {key : String} (h : d.get? key = none) (value : α) :
    (d.insert key value).entries.Perm ((key, value) :: d.entries) := perm_insertEntry h

instance [DecidableEq α] : DecidableEq (Dict α) := fun c d ↦
  if h : c.entries = d.entries then
    isTrue (by cases c; cases d; cases h; rfl)
  else isFalse fun hcd ↦ h (hcd ▸ rfl)

end Dict

end GrammarExport
