import GrammarExport.Proofs.Settings.Ordered

/-!
# Single keys of documents

What merging documents, and adding something to one, does at a single key. A key of merged
documents has what it has above laid over what it has below (`Value.child?_layOver`); what is laid
over it hides it, unless both are maps (`Value.layOver_eq_or`). What is put somewhere shows at the
paths through that place only (`Value.at?_putAt`).

Nothing and maps let what is below them show. A value of this kind is called **open**
(`Value.IsOpen`).
-/

namespace GrammarExport.Settings.Value

/-! ### One key of merged documents -/

/-- What is not a map has nothing under a key that is no number. -/
theorem child?_of_isMap_eq_false {v : Value} {key : String} (hv : v.isMap = false)
    (hkey : key.toNat? = none) : v.child? key = none := by
  cases v with
  | map entries => cases hv
  | list items => show (key.toNat?).bind _ = none; rw [hkey]; rfl
  | _ => rfl

/-- A key that is not a place in a list has, in merged values, what it has in the upper one laid
over what it has in the lower one. -/
theorem child?_layOver {base top : Option Value} {key : String} (hkey : key.toNat? = none)
    (htop : ∀ v, top = some v → v.IsDocument) :
    (layOver base top).bind (·.child? key) =
      layOver (base.bind (·.child? key)) (top.bind (·.child? key)) := by
  cases top with
  | none => rfl
  | some v =>
    cases base with
    | none => simp
    | some below =>
      have hv := htop v rfl
      obtain ⟨entries, rfl⟩ := exists_eq_map_of_isMap hv.isMap
      show (below.merge (.map entries)).child? key = layOver (below.child? key) (Dict.find? key _)
      rcases hbelow : below.isMap with - | -
      · rw [merge_eq_of_isMap_base hbelow, child?_of_isMap_eq_false hbelow hkey, none_layOver]
        rfl
      · obtain ⟨lower, rfl⟩ := exists_eq_map_of_isMap hbelow
        rw [merge_map_map]
        exact find?_mergeEntries (ordered_map_iff.1 hv.ordered).sorted lower key

/-- Unless two maps meet, the upper value is taken if there is one, and the lower one otherwise. -/
theorem layOver_eq_or {base top : Option Value}
    (h : (∀ v, base = some v → v.isMap = false) ∨ ∀ v, top = some v → v.isMap = false) :
    layOver base top = top.or base := by
  cases top with
  | none => rfl
  | some v =>
    cases base with
    | none => rfl
    | some below =>
      rw [some_layOver_some, Option.some_or]
      rcases h with h | h
      · rw [merge_eq_of_isMap_base (h below rfl)]
      · rw [merge_eq_of_isMap_top (h v rfl)]

/-- Nothing, or a map: what leaves something below it visible. -/
def IsOpen (v : Option Value) : Prop := ∀ u, v = some u → u.isMap = true

theorem isOpen_none : IsOpen none := by simp [IsOpen]

theorem isOpen_some_iff {v : Value} : IsOpen (some v) ↔ v.isMap = true := by simp [IsOpen]

/-- Laying a value over something gives a map exactly if the value is one. -/
theorem isOpen_layOver_some_iff {base : Option Value} {v : Value} :
    IsOpen (layOver base (some v)) ↔ v.isMap = true := by
  cases base with
  | none => rw [none_layOver, isOpen_some_iff]
  | some below => rw [some_layOver_some, isOpen_some_iff, isMap_merge]

/-- Over what is open, what is laid decides. -/
theorem isOpen_layOver_iff {base top : Option Value} (h : IsOpen base) :
    IsOpen (layOver base top) ↔ IsOpen top := by
  cases top with
  | none => exact iff_of_true h isOpen_none
  | some v => rw [isOpen_layOver_some_iff, isOpen_some_iff]

/-- What is there and is not a map hides what is below it. -/
theorem layOver_of_not_isOpen {base top : Option Value} (h : ¬ IsOpen top) :
    layOver base top = top := by
  cases top with
  | none => exact absurd isOpen_none h
  | some v =>
    have hv : v.isMap = false := by simpa [isOpen_some_iff] using h
    rw [layOver_eq_or (.inr fun u hu ↦ Option.some.inj hu ▸ hv), Option.some_or]

/-- There is nothing in two layers exactly if there is nothing in either. -/
theorem layOver_eq_none_iff {base top : Option Value} :
    layOver base top = none ↔ base = none ∧ top = none := by
  cases base <;> cases top <;> simp [layOver]

/-! ### Adding keys -/

/-- The value with another one put under a key; what is not a map stays as it is. -/
def put (d : Value) (key : String) (v : Value) : Value :=
  match d with
  | .map entries => .map (Dict.insertEntry key v entries)
  | d => d

/-- The value with another one put at a path of keys, with new maps on the way where there is
nothing. -/
def putAt (d : Value) : (path : List String) → (v : Value) → Value
  | [], v => v
  | key :: path, v => d.put key (((d.child? key).getD (.map [])).putAt path v)

/-- Putting a value under a key makes a map of nothing else. -/
@[simp] theorem isMap_put (d : Value) (key : String) (v : Value) :
    (d.put key v).isMap = d.isMap := by
  cases d <;> rfl

theorem put_of_isMap_eq_false {d : Value} (h : d.isMap = false) (key : String) (v : Value) :
    d.put key v = d := by
  cases d with
  | map entries => cases h
  | _ => rfl

/-- A map has what was put under a key. -/
theorem child?_put_self {d : Value} (h : d.isMap = true) (key : String) (v : Value) :
    (d.put key v).child? key = some v := by
  obtain ⟨entries, rfl⟩ := exists_eq_map_of_isMap h
  exact (Dict.find?_insertEntry key key v entries).trans (if_pos rfl)

/-- Putting a value under a key does not matter to other keys. -/
theorem child?_put_of_ne {key k : String} (h : k ≠ key) (d v : Value) :
    (d.put key v).child? k = d.child? k := by
  cases d with
  | map entries => exact (Dict.find?_insertEntry key k v entries).trans (if_neg h)
  | _ => rfl

theorem at?_singleton (v : Value) (key : String) : v.at? [key] = v.child? key := by
  show (v.child? key).bind some = _
  rw [Option.bind_fun_some]

theorem at?_pair (v : Value) (key k : String) :
    v.at? [key, k] = (v.child? key).bind (·.child? k) := by
  show (v.child? key).bind (·.at? [k]) = _
  simp only [at?_singleton]

/-- Nothing counts as an empty map when it is asked for keys. -/
theorem at?_getD (v : Option Value) (key : String) (path : List String) :
    (v.getD (.map [])).at? (key :: path) = v.bind (·.at? (key :: path)) := by
  cases v <;> rfl

/-- Putting a value somewhere changes nothing where a path turns off the way there. -/
theorem at?_putAt {key k : String} (h : k ≠ key) (way path rest : List String) (v d : Value) :
    (d.putAt (way ++ key :: path) v).at? (way ++ k :: rest) = d.at? (way ++ k :: rest) := by
  induction way generalizing d with
  | nil =>
    show ((d.put key _).child? k).bind _ = (d.child? k).bind _
    rw [child?_put_of_ne h]
  | cons a way ih =>
    show ((d.put a _).child? a).bind _ = (d.child? a).bind _
    rcases hd : d.isMap with - | -
    · rw [put_of_isMap_eq_false hd]
    · rw [child?_put_self hd, Option.bind_some]
      refine (ih _).trans ?_
      -- The path goes on, so that nothing and an empty map show the same.
      cases way <;> exact at?_getD _ _ _

end GrammarExport.Settings.Value
