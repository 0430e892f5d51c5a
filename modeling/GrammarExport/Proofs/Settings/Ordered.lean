import GrammarExport.Proofs.Reading.Reader
import GrammarExport.Settings.Environment

/-!
# The order of settings documents

A document is **ordered** (`Value.Ordered`) if the entries of each of its maps stand in strictly
ascending order of their keys, so that a key occurs once. Only what is reached through maps counts:
a list is laid over another value as a whole, and no key is looked up in what it holds.

Order is what makes the merging of documents a matter of single keys. `Value.mergeEntries` takes
the upper entries one after the other, and it is only because their keys differ that each key of the
result depends on the two values below it (`Value.find?_mergeEntries`).

Ordered documents merge to ordered ones (`Value.Ordered.merge`), and what the environment says is
ordered (`Environment.isDocument_document`), since its maps are built by `Dict.insertEntry` only.
-/

namespace GrammarExport

namespace Dict

variable {α : Type} {P : α → Prop} {entries : List (String × α)}

/-- Entries in strictly ascending order of their keys, with a property of their values. -/
structure Ascending (P : α → Prop) (entries : List (String × α)) : Prop where
  sorted : entries.Pairwise fun a b ↦ a.1 < b.1
  values : ∀ e ∈ entries, P e.2

namespace Ascending

theorem nil : Ascending P [] := ⟨.nil, by simp⟩

theorem singleton {key : String} {v : α} (hv : P v) : Ascending P [(key, v)] :=
  ⟨List.pairwise_singleton _ _, by simpa using hv⟩

/-- An entry is inserted at its place. -/
theorem insertEntry (h : Ascending P entries) (key : String) {v : α} (hv : P v) :
    Ascending P (insertEntry key v entries) := by
  refine ⟨pairwise_insertEntry key v h.sorted, fun e he ↦ ?_⟩
  rcases mem_insertEntry he with heq | hmem
  · exact heq ▸ hv
  · exact h.values e hmem

theorem of_find? (h : Ascending P entries) {key : String} {v : α}
    (hfind : find? key entries = some v) : P v := h.values _ (mem_of_find?_eq_some hfind)

end Ascending

/-- Nothing is found under a key that comes before all others. -/
theorem find?_eq_none_of_forall_lt {key : String} (h : ∀ e ∈ entries, key < e.1) :
    find? key entries = none := by
  rcases hfind : find? key entries with - | v
  · rfl
  · exact absurd (h _ (mem_of_find?_eq_some hfind)) (String.lt_irrefl key)

end Dict

namespace Reader

variable {α β : Type} {P : α → Prop} {Q : β → Prop}

theorem exists_of_map_eq_some {o : Option (α × List Char)} {f : α → β} {b : β} {r : List Char}
    (h : (o.map fun (a, r) ↦ (f a, r)) = some (b, r)) : ∃ a, o = some (a, r) ∧ f a = b := by
  obtain ⟨⟨a, m⟩, ho, heq⟩ := Option.map_eq_some_iff.1 h
  obtain ⟨hf, rfl⟩ := Prod.mk.inj heq
  exact ⟨a, ho, hf⟩

/-- A property of everything that a reader can give. -/
def Yields (p : Reader α) (P : α → Prop) : Prop := ∀ s a r, p s = some (a, r) → P a

namespace Yields

theorem pure {a : α} (h : P a) : (pure a : Reader α).Yields P := by
  intro s b r hb
  obtain ⟨rfl, -⟩ := pure_eq_some_iff.1 hb
  exact h

theorem failure : (failure : Reader α).Yields P := by
  intro s a r h
  rw [failure_eq_none] at h
  cases h

/-- A property of what the second reader gives may rest on one of what the first one gave. -/
theorem bind {p : Reader α} {f : α → Reader β} (hp : p.Yields P)
    (hf : ∀ a, P a → (f a).Yields Q) : (p >>= f).Yields Q := by
  intro s b r h
  obtain ⟨a, m, ha, hb⟩ := bind_eq_some_iff.1 h
  exact hf a (hp s a m ha) m b r hb

/-- Only the last step of a `do` block matters. -/
theorem after {p : Reader α} {f : α → Reader β} (hf : ∀ a, (f a).Yields Q) :
    (p >>= f).Yields Q :=
  bind (P := fun _ ↦ True) (fun _ _ _ _ ↦ trivial) fun a _ ↦ hf a

theorem either {p q : Reader α} (hp : p.Yields P) (hq : q.Yields P) : (either p q).Yields P := by
  intro s a r h
  rw [Reader.either] at h
  rcases hps : p s with - | x
  · rw [hps] at h
    exact hq s a r h
  · rw [hps] at h
    exact hp s a r (hps.trans h)

end Yields

end Reader

namespace Settings

namespace Value

/-- Whether a value is a map. -/
def isMap : Value → Bool
  | .map _ => true
  | _ => false

/-- A value whose maps, down to what is not a map, have their entries in strictly ascending order
of their keys. -/
inductive Ordered : Value → Prop where
  | map {entries : List (String × Value)} (sorted : entries.Pairwise fun a b ↦ a.1 < b.1)
      (values : ∀ e ∈ entries, Ordered e.2) : Ordered (.map entries)
  | other {v : Value} (h : v.isMap = false) : Ordered v

/-- A map is ordered if its keys are in ascending order and its values are ordered. -/
theorem ordered_map_iff {entries : List (String × Value)} :
    (Value.map entries).Ordered ↔ Dict.Ascending Ordered entries := by
  constructor
  · intro h
    cases h with
    | map sorted values => exact ⟨sorted, values⟩
    | other h => cases h
  · intro h
    exact .map h.sorted h.values

theorem exists_eq_map_of_isMap {v : Value} (h : v.isMap = true) : ∃ entries, v = .map entries := by
  cases v with
  | map entries => exact ⟨entries, rfl⟩
  | _ => cases h

/-- An ordered map, as whole documents are. -/
structure IsDocument (d : Value) : Prop where
  ordered : d.Ordered
  isMap : d.isMap = true

/-- What a document has under a key is ordered. -/
theorem IsDocument.ordered_child? {d v : Value} {key : String} (h : d.IsDocument)
    (hv : d.child? key = some v) : v.Ordered := by
  obtain ⟨entries, rfl⟩ := exists_eq_map_of_isMap h.isMap
  exact (ordered_map_iff.1 h.ordered).of_find? hv

/-! ### Merging -/

/-- Anything replaces what is not a map. -/
theorem merge_eq_of_isMap_base {base top : Value} (h : base.isMap = false) :
    base.merge top = top := by
  cases top with
  | map top =>
    cases base with
    | map entries => cases h
    | _ => simp [merge]
  | _ => simp [merge]

/-- What is not a map replaces anything. -/
theorem merge_eq_of_isMap_top {base top : Value} (h : top.isMap = false) :
    base.merge top = top := by
  cases top with
  | map top => cases h
  | _ => simp [merge]

theorem merge_map_map (entries top : List (String × Value)) :
    (Value.map entries).merge (.map top) = .map (mergeEntries entries top) := by simp [merge]

/-- Whether the outcome is a map is decided by what is laid on top. -/
theorem isMap_merge (base top : Value) : (base.merge top).isMap = top.isMap := by
  cases top with
  | map top =>
    cases base with
    | map entries => rw [merge_map_map]; rfl
    | _ => rw [merge_eq_of_isMap_base rfl]
  | _ => rw [merge_eq_of_isMap_top rfl]

/-- A value laid over another one where either may be absent. -/
def layOver (base : Option Value) : (top : Option Value) → Option Value
  | none => base
  | some v =>
    match base with
    | some below => some (below.merge v)
    | none => some v

@[simp] theorem layOver_none (base : Option Value) : layOver base none = base := rfl

@[simp] theorem none_layOver (top : Option Value) : layOver none top = top := by
  cases top <;> rfl

@[simp] theorem some_layOver_some (below v : Value) :
    layOver (some below) (some v) = some (below.merge v) := rfl

/-- A key of merged entries has what it has in the upper ones laid over what it has in the lower
ones. -/
theorem find?_mergeEntries {top : List (String × Value)} (h : top.Pairwise fun a b ↦ a.1 < b.1)
    (base : List (String × Value)) (key : String) :
    Dict.find? key (mergeEntries base top) =
      layOver (Dict.find? key base) (Dict.find? key top) := by
  induction top generalizing base with
  | nil => rw [mergeEntries]; rfl
  | cons e top ih =>
    have he := List.pairwise_cons.1 h
    rw [mergeEntries, ih he.2, Dict.find?_insertEntry, Dict.find?]
    by_cases hkey : key = e.1
    · -- The key does not come up again among the entries that are still to be laid over.
      have hrest : Dict.find? key top = none :=
        Dict.find?_eq_none_of_forall_lt fun x hx ↦ hkey ▸ he.1 x hx
      rw [if_pos hkey, if_pos hkey, hrest, layOver_none, hkey]
      rcases Dict.find? e.1 base with - | below <;> rfl
    · rw [if_neg hkey, if_neg hkey]

/-- Merging keeps entries in ascending order, if merging their values keeps them ordered. -/
theorem ascending_mergeEntries {top : List (String × Value)}
    (ht : ∀ e ∈ top, e.2.Ordered ∧ ∀ base : Value, base.Ordered → (base.merge e.2).Ordered)
    {base : List (String × Value)} (hb : Dict.Ascending Ordered base) :
    Dict.Ascending Ordered (mergeEntries base top) := by
  induction top generalizing base with
  | nil => rwa [mergeEntries]
  | cons e top ih =>
    rw [mergeEntries]
    refine ih (fun x hx ↦ ht x (List.mem_cons_of_mem _ hx)) (hb.insertEntry _ ?_)
    obtain ⟨he, hmerge⟩ := ht e List.mem_cons_self
    rcases hfind : Dict.find? e.1 base with - | below
    · exact he
    · exact hmerge below (hb.of_find? hfind)

/-- Ordered values merge to ordered ones. -/
theorem Ordered.merge {base top : Value} (hb : base.Ordered) (ht : top.Ordered) :
    (base.merge top).Ordered := by
  induction ht generalizing base with
  | other h => rw [merge_eq_of_isMap_top h]; exact .other h
  | map sorted values ih =>
    rcases hmap : base.isMap with - | -
    · rw [merge_eq_of_isMap_base hmap]
      exact .map sorted values
    · obtain ⟨entries, rfl⟩ := exists_eq_map_of_isMap hmap
      rw [merge_map_map, ordered_map_iff]
      exact ascending_mergeEntries (fun e he ↦ ⟨values e he, fun _ h ↦ ih e he h⟩)
        (ordered_map_iff.1 hb)

theorem IsDocument.merge {base top : Value} (hb : base.IsDocument) (ht : top.IsDocument) :
    (base.merge top).IsDocument :=
  ⟨hb.ordered.merge ht.ordered, (isMap_merge base top).trans ht.isMap⟩

/-- A value below a path of keys is ordered if the value is. -/
theorem Ordered.nested {v : Value} (hv : v.Ordered) (path : List String) :
    (nested path v).Ordered := by
  induction path with
  | nil => exact hv
  | cons key path ih => exact ordered_map_iff.2 (.singleton ih)

/-- A map is ordered, in whatever order its entries were given. -/
theorem ordered_ofEntries {entries : List (String × Value)} (h : ∀ e ∈ entries, e.2.Ordered) :
    (ofEntries entries).Ordered := by
  rw [ofEntries, ordered_map_iff]
  exact List.foldlRecOn (motive := Dict.Ascending Ordered) entries _ .nil
    fun m hm e he ↦ hm.insertEntry _ (h e he)

end Value

/-! ### What the environment says -/

namespace Variable

open Value (Ordered)

/-- Plain text has nothing in it that could be out of order. -/
theorem ordered_plainValue (s : List Char) : (plainValue s).Ordered := by
  rw [plainValue]
  split
  · exact .other rfl
  · split
    · exact .other rfl
    · split <;> exact .other rfl

/-- Items between commas have the property that each of them has. -/
theorem yields_items {α : Type} {P : α → Prop} {closing : Char} {item : Reader α}
    (h : item.Yields P) : Reader.Yields (items closing item) fun as ↦ ∀ a ∈ as, P a := by
  intro s
  fun_induction items closing item s with
  | case1 s r hr => simp
  | case2 s hr hi => simp
  | case3 s hr a r hi m hm =>
    intro as r' heq
    obtain ⟨rfl, -⟩ := Prod.mk.inj (Option.some.inj heq)
    simpa using h s a r hi
  | case4 => simp
  | case5 s hr a r hi hc r' hcomma hlt ih =>
    intro as r'' heq
    obtain ⟨as', hrest, rfl⟩ := Reader.exists_of_map_eq_some heq
    exact List.forall_mem_cons.2 ⟨h s a r hi, ih as' r'' hrest⟩
  | case6 => simp

theorem yields_entry {value : Reader Value} (h : value.Yields Ordered) :
    (entry value).Yields fun e ↦ e.2.Ordered :=
  .after fun _ ↦ .after fun _ ↦ .after fun _ ↦ .after fun _ ↦ .bind h fun _ hv ↦ .pure hv

/-- A value is ordered if the values that are read inside it are. -/
theorem yields_bare {inner : Reader Value} (h : inner.Yields Ordered) :
    (bare inner).Yields Ordered := by
  intro s v r hv
  unfold bare at hv
  split at hv
  · cases hv; exact .other rfl
  · split at hv
    · cases hv; exact .other rfl
    · split at hv
      · obtain ⟨es, hes, rfl⟩ := Reader.exists_of_map_eq_some hv
        exact Value.ordered_ofEntries (yields_items (yields_entry h) _ _ _ hes)
      · obtain ⟨_, -, rfl⟩ := Reader.exists_of_map_eq_some hv
        exact .other rfl
      · obtain ⟨_, -, rfl⟩ := Reader.exists_of_map_eq_some hv
        exact .other rfl
      · cases hv; exact .other rfl
      · cases hv
      · cases hv; exact ordered_plainValue _

/-- At any depth, values that are read are ordered. -/
theorem yields_valueWithin (depth : Nat) : (valueWithin depth).Yields Ordered := by
  induction depth with
  | zero => exact .failure
  | succ depth ih =>
    exact .after fun _ ↦ .bind (yields_bare ih) fun _ hv ↦ .after fun _ ↦ .pure hv

/-- The value of a variable is ordered, whatever its text. -/
theorem ordered_valueOf (text : String) : (valueOf text).Ordered := by
  rw [valueOf, Reader.whole]
  split
  · rename_i v hv
    split at hv
    · rename_i u hu
      cases hv
      exact yields_valueWithin _ _ _ _ hu
    · cases hv
  · exact .other rfl

/-- A text has at least one part between points. -/
theorem splitPoints_ne_nil (s : List Char) : splitPoints s ≠ [] := by
  cases s with
  | nil => simp [splitPoints]
  | cons c s =>
    rw [splitPoints]
    split
    · simp
    · split <;> simp

/-- A setting has at least one key. -/
theorem ne_nil_of_path? {name : String} {path : List String} (h : path? name = some path) :
    path ≠ [] := by
  rw [path?, Option.bind_eq_bind, Option.bind_eq_some_iff] at h
  obtain ⟨rest, -, h⟩ := h
  dsimp only at h
  split at h
  · cases h
  · cases h
    simpa using splitPoints_ne_nil _

end Variable

namespace Environment

/-- One more variable is laid over the document of those before it, if it names a setting. -/
theorem document_concat (env : Environment) (name text : String) :
    Environment.document (env ++ [(name, text)]) =
      match Variable.path? name with
      | some path => env.document.merge (Value.nested path (Variable.valueOf text))
      | none => env.document := by
  rw [document, List.foldl_append]
  rfl

/-- What the environment says is an ordered map. -/
theorem isDocument_document (env : Environment) : env.document.IsDocument := by
  refine List.foldlRecOn (motive := Value.IsDocument) env _
    ⟨Value.ordered_map_iff.2 .nil, rfl⟩ fun d hd entry _ ↦ ?_
  show Value.IsDocument (match Variable.path? entry.1 with | some path => d.merge _ | none => d)
  rcases hpath : Variable.path? entry.1 with - | path
  · exact hd
  · refine hd.merge ⟨(Variable.ordered_valueOf _).nested path, ?_⟩
    cases path with
    | nil => exact absurd rfl (Variable.ne_nil_of_path? hpath)
    | cons key path => rfl

end Environment

end Settings

end GrammarExport
