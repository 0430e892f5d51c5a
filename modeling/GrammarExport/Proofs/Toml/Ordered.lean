import GrammarExport.Proofs.Settings.Ordered
import GrammarExport.Toml.Document

/-!
# The order of TOML documents

What a TOML document says is an ordered map (`Toml.isDocument_of_read?`). Every line changes the
tables of the document at one place (`descend`), and puts what it defines there with
`Dict.insertEntry`: that keeps the entries of each table on the way in order
(`Item.Ordered.descend`), so the four changes a line can make keep them in order too, and so does
a whole text (`Line.Ordered.apply`).
-/

namespace GrammarExport.Toml

open Settings (Value)
open Dict (Ascending)

/-! ### Tables -/

/-- An item whose tables have their entries in strictly ascending order. Arrays of tables become
lists, so nothing is asked of them. -/
inductive Item.Ordered : Item → Prop where
  | value {v : Value} (h : v.Ordered) : Ordered (.value v)
  | table (implicit dotted : Bool) {entries : Entries}
      (sorted : entries.Pairwise fun a b ↦ a.1 < b.1) (values : ∀ e ∈ entries, Ordered e.2) :
      Ordered (.table implicit dotted entries)
  | tables (items : List Entries) : Ordered (.tables items)

/-- A table is ordered if its keys are in ascending order and its items are ordered. -/
theorem Item.ordered_table_iff {implicit dotted : Bool} {entries : Entries} :
    (Item.table implicit dotted entries).Ordered ↔ Ascending Item.Ordered entries := by
  constructor
  · intro h
    cases h with
    | table _ _ sorted values => exact ⟨sorted, values⟩
  · intro h
    exact .table _ _ h.sorted h.values

/-- The values of entries are those of each of them, under the same keys. -/
theorem entriesToValues_eq_map (entries : Entries) :
    entriesToValues entries = entries.map fun e ↦ (e.1, e.2.toValue) := by
  induction entries with
  | nil => simp [entriesToValues]
  | cons e entries ih => simp [entriesToValues, ih]

/-- Entries that are in order have values that are in order. -/
theorem ascending_entriesToValues {P : Item → Prop} {Q : Value → Prop} {entries : Entries}
    (h : Ascending P entries) (hP : ∀ e ∈ entries, P e.2 → Q e.2.toValue) :
    Ascending Q (entriesToValues entries) := by
  rw [entriesToValues_eq_map]
  refine ⟨List.pairwise_map.2 h.sorted, fun x hx ↦ ?_⟩
  obtain ⟨e, he, rfl⟩ := List.mem_map.1 hx
  exact hP e he (h.values e he)

theorem Item.Ordered.toValue {item : Item} (h : item.Ordered) : item.toValue.Ordered := by
  induction h with
  | value h => rwa [Item.toValue]
  | tables items => rw [Item.toValue]; exact .other rfl
  | table implicit dotted sorted values ih =>
    rw [Item.toValue, Value.ordered_map_iff]
    exact ascending_entriesToValues ⟨sorted, values⟩ fun e he _ ↦ ih e he

/-- The values of entries that are in order make a document. -/
theorem isDocument_entriesToValues {entries : Entries} (h : Ascending Item.Ordered entries) :
    (Value.map (entriesToValues entries)).IsDocument :=
  ⟨Value.ordered_map_iff.2 (ascending_entriesToValues h fun _ _ he ↦ he.toValue), rfl⟩

/-- A change of entries that keeps them in order. -/
def Keeps (change : Entries → Option Entries) : Prop :=
  ∀ ⦃entries entries' : Entries⦄, Ascending Item.Ordered entries →
    change entries = some entries' → Ascending Item.Ordered entries'

/-- Changing the table at the end of a path keeps the tables on the way in order. -/
theorem Keeps.descend {byDots : Bool} {change : Bool → Entries → Option Entries}
    (h : ∀ dotted, Keeps (change dotted)) (path : List String) (dotted : Bool) :
    Keeps (descend byDots change path dotted) := by
  induction path generalizing dotted with
  | nil => exact h dotted
  | cons key path ih =>
    intro entries entries' hentries heq
    rw [Toml.descend] at heq
    split at heq
    · obtain ⟨inner, hinner, hinsert⟩ := Option.bind_eq_some_iff.1 heq
      cases hinsert
      exact hentries.insertEntry key (Item.ordered_table_iff.2 (ih _ .nil hinner))
    · rename_i implicit isDotted inner₀ hfind
      split at heq
      · cases heq
      · obtain ⟨inner, hinner, hinsert⟩ := Option.bind_eq_some_iff.1 heq
        cases hinsert
        have hinner₀ := Item.ordered_table_iff.1 (hentries.of_find? hfind)
        exact hentries.insertEntry key (Item.ordered_table_iff.2 (ih _ hinner₀ hinner))
    · split at heq
      · cases heq
      · obtain ⟨inner, -, hinsert⟩ := Option.bind_eq_some_iff.1 heq
        cases hinsert
        exact hentries.insertEntry key (.tables _)
    · cases heq

/-- Defining a value keeps entries in order. -/
theorem keeps_define {path : List String} {v : Value} (hv : v.Ordered) :
    Keeps (define path v) := by
  intro entries entries' hentries heq
  obtain ⟨⟨way, key⟩, -, heq⟩ := Option.bind_eq_some_iff.1 heq
  refine Keeps.descend (fun dotted inner inner' hinner h ↦ ?_) way false hentries heq
  split at h
  · cases h
  · split at h
    · cases h
    · cases h
      exact hinner.insertEntry key (.value hv)

theorem keeps_openTable (path : List String) : Keeps (openTable path) := by
  intro entries entries' hentries heq
  obtain ⟨⟨way, key⟩, -, heq⟩ := Option.bind_eq_some_iff.1 heq
  refine Keeps.descend (fun dotted inner inner' hinner h ↦ ?_) way false hentries heq
  split at h
  · cases h
    exact hinner.insertEntry key (Item.ordered_table_iff.2 .nil)
  · rename_i hfind
    cases h
    exact hinner.insertEntry key
      (Item.ordered_table_iff.2 (Item.ordered_table_iff.1 (hinner.of_find? hfind)))
  · cases h

theorem keeps_addTable (path : List String) : Keeps (addTable path) := by
  intro entries entries' hentries heq
  obtain ⟨⟨way, key⟩, -, heq⟩ := Option.bind_eq_some_iff.1 heq
  refine Keeps.descend (fun dotted inner inner' hinner h ↦ ?_) way false hentries heq
  split at h
  · cases h
    exact hinner.insertEntry key (.tables _)
  · cases h
    exact hinner.insertEntry key (.tables _)
  · cases h

/-! ### Values -/

theorem yields_integer : integer.Yields Value.Ordered := by
  have hvalue : ∀ {negative n v}, integerValue negative n = some v → v.Ordered := by
    intro negative n v h
    obtain ⟨i, -, rfl⟩ := Option.map_eq_some_iff.1 h
    exact .other rfl
  intro s v r h
  unfold integer at h
  split at h
  all_goals
    obtain ⟨ds, -, h⟩ := Option.bind_eq_some_iff.1 h
    obtain ⟨u, hu, h⟩ := Option.bind_eq_some_iff.1 h
    cases h
    exact hvalue hu

theorem yields_float : float.Yields Value.Ordered := by
  refine .after fun _ ↦ .after fun _ ↦ ?_
  dsimp only
  split
  · exact .failure
  · exact .pure (.other rfl)

theorem yields_specialFloat : specialFloat.Yields Value.Ordered := by
  refine .after fun _ s v r h ↦ ?_
  split at h
  · cases h; exact .other rfl
  · cases h; exact .other rfl
  · cases h

theorem yields_dateTime : dateTime.Yields Value.Ordered := by
  intro s v r h
  obtain ⟨⟨_, m⟩, -, heq⟩ := Option.map_eq_some_iff.1 h
  cases heq
  exact Value.ordered_map_iff.2 (.singleton (.other rfl))

/-- Scalars have nothing in them that could be out of order. -/
theorem yields_scalar : scalar.Yields Value.Ordered := by
  intro s v r h
  unfold scalar at h
  split at h
  · obtain ⟨_, -, rfl⟩ := Reader.exists_of_map_eq_some h
    exact .other rfl
  · obtain ⟨_, -, rfl⟩ := Reader.exists_of_map_eq_some h
    exact .other rfl
  · cases h; exact .other rfl
  · cases h; exact .other rfl
  · exact Reader.Yields.either yields_dateTime
      (.either yields_float (.either yields_specialFloat yields_integer)) _ _ _ h

theorem yields_assignment {value : Reader Value} (h : value.Yields Value.Ordered) :
    (assignment value).Yields fun a ↦ a.2.Ordered :=
  .after fun _ ↦ .after fun _ ↦ .after fun _ ↦ .bind h fun _ hv ↦ .pure hv

/-- The values of an inline table's assignments are ordered if those inside them are. -/
theorem yields_inlineAssignments {value : Reader Value} (h : value.Yields Value.Ordered) :
    Reader.Yields (inlineAssignments value) fun as ↦ ∀ a ∈ as, a.2.Ordered := by
  intro s
  fun_induction inlineAssignments value s with
  | case1 => simp
  | case2 s a r ha m hm =>
    intro as r' heq
    cases heq
    simpa using yields_assignment h s a r ha
  | case3 s a r ha r' hr' hlt ih =>
    intro as r'' heq
    obtain ⟨as', hrest, rfl⟩ := Reader.exists_of_map_eq_some heq
    exact List.forall_mem_cons.2 ⟨yields_assignment h s a r ha, ih as' r'' hrest⟩
  | case4 => simp
  | case5 => simp

/-- Defining values one after the other keeps entries in order. -/
theorem ascending_foldlM_define {assignments : List (List String × Value)}
    (h : ∀ a ∈ assignments, a.2.Ordered) :
    Keeps fun t ↦ assignments.foldlM (fun t (path, v) ↦ define path v t) t := by
  induction assignments with
  | nil =>
    intro t t' ht heq
    cases heq
    exact ht
  | cons a assignments ih =>
    intro t t' ht heq
    obtain ⟨ha, hrest⟩ := List.forall_mem_cons.1 h
    obtain ⟨m, hm, heq⟩ := Option.bind_eq_some_iff.1 heq
    exact ih hrest (keeps_define ha ht hm) heq

theorem yields_inlineTable {value : Reader Value} (h : value.Yields Value.Ordered) :
    (inlineTable value).Yields Value.Ordered := by
  intro s v r heq
  unfold inlineTable at heq
  split at heq
  · cases heq
    exact Value.ordered_map_iff.2 .nil
  · obtain ⟨⟨assignments, m⟩, has, heq⟩ := Option.bind_eq_some_iff.1 heq
    obtain ⟨entries, hentries, heq⟩ := Option.bind_eq_some_iff.1 heq
    have hassignments := yields_inlineAssignments h s assignments m has
    cases heq
    exact (isDocument_entriesToValues (ascending_foldlM_define hassignments .nil hentries)).ordered

theorem yields_valueAround {inner : Reader Value} (h : inner.Yields Value.Ordered) :
    (valueAround inner).Yields Value.Ordered := by
  intro s v r heq
  unfold valueAround at heq
  split at heq
  · obtain ⟨_, -, rfl⟩ := Reader.exists_of_map_eq_some heq
    exact .other rfl
  · exact yields_inlineTable h _ _ _ heq
  · exact yields_scalar _ _ _ heq

/-- At any depth, values that are read are ordered. -/
theorem yields_valueWithin (depth : Nat) : (valueWithin depth).Yields Value.Ordered := by
  induction depth with
  | zero => exact yields_valueAround .failure
  | succ depth ih => exact yields_valueAround ih

theorem yields_value : value.Yields Value.Ordered :=
  fun s v r h ↦ yields_valueWithin s.length s v r h

/-! ### Lines -/

/-- A line that defines an ordered value, or none. -/
def Line.Ordered : Line → Prop
  | .define _ v => v.Ordered
  | _ => True

/-- What a line says is in order. -/
theorem yields_line : line.Yields Line.Ordered := by
  refine .after fun _ ↦ .bind (P := Line.Ordered) (fun s l r h ↦ ?_)
    fun _ hl ↦ .after fun _ ↦ .pure hl
  split at h
  · exact Reader.Yields.after (fun _ ↦ .after fun _ ↦ .pure trivial) _ _ _ h
  · exact Reader.Yields.after (fun _ ↦ .after fun _ ↦ .pure trivial) _ _ _ h
  · cases h; trivial
  · cases h; trivial
  · cases h; trivial
  · cases h; trivial
  · refine Reader.Yields.bind (yields_assignment yields_value) (fun a ha ↦ ?_) _ _ _ h
    exact .pure ha

/-- What the lines of a text say is in order, line by line. -/
theorem ordered_of_lines {s : List Char} {ls : List Line} (h : lines s = some ls) :
    ∀ l ∈ ls, l.Ordered := by
  fun_induction lines s generalizing ls with
  | case1 => cases h; simp
  | case2 => cases h
  | case3 s hs l r hl hlt ih =>
    obtain ⟨ls', hls', rfl⟩ := Option.map_eq_some_iff.1 h
    exact List.forall_mem_cons.2 ⟨yields_line s l r hl, ih hls'⟩
  | case4 => cases h

/-- One line keeps the document in order. -/
theorem Line.Ordered.apply {l : Line} (hl : l.Ordered) {state state' : List String × Entries}
    (hstate : Ascending Item.Ordered state.2) (h : l.apply state = some state') :
    Ascending Item.Ordered state'.2 := by
  cases l with
  | empty => cases h; exact hstate
  | define path v =>
    obtain ⟨entries, heq, rfl⟩ := Option.map_eq_some_iff.1 h
    exact Keeps.descend (fun _ ↦ keeps_define hl) state.1 false hstate heq
  | table path =>
    obtain ⟨entries, heq, rfl⟩ := Option.map_eq_some_iff.1 h
    exact keeps_openTable path hstate heq
  | arrayTable path =>
    obtain ⟨entries, heq, rfl⟩ := Option.map_eq_some_iff.1 h
    exact keeps_addTable path hstate heq

/-- Lines one after the other keep the document in order. -/
theorem ascending_foldlM_apply {ls : List Line} (hls : ∀ l ∈ ls, l.Ordered)
    {state state' : List String × Entries} (hstate : Ascending Item.Ordered state.2)
    (h : ls.foldlM (fun state l ↦ l.apply state) state = some state') :
    Ascending Item.Ordered state'.2 := by
  induction ls generalizing state with
  | nil => cases h; exact hstate
  | cons l ls ih =>
    obtain ⟨hl, hrest⟩ := List.forall_mem_cons.1 hls
    obtain ⟨m, hm, h⟩ := Option.bind_eq_some_iff.1 h
    exact ih hrest (hl.apply hstate hm) h

/-- What a TOML document says is an ordered map. -/
theorem isDocument_of_read? {text : String} {d : Value} (h : read? text = some d) :
    d.IsDocument := by
  obtain ⟨ls, hls, h⟩ := Option.bind_eq_some_iff.1 h
  obtain ⟨⟨header, entries⟩, hentries, h⟩ := Option.bind_eq_some_iff.1 h
  cases h
  exact isDocument_entriesToValues
    (ascending_foldlM_apply (ordered_of_lines hls) .nil hentries)

end GrammarExport.Toml
