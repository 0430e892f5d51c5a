import GrammarExport.Proofs.Publication
import GrammarExport.Proofs.Text.ByteOrder

/-!
# Exports are written once

An exports object answers two kinds of calls: two properties are defined, or a module is initialized
with an accessor (`Exports.Call`). Both come down to one batch of two properties (`Call.batch`),
which is carried out as a whole or refused.

## The record of a run

What a run of calls has written is the row of the batches that succeeded, in order
(`Exports.written`). The properties of the object are this record, put in order:
`Exports.perm_written` says that its entries are a permutation of what has been written. All of
`Exports.written_once` is read off there. An object keeps its keys apart, so no key is written
twice; the record only grows, so nothing that was written changes; and an object is determined by
its entries, so the order of the calls does not matter.
-/

namespace GrammarExport.Exports

/-! ### Calls -/

/-- A call on an exports object. -/
inductive Call where
  /-- Two properties are defined. -/
  | define (first second : Property)
  /-- A module is initialized while the accessors' cells hold certain addresses. -/
  | publish (accessor : Accessor) (cells : Cells)

/-- The two properties that a call is to define, or the error that there are none. -/
def Call.batch : Call → Except Error (Property × Property)
  | define first second => .ok (first, second)
  | publish accessor cells => (accessor.table cells).map fun table ↦
      ((nameKey, .text grammarName), (languageKey, .external (.ofTable table)))

/-- A call, and what it does to the object. -/
def call (e : Exports) : Call → Exports × Except Error Unit
  | .define first second => (host.define first second e).swap
  | .publish accessor cells => ((host.publish accessor cells).runFrom e).value.swap

/-- The object after an attempt to change it, and the answer. -/
def settle (e : Exports) : Except Error Exports → Exports × Except Error Unit
  | .ok e' => (e', .ok ())
  | .error err => (e, .error err)

/-- As a host, an exports object answers and settles as it does on its own. -/
theorem swap_host_define (e : Exports) (first second : Property) :
    (host.define first second e).swap = e.settle (e.define first second) := by
  rcases hdefine : e.define first second with err | e' <;> simp [host, settle, hdefine]

/-- A call defines its batch, if it has one. -/
theorem call_eq (e : Exports) (c : Call) :
    e.call c = e.settle (c.batch.bind fun batch ↦ e.define batch.1 batch.2) := by
  cases c with
  | define first second => exact e.swap_host_define first second
  | publish accessor cells =>
    rw [call, Host.value_publish, Call.batch]
    rcases accessor.table cells with err | table
    · rfl
    · exact e.swap_host_define _ _

/-- The answer to a batch: the first key in order that is defined already is at fault, or else the
key that comes twice. -/
theorem define_eq (e : Exports) (first second : Property) :
    e.define first second =
      if first.1 ∈ e.keys then .error (.alreadyInitialized first.1)
      else if second.1 ∈ e.keys then .error (.alreadyInitialized second.1)
      else if first.1 = second.1 then .error (.alreadyInitialized first.1)
      else .ok ⟨(e.properties.insert first.1 first.2).insert second.1 second.2⟩ := by
  rw [define]
  by_cases hfirst : e.properties.contains first.1 = true
  · simp [keys, Dict.mem_keys_iff, hfirst]
  · by_cases hsecond : e.properties.contains second.1 = true
    · simp [keys, Dict.mem_keys_iff, hfirst, hsecond]
    · simp [keys, Dict.mem_keys_iff, hfirst, hsecond]

/-- **What a call can do**: it fails and changes nothing, or it adds its batch, of which neither key
was defined before. -/
theorem call_cases (e : Exports) (c : Call) :
    (∃ err, e.call c = (e, .error err)) ∨
      ∃ first second, c.batch = .ok (first, second) ∧ first.1 ∉ e.keys ∧ second.1 ∉ e.keys ∧
        first.1 ≠ second.1 ∧
        e.call c = (⟨(e.properties.insert first.1 first.2).insert second.1 second.2⟩, .ok ()) := by
  rw [call_eq]
  rcases hbatch : c.batch with err | ⟨first, second⟩
  · exact .inl ⟨err, rfl⟩
  · show (∃ err, e.settle (e.define first second) = _) ∨ ∃ _ _, _ ∧ _ ∧ _ ∧ _ ∧
      e.settle (e.define first second) = _
    rw [define_eq]
    split_ifs with hfirst hsecond hsame
    · exact .inl ⟨_, rfl⟩
    · exact .inl ⟨_, rfl⟩
    · exact .inl ⟨_, rfl⟩
    · exact .inr ⟨first, second, rfl, hfirst, hsecond, hsame, rfl⟩

/-! ### The record of a run -/

/-- The properties that a call has written, given its answer. -/
def writtenBy (exchange : Call × Except Error Unit) : List Property :=
  match exchange.2, exchange.1.batch with
  | .ok (), .ok (first, second) => [first, second]
  | _, _ => []

/-- The properties that a run of calls has written, in order. -/
def written (e : Exports) (calls : List Call) : List Property :=
  (Run.transcript call e calls).flatMap writtenBy

/-- A call adds to the entries what it has written. -/
theorem perm_writtenBy (e : Exports) (c : Call) :
    (e.call c).1.properties.entries.Perm (e.properties.entries ++ writtenBy (c, (e.call c).2)) := by
  rcases e.call_cases c with ⟨err, hcall⟩ | ⟨first, second, hbatch, hfirst, hsecond, hne, hcall⟩
  · rw [hcall]
    exact .of_eq (List.append_nil _).symm
  · have hfirst' : e.properties.get? first.1 = none := Dict.get?_eq_none_iff.2 hfirst
    have hsecond' : (e.properties.insert first.1 first.2).get? second.1 = none := by
      rw [Dict.get?_insert, if_neg hne.symm]
      exact Dict.get?_eq_none_iff.2 hsecond
    have hinserted := (Dict.perm_entries_insert hsecond' second.2).trans
      ((Dict.perm_entries_insert hfirst' first.2).cons second)
    have hmoved : ([first, second] ++ e.properties.entries).Perm
        (e.properties.entries ++ [first, second]) := List.perm_append_comm
    rw [hcall, writtenBy, hbatch]
    exact (hinserted.trans (.swap first second _)).trans hmoved

/-- **The entries are what has been written.** After a run they are those from before it and what
the run has written, in some order. -/
theorem perm_written (e : Exports) (calls : List Call) :
    (Run.after call e calls).properties.entries.Perm
      (e.properties.entries ++ e.written calls) := by
  induction calls generalizing e with
  | nil => exact .of_eq (List.append_nil _).symm
  | cons c calls ih =>
    rw [Run.after_cons, written, Run.transcript_cons, List.flatMap_cons, ← List.append_assoc]
    exact (ih (e.call c).1).trans ((e.perm_writtenBy c).append_right _)

/-- A run goes on with the object that the calls before it have left. -/
theorem written_append (e : Exports) (calls more : List Call) :
    e.written (calls ++ more) = e.written calls ++ (Run.after call e calls).written more := by
  rw [written, Run.transcript_append, List.flatMap_append, written, written]

theorem length_written (e : Exports) (calls : List Call) :
    (e.written calls).length =
      2 * (Run.transcript call e calls).countP fun exchange ↦ exchange.2.isOk := by
  induction calls generalizing e with
  | nil => rfl
  | cons c calls ih =>
    have hlength : (writtenBy (c, (e.call c).2)).length = if (e.call c).2.isOk then 2 else 0 := by
      rcases e.call_cases c with ⟨err, hcall⟩ | ⟨first, second, hbatch, -, -, -, hcall⟩
      · rw [hcall]
        rfl
      · rw [hcall, writtenBy, hbatch]
        rfl
    rw [written, Run.transcript_cons, List.flatMap_cons, List.length_append, List.countP_cons,
      hlength]
    show _ + ((e.call c).1.written calls).length = _
    rw [ih]
    split <;> omega

section

variable (calls : List Call)

/-- After any calls, a property is there exactly if a call has written it. -/
theorem get?_after_iff {k : String} {v : ExportValue} :
    (Run.after call empty calls).get? k = some v ↔ (k, v) ∈ empty.written calls := by
  rw [get?, ← Dict.mem_entries_iff]
  exact (perm_written empty calls).mem_iff

theorem nodup_written : ((empty.written calls).map Prod.fst).Nodup := by
  have hkeys : (Run.after call empty calls).keys.Nodup :=
    (Dict.pairwise_keys _).imp fun hlt ↦ ne_of_lt hlt
  exact ((perm_written empty calls).map Prod.fst).nodup_iff.1 hkeys

end

/-- **Exports are written once.** After any run of calls on an empty object:

* the keys ascend strictly in the order of their bytes, two for each call that succeeded;
* a key has a value if and only if some call that succeeded has written it, no key is written
  twice, and no further calls change a value;
* a batch is refused if and only if a key of it is defined or comes twice, and the error names the
  first such key;
* a call that fails changes nothing;
* another run that has written the same properties, in any order, leaves the same object. -/
theorem written_once (calls : List Call) :
    ((Run.after call empty calls).keys.Pairwise (fun a b ↦ Utf8.bytes a < Utf8.bytes b) ∧
      (Run.after call empty calls).size =
        2 * (Run.transcript call empty calls).countP fun exchange ↦ exchange.2.isOk) ∧
    (((empty.written calls).map Prod.fst).Nodup ∧
      (∀ k v, (Run.after call empty calls).get? k = some v ↔ (k, v) ∈ empty.written calls) ∧
      ∀ more k v, (Run.after call empty calls).get? k = some v →
        (Run.after call empty (calls ++ more)).get? k = some v) ∧
    (∀ first second, ((Run.after call empty calls).call (.define first second)).2 =
      if first.1 ∈ (Run.after call empty calls).keys then .error (.alreadyInitialized first.1)
      else if second.1 ∈ (Run.after call empty calls).keys then
        .error (.alreadyInitialized second.1)
      else if first.1 = second.1 then .error (.alreadyInitialized first.1)
      else .ok ()) ∧
    (∀ c err, ((Run.after call empty calls).call c).2 = .error err →
      ((Run.after call empty calls).call c).1 = Run.after call empty calls) ∧
    ∀ calls', (∀ p, p ∈ empty.written calls ↔ p ∈ empty.written calls') →
      Run.after call empty calls = Run.after call empty calls' := by
  refine ⟨⟨?_, ?_⟩, ⟨nodup_written calls, fun k v ↦ get?_after_iff calls, ?_⟩, ?_, ?_, ?_⟩
  · exact (Dict.pairwise_keys _).imp fun hlt ↦ Utf8.bytes_lt_iff.2 hlt
  · rw [← length_written]
    exact (perm_written empty calls).length_eq
  · intro more k v h
    rw [get?_after_iff] at h ⊢
    rw [written_append]
    exact List.mem_append_left _ h
  · intro first second
    rw [call_eq]
    show ((Run.after call empty calls).settle (define _ first second)).2 = _
    rw [define_eq]
    split_ifs <;> rfl
  · intro c err h
    rcases call_cases (Run.after call empty calls) c with ⟨_, hcall⟩ | ⟨_, _, -, -, -, -, hcall⟩
    · rw [hcall]
    · rw [hcall] at h
      exact absurd h (by simp)
  · intro calls' h
    have hget : ∀ k,
        (Run.after call empty calls).get? k = (Run.after call empty calls').get? k := by
      intro k
      refine Option.ext fun v ↦ ?_
      rw [get?_after_iff, get?_after_iff, h]
    exact congrArg Exports.mk (Dict.ext_get? hget)

theorem written_once_clashing :
    (Run.after call empty [.define ("b", .text "x") ("a", .text "y"),
        .define ("c", .text "z") ("a", .text "z")]).get? "a" = some (.text "y") ∧
      (Run.after call empty [.define ("b", .text "x") ("a", .text "y")]).call
          (.define ("c", .text "z") ("a", .text "z")) =
        (Run.after call empty [.define ("b", .text "x") ("a", .text "y")],
          .error (.alreadyInitialized "a")) ∧
      Run.after call empty [.define ("b", .text "x") ("a", .text "y")] =
        Run.after call empty [.define ("a", .text "y") ("b", .text "x")] := by
  obtain ⟨-, ⟨-, -, hkept⟩, hanswer, hunchanged, hsame⟩ :=
    written_once [.define ("b", .text "x") ("a", .text "y")]
  have hrefused := hanswer ("c", .text "z") ("a", .text "z")
  rw [if_neg (by decide), if_pos (by decide)] at hrefused
  refine ⟨hkept _ "a" (.text "y") rfl, Prod.ext (hunchanged _ _ hrefused) hrefused, hsame _ ?_⟩
  intro p
  show p ∈ [("b", ExportValue.text "x"), ("a", .text "y")] ↔
    p ∈ [("a", ExportValue.text "y"), ("b", .text "x")]
  simp [or_comm]

end GrammarExport.Exports
