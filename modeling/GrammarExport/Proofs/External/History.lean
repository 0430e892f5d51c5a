import GrammarExport.External
import GrammarExport.Proofs.Run
import Mathlib.Logic.Function.Basic

/-!
# The history of an external

Externals are plain values: they are created, copied and stripped, and tags are put forward to be
attached to them, in any order and any number of times (`External.Act`). Here they are held in
variables, so that a copy has a life of its own.

What counts of this for an external is its `History`: the address it was created with, and the tags
that were put forward since then or since it was last stripped. A history is kept without looking at
any external and without knowing how the attempts were answered (`External.histories`). Yet it
decides everything: the first of the tags was attached, and all later ones were refused.

## What the proof rests on

All operations see of an external its address and its tag (`External.attach_eq`,
`External.value_verify_eq_ok_iff`). So it is enough that these two follow the history
(`External.Follows`), which every act keeps up (`External.follows_act`).
-/

namespace GrammarExport.External

/-! ### What is seen of an external -/

section Seen

variable (e : External) (tag : Tag)

@[simp] theorem tag_untagged (a : Address) : (untagged a).tag = none := rfl

@[simp] theorem tag_ofTable (table : Table) : (ofTable table).tag = some .language := rfl

@[simp] theorem tag_tagged (a : Address) : (⟨a, tag, 1⟩ : External).tag = some tag := rfl

/-- A tag is attached if there is none, and refused with the present one otherwise. -/
theorem attach_eq :
    e.attach tag =
      match e.tag with
      | some present => .error (.alreadyTagged present)
      | none => .ok ⟨e.data, tag, 1⟩ := by
  rw [attach, External.tag]
  split <;> rfl

/-- The test for a tag agrees with the tag that is seen. -/
theorem hasTag_iff : e.hasTag tag = true ↔ e.tag = some tag := by
  rw [hasTag, External.tag]
  cases e.isTagged <;> simp

/-- The boundary check lets the language tag through, to the table at the address. -/
theorem value_verify_eq_ok_iff {table : Table} :
    e.verify.run.value = .ok table ↔ e.tag = some .language ∧ table.address = e.data := by
  rw [← hasTag_iff, ← Table.at?_eq_some_iff]
  by_cases htag : e.hasTag .language = true
  · rcases ht : Table.at? e.data with - | t <;> simp [verify, htag, ht]
  · simp [verify, htag]

end Seen

/-! ### Acts -/

variable {ι : Type*} [DecidableEq ι]

/-- Something that is done with externals in variables. -/
inductive Act (ι : Type*) where
  /-- An external without a tag is created. -/
  | create (x : ι) (data : Address)
  /-- The external of a table is created. -/
  | createFor (x : ι) (table : Table)
  /-- A tag is put forward, to be attached in place. -/
  | attach (x : ι) (tag : Tag)
  /-- One variable gets what another one holds, without its tag. -/
  | strip (x y : ι)
  /-- One variable gets what another one holds. -/
  | copy (x y : ι)

/-- An act, what it does to the variables, and the answer if a tag was put forward. -/
def act (s : ι → Option External) :
    Act ι → (ι → Option External) × Option (Except Error Unit)
  | .create x data => (Function.update s x (some (.untagged data)), none)
  | .createFor x table => (Function.update s x (some (.ofTable table)), none)
  | .attach x tag =>
    match s x with
    | none => (s, none)
    | some e =>
      match e.attach tag with
      | .ok e' => (Function.update s x (some e'), some (.ok ()))
      | .error err => (s, some (.error err))
  | .strip x y => (Function.update s y ((s x).map strip), none)
  | .copy x y => (Function.update s y (s x), none)

/-- What is left of an external after a tag was put forward. -/
def attempted (e : External) (tag : Tag) : External := (e.attach tag).toOption.getD e

section Attach

variable {s : ι → Option External} {x : ι} {e : External} {tag : Tag}

theorem act_attach_of_ok {e' : External} (he : s x = some e) (hattach : e.attach tag = .ok e') :
    act s (.attach x tag) = (Function.update s x (some e'), some (.ok ())) := by
  rw [act, he]
  simp only [hattach]

theorem act_attach_of_error {err : Error} (he : s x = some e)
    (hattach : e.attach tag = .error err) : act s (.attach x tag) = (s, some (.error err)) := by
  rw [act, he]
  simp only [hattach]

/-- Accepted or refused, an attempt to attach a tag leaves the first one that was accepted. -/
theorem act_attach_fst (s : ι → Option External) (x : ι) (tag : Tag) :
    (act s (.attach x tag)).1 = Function.update s x ((s x).map fun e ↦ e.attempted tag) := by
  rcases he : s x with - | e
  · rw [Option.map_none, ← he, Function.update_eq_self, act, he]
  · rcases hattach : e.attach tag with err | e'
    · rw [act_attach_of_error he hattach, Option.map_some, attempted, hattach]
      show s = Function.update s x (some e)
      rw [← he, Function.update_eq_self]
    · rw [act_attach_of_ok he hattach, Option.map_some, attempted, hattach]
      rfl

end Attach

/-! ### Histories -/

/-- Where an external comes from, and the tags that were put forward since it was created or last
stripped, in order. To create the external of a table is to put the language tag forward. -/
structure History where
  address : Address
  tags : List Tag

/-- The histories of variables after an act. -/
def record (h : ι → Option History) : Act ι → ι → Option History
  | .create x data => Function.update h x (some ⟨data, []⟩)
  | .createFor x table => Function.update h x (some ⟨table.address, [.language]⟩)
  | .attach x tag => Function.update h x ((h x).map fun k ↦ { k with tags := k.tags ++ [tag] })
  | .strip x y => Function.update h y ((h x).map fun k ↦ { k with tags := [] })
  | .copy x y => Function.update h y (h x)

/-- The histories of variables after some acts. -/
def histories (acts : List (Act ι)) : ι → Option History := acts.foldl record fun _ ↦ none

/-- An external has the address of its history and the first of the tags. -/
structure Follows (h : History) (e : External) : Prop where
  data : e.data = h.address
  tag : e.tag = h.tags.head?

/-! ### What a history decides -/

section Follows

variable {h : History} {e : External} (hfollows : Follows h e)

include hfollows

/-- A tag that is put forward is attached if it is the first one. -/
theorem Follows.attach_of_nil (hnil : h.tags = []) (tag : Tag) :
    e.attach tag = .ok ⟨e.data, tag, 1⟩ := by
  rw [attach_eq, hfollows.tag, hnil, List.head?_nil]

/-- Every other one is refused. -/
theorem Follows.attach_of_cons {present : Tag} (hhead : h.tags.head? = some present) (tag : Tag) :
    e.attach tag = .error (.alreadyTagged present) := by
  rw [attach_eq, hfollows.tag, hhead]

/-- What is left after an attempt follows the history with the tag added to it. -/
theorem Follows.attempted (tag : Tag) :
    Follows { h with tags := h.tags ++ [tag] } (e.attempted tag) := by
  rcases htags : h.tags with - | ⟨present, later⟩
  · rw [External.attempted, hfollows.attach_of_nil htags]
    exact ⟨hfollows.data, rfl⟩
  · rw [External.attempted, hfollows.attach_of_cons (by rw [htags, List.head?_cons])]
    refine ⟨hfollows.data, ?_⟩
    show e.tag = some present
    rw [hfollows.tag, htags, List.head?_cons]

/-- Stripping begins a new history of tags. -/
theorem Follows.strip : Follows { h with tags := [] } e.strip := ⟨hfollows.data, rfl⟩

/-- The boundary check rests on the first tag of a history and on the pointer. -/
theorem Follows.verify_iff :
    (∃ table, e.verify.run.value = .ok table) ↔
      h.tags.head? = some .language ∧ h.address ≠ .null := by
  simp only [value_verify_eq_ok_iff, hfollows.tag, hfollows.data]
  constructor
  · intro ⟨table, htag, haddress⟩
    exact ⟨htag, haddress ▸ table.nonnull⟩
  · intro ⟨htag, hnull⟩
    exact ⟨⟨h.address, hnull⟩, htag, rfl⟩

end Follows

/-! ### Runs -/

section Runs

variable {h : ι → Option History} {s : ι → Option External}

theorem follows_map {f : History → History} {g : External → External}
    (hfg : ∀ {k e}, Follows k e → Follows (f k) (g e)) {k : Option History} {e : Option External}
    (hk : Option.Rel Follows k e) : Option.Rel Follows (k.map f) (e.map g) := by
  cases hk with
  | some hfollows => exact .some (hfg hfollows)
  | none => exact .none

/-- One variable and its history can be changed at a time. -/
theorem follows_update (hs : ∀ x, Option.Rel Follows (h x) (s x)) {k : Option History}
    {e : Option External} (hk : Option.Rel Follows k e) (y x : ι) :
    Option.Rel Follows (Function.update h y k x) (Function.update s y e x) := by
  by_cases hx : x = y
  · rw [hx, Function.update_self, Function.update_self]
    exact hk
  · rw [Function.update_of_ne hx, Function.update_of_ne hx]
    exact hs x

/-- **Every act keeps up what the histories say.** -/
theorem follows_act (hs : ∀ x, Option.Rel Follows (h x) (s x)) (a : Act ι) (x : ι) :
    Option.Rel Follows (record h a x) ((act s a).1 x) := by
  cases a with
  | create y data => exact follows_update hs (.some ⟨rfl, rfl⟩) y x
  | createFor y table => exact follows_update hs (.some ⟨rfl, rfl⟩) y x
  | attach y tag =>
    rw [act_attach_fst]
    exact follows_update hs (follows_map (fun hfollows ↦ hfollows.attempted tag) (hs y)) y x
  | strip y z =>
    exact follows_update hs (follows_map (fun hfollows ↦ hfollows.strip) (hs y)) z x
  | copy y z => exact follows_update hs (hs y) z x

/-- Along a run, what the variables hold follows their histories. -/
theorem follows_histories (acts : List (Act ι)) (x : ι) :
    Option.Rel Follows (histories acts x) (Run.after act (fun _ ↦ none) acts x) := by
  suffices hrun : ∀ (h : ι → Option History) (s : ι → Option External),
      (∀ x, Option.Rel Follows (h x) (s x)) →
        ∀ x, Option.Rel Follows (acts.foldl record h x) (Run.after act s acts x) from
    hrun _ _ (fun _ ↦ .none) x
  induction acts with
  | nil => exact fun _ _ hs ↦ hs
  | cons a acts ih => exact fun h s hs ↦ ih (record h a) (act s a).1 (follows_act hs a)

end Runs

/-- **A tag is attached once, and the first one decides.** Whatever is done to externals, an
external has the address it was created with, and the first tag that was put forward since it was
created or last stripped. A further tag is attached if and only if there was none since then;
otherwise it is refused with the present tag, and nothing changes. The external passes the boundary
check if and only if the first of these tags is the language tag and the address is not null. -/
theorem attached_once (acts : List (Act ι)) (x : ι) (e : External)
    (he : Run.after act (fun _ ↦ none) acts x = some e) :
    ∃ h, histories acts x = some h ∧ e.data = h.address ∧ e.tag = h.tags.head? ∧
      (∀ tag, (act (Run.after act (fun _ ↦ none) acts) (.attach x tag)).2 = some (.ok ()) ↔
        h.tags = []) ∧
      (∀ tag err,
        (act (Run.after act (fun _ ↦ none) acts) (.attach x tag)).2 = some (.error err) →
        (act (Run.after act (fun _ ↦ none) acts) (.attach x tag)).1 =
          Run.after act (fun _ ↦ none) acts ∧
        ∃ present, e.tag = some present ∧ err = .alreadyTagged present) ∧
      ((∃ table, e.verify.run.value = .ok table) ↔
        h.tags.head? = some .language ∧ h.address ≠ .null) := by
  have hrel := follows_histories acts x
  rw [he] at hrel
  obtain ⟨h, hh, hfollows⟩ : ∃ h, histories acts x = some h ∧ Follows h e := by
    rcases hh : histories acts x with - | h
    · rw [hh] at hrel
      simp at hrel
    · rw [hh, Option.rel_some_some] at hrel
      exact ⟨h, rfl, hrel⟩
  refine ⟨h, hh, hfollows.data, hfollows.tag, fun tag ↦ ?_, fun tag err hrefused ↦ ?_,
    hfollows.verify_iff⟩
  · rcases htags : h.tags with - | ⟨present, later⟩
    · simp [act_attach_of_ok he (hfollows.attach_of_nil htags tag)]
    · simp [act_attach_of_error he (hfollows.attach_of_cons (by rw [htags, List.head?_cons]) tag)]
  · rcases htags : h.tags with - | ⟨present, later⟩
    · rw [act_attach_of_ok he (hfollows.attach_of_nil htags tag)] at hrefused
      simp at hrefused
    · have hhead : h.tags.head? = some present := by rw [htags, List.head?_cons]
      rw [act_attach_of_error he (hfollows.attach_of_cons hhead tag)] at hrefused ⊢
      refine ⟨rfl, present, by rw [hfollows.tag, hhead], ?_⟩
      simpa using hrefused.symm

/-- A table's external is copied; the copy is stripped and gets another tag, and then the language
tag is put forward. -/
def retagged : List (Act Bool) :=
  [.createFor true ⟨⟨16⟩, by decide⟩, .copy true false, .strip false false,
    .attach false ⟨1, 1⟩, .attach false .language]

/-- An external that got a tag of another kind first and the language tag after that: the second is
refused, and the boundary check fails. -/
theorem attached_once_retagged :
    ∃ e, Run.after act (fun _ ↦ none) retagged false = some e ∧ e.data = ⟨16⟩ ∧
      (act (Run.after act (fun _ ↦ none) retagged) (.attach false .language)).2 ≠
        some (.ok ()) ∧
      ¬ ∃ table, e.verify.run.value = .ok table := by
  obtain ⟨h, hh, hdata, -, hattach, -, hverify⟩ := attached_once retagged false _ rfl
  obtain rfl : ⟨⟨16⟩, [⟨1, 1⟩, .language]⟩ = h := Option.some.inj hh
  refine ⟨_, rfl, hdata, fun hok ↦ ?_, fun htable ↦ ?_⟩
  · exact absurd ((hattach .language).1 hok) (List.cons_ne_nil _ _)
  · have hfirst := (hverify.1 htable).1
    exact absurd hfirst (by decide)

end GrammarExport.External
