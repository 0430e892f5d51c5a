import GrammarExport.Proofs.Publication

/-!
# Checking several contexts

Contexts are made one after the other, and each must export the table that the first one exports.
What can be wrong with the context of an index is said by `ContextsCheck.Fault`, without regard to
the order in which things are looked at. The check succeeds exactly when nothing is wrong with any
context; otherwise it ends at the first one with a fault and reports this fault
(`checkContexts_eq_first_fault`).

## What the proof rests on

* One turn of the check looks at one context (`ContextsCheck.turn`), and a check is a row of turns
  up to the first one that fails (`checkContextsFrom_eq_of_error`, `checkContextsFrom_eq_of_ok`).
* Once the first context has a report, the turns no longer depend on each other: a turn fails with
  the fault of its context (`ContextsCheck.Fault.turn_some`) and goes well where there is none
  (`ContextsCheck.turn_some_of_no_fault`). This is where the text of an address has to determine
  the address (`Address.text_inj`), since a turn compares texts.
-/

namespace GrammarExport

namespace ContextsCheck

variable (make : Nat → Except Error Context) (cells : Cells)

/-- The context of an index is made and has a report, which is about a table. -/
def Reports (i : Nat) (r : Report) (t : Table) : Prop :=
  ∃ c x, make i = .ok c ∧ (c.report cells).value.result = .ok r ∧
    (c.require cells bindingName).value.result = .ok x ∧ x.language.run.value = .ok t

/-- What can be wrong with the context of an index, and how this is put in words: it cannot be made,
it has no report, or it exports another table than the first context. -/
inductive Fault (i : Nat) : CheckFailure → List String → Prop
  | construction {e : Error} (hmake : make i = .error e) :
    Fault i (.construction e) [e.message]
  | report {c : Context} {f : Report.Failure} (hmake : make i = .ok c)
    (hreport : (c.report cells).value.result = .error f) :
    Fault i (.context i f) ["context " ++ toString i, f.message]
  | table {r r₀ : Report} {t t₀ : Table} (hreports : Reports make cells i r t)
    (hfirst : Reports make cells 0 r₀ t₀) (hne : t.address ≠ t₀.address) :
    Fault i (.disagreement i t.address.text t₀.address.text)
      ["context " ++ toString i ++ " resolved table " ++ t.address.text ++
        " but context 0 resolved " ++ t₀.address.text]

/-- What is said while the context of an index is looked at. -/
def events (i : Nat) : List Event :=
  match make i with
  | .ok c => (c.report cells).events
  | .error _ => []

/-- One turn of the check, after the contexts before it gave the report `first?`: the report for the
turns to come, or the failure that ends the check. -/
def turn (first? : Option Report) (i : Nat) : Except CheckFailure Report :=
  match make i with
  | .error e => .error (.construction e)
  | .ok c =>
    match (c.report cells).value.result, first? with
    | .error f, _ => .error (.context i f)
    | .ok r, none => .ok r
    | .ok r, some first =>
      if r.tableAddress ≠ first.tableAddress then
        .error (.disagreement i r.tableAddress first.tableAddress)
      else .ok first

variable {make cells}

/-! ### Faults -/

/-- The table that a report is about is the one whose address it gives. -/
theorem Reports.tableAddress_eq {i : Nat} {r : Report} {t : Table} (h : Reports make cells i r t) :
    r.tableAddress = t.address.text := by
  obtain ⟨c, x, -, hreport, hrequire, hlanguage⟩ := h
  rw [Context.value_report, hrequire] at hreport
  obtain ⟨-, -, t', ht', rfl⟩ := Report.value_ofExports_eq_ok_iff.1 hreport
  rw [Except.ok.inj (hlanguage.symm.trans ht')]

/-- A context without a report has a fault, and any other has a report about a table. -/
theorem fault_or_reports (make : Nat → Except Error Context) (cells : Cells) (i : Nat) :
    (∃ f texts, Fault make cells i f texts) ∨ ∃ r t, Reports make cells i r t := by
  rcases hmake : make i with e | c
  · exact .inl ⟨_, _, .construction hmake⟩
  · rcases hreport : (c.report cells).value.result with f | r
    · exact .inl ⟨_, _, .report hmake hreport⟩
    · have h := hreport
      rw [Context.value_report] at h
      rcases hrequire : (c.require cells bindingName).value.result with e | x
      · simp [hrequire] at h
      · rw [hrequire] at h
        obtain ⟨-, -, t, ht, -⟩ := Report.value_ofExports_eq_ok_iff.1 h
        exact .inr ⟨r, t, c, x, hmake, hreport, hrequire, ht⟩

theorem Reports.unique {i : Nat} {r r' : Report} {t t' : Table} (h : Reports make cells i r t)
    (h' : Reports make cells i r' t') : r = r' ∧ t = t' := by
  obtain ⟨c, x, hmake, hreport, hrequire, hlanguage⟩ := h
  obtain ⟨c', x', hmake', hreport', hrequire', hlanguage'⟩ := h'
  obtain rfl : c = c' := Except.ok.inj (hmake.symm.trans hmake')
  obtain rfl : x = x' := Except.ok.inj (hrequire.symm.trans hrequire')
  exact ⟨Except.ok.inj (hreport.symm.trans hreport'),
    Except.ok.inj (hlanguage.symm.trans hlanguage')⟩

/-- Contexts with the grammar's module report the table that its accessor returns. -/
theorem reports_withBinding {i : Nat} {a : Accessor} {t : Table}
    (hmake : make i = .ok (.withBinding a)) (h : a.table cells = .ok t) :
    ∃ r, Reports make cells i r t := by
  have hpublished := Accessor.published_of_table h
  refine ⟨_, _, _, hmake, Context.report_withBinding h, hpublished.required, ?_⟩
  rw [Exports.language_eq_verify (Exports.get?_language_ofSurface _)]
  exact External.value_verify_ofTable t

section Congr

variable {make' : Nat → Except Error Context} {i : Nat} (h : make' i = make i)

include h

theorem Reports.congr {r : Report} {t : Table} (hr : Reports make cells i r t) :
    Reports make' cells i r t := by
  obtain ⟨c, x, hmake, hrest⟩ := hr
  exact ⟨c, x, h.trans hmake, hrest⟩

/-- What is wrong with a context is up to this context and the first one. -/
theorem Fault.congr (h₀ : make' 0 = make 0) {f : CheckFailure} {texts : List String}
    (hf : Fault make cells i f texts) : Fault make' cells i f texts := by
  cases hf with
  | construction hmake => exact .construction (h.trans hmake)
  | report hmake hreport => exact .report (h.trans hmake) hreport
  | table hreports hfirst hne => exact .table (hreports.congr h) (hfirst.congr h₀) hne

end Congr

/-! ### Turns -/

/-- The first context's turn goes well if it has a report. -/
theorem Reports.turn_none {i : Nat} {r : Report} {t : Table} (h : Reports make cells i r t) :
    turn make cells none i = .ok r := by
  obtain ⟨c, x, hmake, hreport, -⟩ := h
  simp [turn, hmake, hreport]

/-- With the report of the first context at hand, a turn fails if the table is another one. -/
theorem Reports.turn_some {i : Nat} {r r₀ : Report} {t t₀ : Table}
    (h : Reports make cells i r t) (h₀ : Reports make cells 0 r₀ t₀) :
    turn make cells (some r₀) i =
      if t.address ≠ t₀.address then .error (.disagreement i t.address.text t₀.address.text)
      else .ok r₀ := by
  have htext := h.tableAddress_eq
  have htext₀ := h₀.tableAddress_eq
  obtain ⟨c, x, hmake, hreport, -⟩ := h
  simp only [turn, hmake, hreport, htext, htext₀, ne_eq, Address.text_inj]

namespace Fault

variable {i : Nat} {f : CheckFailure} {texts : List String}

theorem chain_eq (h : Fault make cells i f texts) : f.chain = texts := by
  cases h <;> rfl

/-- A fault of the first context ends the first turn. -/
theorem turn_none (h : Fault make cells 0 f texts) : turn make cells none 0 = .error f := by
  cases h with
  | construction hmake => simp [turn, hmake]
  | report hmake hreport => simp [turn, hmake, hreport]
  | table hreports hfirst hne =>
    -- The first context cannot differ from itself.
    exact absurd (congrArg Table.address (hreports.unique hfirst).2) hne

/-- A fault ends the turn of its context. -/
theorem turn_some (h : Fault make cells i f texts) {r₀ : Report} {t₀ : Table}
    (h₀ : Reports make cells 0 r₀ t₀) : turn make cells (some r₀) i = .error f := by
  cases h with
  | construction hmake => simp [turn, hmake]
  | report hmake hreport => simp [turn, hmake, hreport]
  | table hreports hfirst hne =>
    obtain ⟨-, rfl⟩ := hfirst.unique h₀
    rw [hreports.turn_some h₀, if_pos hne]

end Fault

/-- The turn of a context without fault goes well. -/
theorem turn_some_of_no_fault {i : Nat} {r₀ : Report} {t₀ : Table}
    (h : ∀ f texts, ¬ Fault make cells i f texts) (h₀ : Reports make cells 0 r₀ t₀) :
    turn make cells (some r₀) i = .ok r₀ := by
  rcases fault_or_reports make cells i with ⟨f, texts, hfault⟩ | ⟨r, t, hreports⟩
  · exact absurd hfault (h f texts)
  · rw [hreports.turn_some h₀, if_neg]
    exact fun hne ↦ h _ _ (.table hreports h₀ hne)

end ContextsCheck

open ContextsCheck

/-! ### The check as a row of turns -/

section

variable {make : Nat → Except Error Context} {cells : Cells}

/-- A check is one turn, and unless it fails, the check of what remains. -/
theorem checkContextsFrom_succ (n i : Nat) (first? : Option Report) :
    checkContextsFrom make cells (n + 1) i first? =
      match turn make cells first? i with
      | .error f => ⟨(.error f, i + 1), events make cells i⟩
      | .ok first =>
        ⟨(checkContextsFrom make cells n (i + 1) (some first)).value,
          events make cells i ++ (checkContextsFrom make cells n (i + 1) (some first)).events⟩ := by
  rw [checkContextsFrom, turn, events]
  rcases make i with e | c
  · rfl
  · simp only
    rcases hreport : (c.report cells).value.result with f | r
    · ext1 <;> simp [hreport]
    · rcases first? with - | first
      · ext1 <;> simp [hreport]
      · by_cases haddress : r.tableAddress = first.tableAddress
        · ext1 <;> simp [hreport, haddress]
        · ext1 <;> simp [hreport, haddress]

theorem checkContextsFrom_succ_of_error {n i : Nat} {first? : Option Report} {f : CheckFailure}
    (h : turn make cells first? i = .error f) :
    checkContextsFrom make cells (n + 1) i first? = ⟨(.error f, i + 1), events make cells i⟩ := by
  rw [checkContextsFrom_succ, h]

/-- After a context whose turn goes well, the others are checked against the same report. -/
theorem checkContextsFrom_succ_of_ok {n i : Nat} {first? : Option Report} {first : Report}
    (h : turn make cells first? i = .ok first) :
    checkContextsFrom make cells (n + 1) i first? =
      ⟨(checkContextsFrom make cells n (i + 1) (some first)).value,
        events make cells i ++ (checkContextsFrom make cells n (i + 1) (some first)).events⟩ := by
  rw [checkContextsFrom_succ, h]

/-- A check whose turns all go well ends with the report of the first context. -/
theorem checkContextsFrom_eq_of_ok {first : Report} {n i : Nat}
    (h : ∀ j, i ≤ j → j < i + n → turn make cells (some first) j = .ok first) :
    checkContextsFrom make cells n i (some first) =
      ⟨(.ok (some first), i + n), (List.range' i n).flatMap (events make cells)⟩ := by
  induction n generalizing i with
  | zero => rfl
  | succ n ih =>
    have hrest := ih (i := i + 1) fun j hij hjn ↦ h j (by omega) (by omega)
    rw [checkContextsFrom_succ_of_ok (h i (by omega) (by omega)), hrest, List.range'_succ,
      List.flatMap_cons, show i + 1 + n = i + (n + 1) by omega]

/-- A check ends at the first turn that fails. -/
theorem checkContextsFrom_eq_of_error {first : Report} {f : CheckFailure} {n i k : Nat}
    (hik : i ≤ k) (hkn : k < i + n)
    (h : ∀ j, i ≤ j → j < k → turn make cells (some first) j = .ok first)
    (hk : turn make cells (some first) k = .error f) :
    checkContextsFrom make cells n i (some first) =
      ⟨(.error f, k + 1), (List.range' i (k + 1 - i)).flatMap (events make cells)⟩ := by
  induction n generalizing i with
  | zero => omega
  | succ n ih =>
    rcases Nat.eq_or_lt_of_le hik with rfl | hlt
    · rw [checkContextsFrom_succ_of_error hk]
      simp
    · have hrest := ih (i := i + 1) hlt (by omega) fun j hij hjk ↦ h j (by omega) hjk
      rw [checkContextsFrom_succ_of_ok (h i (by omega) hlt), hrest,
        show k + 1 - i = (k + 1 - (i + 1)) + 1 by omega, List.range'_succ, List.flatMap_cons]

/-- Where the first context has a report, the check goes as if it had been known before. -/
theorem ContextsCheck.Reports.checkContextsFrom_none {r₀ : Report} {t₀ : Table}
    (h₀ : Reports make cells 0 r₀ t₀) (n : Nat) :
    checkContextsFrom make cells (n + 1) 0 none =
      checkContextsFrom make cells (n + 1) 0 (some r₀) := by
  have hturn : turn make cells (some r₀) 0 = .ok r₀ := by
    rw [h₀.turn_some h₀, if_neg (by simp)]
  rw [checkContextsFrom_succ_of_ok h₀.turn_none, checkContextsFrom_succ_of_ok hturn]

/-! ### The first fault -/

/-- Without a fault, all contexts are made, and the report is that of the first one. -/
theorem checkContexts_eq_of_no_fault {n : Nat} (hn : 1 ≤ n)
    (h : ∀ i < n, ∀ f texts, ¬ Fault make cells i f texts) :
    ∃ r t, Reports make cells 0 r t ∧
      checkContexts n make cells =
        ⟨⟨.ok r, n⟩, (List.range n).flatMap (events make cells)⟩ := by
  obtain ⟨m, rfl⟩ : ∃ m, n = m + 1 := ⟨n - 1, by omega⟩
  rcases fault_or_reports make cells 0 with ⟨f, texts, hfault⟩ | ⟨r, t, h₀⟩
  · exact absurd hfault (h 0 (by omega) f texts)
  · have hloop := checkContextsFrom_eq_of_ok (i := 0) (n := m + 1) fun j _ hj ↦
      turn_some_of_no_fault (h j (by omega)) h₀
    refine ⟨r, t, h₀, ?_⟩
    rw [checkContexts, h₀.checkContextsFrom_none, hloop]
    ext1 <;> simp [List.range_eq_range']

/-- The first fault ends the check, and the contexts after it are not made. -/
theorem checkContexts_eq_of_fault {n k : Nat} {f : CheckFailure} {texts : List String}
    (hk : k < n) (hfault : Fault make cells k f texts)
    (h : ∀ i < k, ∀ f texts, ¬ Fault make cells i f texts) :
    checkContexts n make cells =
      ⟨⟨.error f, k + 1⟩, (List.range (k + 1)).flatMap (events make cells)⟩ := by
  obtain ⟨m, rfl⟩ : ∃ m, n = m + 1 := ⟨n - 1, by omega⟩
  -- The first turn stands apart: there is no report yet with which to compare.
  rcases Nat.eq_zero_or_pos k with rfl | hpos
  · rw [checkContexts, checkContextsFrom_succ_of_error hfault.turn_none]
    ext1 <;> simp
  · rcases fault_or_reports make cells 0 with ⟨g, texts', hfirst⟩ | ⟨r, t, h₀⟩
    · exact absurd hfirst (h 0 hpos g texts')
    · have hloop := checkContextsFrom_eq_of_error (i := 0) (n := m + 1) (by omega) (by omega)
        (fun j _ hj ↦ turn_some_of_no_fault (h j hj) h₀) (hfault.turn_some h₀)
      rw [checkContexts, h₀.checkContextsFrom_none, hloop]
      ext1 <;> simp [List.range_eq_range']

/-- A check that succeeds has met no fault. -/
theorem not_fault_of_checkContexts_eq_ok {n : Nat} {r : Report}
    (hok : (checkContexts n make cells).value.result = .ok r) :
    ∀ i < n, ∀ f texts, ¬ Fault make cells i f texts := by
  -- The least fault would have ended the check, so there is none below any index.
  intro i
  induction i using Nat.strongRecOn with
  | ind i ih =>
    intro hi f texts hfault
    have hearlier : ∀ j < i, ∀ f texts, ¬ Fault make cells j f texts :=
      fun j hj ↦ ih j hj (by omega)
    rw [checkContexts_eq_of_fault hi hfault hearlier] at hok
    simp at hok

/-- The check ends at the first fault whatever contexts would be made afterwards. -/
theorem checkContexts_congr {make' : Nat → Except Error Context} {n k : Nat} {f : CheckFailure}
    {texts : List String} (hk : k < n) (hfault : Fault make cells k f texts)
    (h : ∀ i < k, ∀ f texts, ¬ Fault make cells i f texts) (hsame : ∀ i ≤ k, make' i = make i) :
    checkContexts n make' cells = checkContexts n make cells := by
  have hfault' := hfault.congr (hsame k (Nat.le_refl k)) (hsame 0 (Nat.zero_le k))
  have h' : ∀ i < k, ∀ f texts, ¬ Fault make' cells i f texts := fun i hi f texts hf ↦
    h i hi f texts (hf.congr (hsame i (Nat.le_of_lt hi)).symm (hsame 0 (Nat.zero_le k)).symm)
  have hevents : ∀ i ∈ List.range (k + 1), events make' cells i = events make cells i := by
    intro i hi
    rw [events, events, hsame i (Nat.lt_succ_iff.1 (List.mem_range.1 hi))]
  rw [checkContexts_eq_of_fault hk hfault' h', checkContexts_eq_of_fault hk hfault h,
    List.flatMap_congr hevents]

end

/-- **The check reports the first fault.** It succeeds exactly when there is a context and no
context has a fault, and then with the report of the first context. Otherwise the contexts up to the
first one with a fault are made and looked at, in order, and no others; the failure is this fault.
Tables are compared by the text of their addresses, which is as good as comparing the addresses. -/
theorem checkContexts_eq_first_fault (n : Nat) (make : Nat → Except Error Context)
    (cells : Cells) :
    ((∃ r, (checkContexts n make cells).value.result = .ok r) ↔
      1 ≤ n ∧ ∀ i < n, ∀ f texts, ¬ Fault make cells i f texts) ∧
    (∀ r, (checkContexts n make cells).value.result = .ok r →
      ∃ c, make 0 = .ok c ∧ (c.report cells).value.result = .ok r) ∧
    (∀ k f texts, k < n → Fault make cells k f texts →
      (∀ i < k, ∀ g words, ¬ Fault make cells i g words) →
      (checkContexts n make cells).value.result = .error f ∧ f.chain = texts ∧
      (checkContexts n make cells).value.made = k + 1 ∧
      (checkContexts n make cells).events = (List.range (k + 1)).flatMap (events make cells) ∧
      ∀ make', (∀ i ≤ k, make' i = make i) →
        checkContexts n make' cells = checkContexts n make cells) ∧
    ∀ a b : Address, a.text = b.text ↔ a = b := by
  have hok : ∀ r, (checkContexts n make cells).value.result = .ok r →
      1 ≤ n ∧ ∀ i < n, ∀ f texts, ¬ Fault make cells i f texts := by
    intro r hr
    refine ⟨Nat.one_le_iff_ne_zero.2 fun hn ↦ ?_, not_fault_of_checkContexts_eq_ok hr⟩
    simp [hn, checkContexts, checkContextsFrom] at hr
  refine ⟨⟨fun ⟨r, hr⟩ ↦ hok r hr, fun ⟨hn, h⟩ ↦ ?_⟩, fun r hr ↦ ?_, ?_, fun _ _ ↦ Address.text_inj⟩
  · obtain ⟨r, t, -, hcheck⟩ := checkContexts_eq_of_no_fault hn h
    exact ⟨r, by rw [hcheck]⟩
  · obtain ⟨hn, h⟩ := hok r hr
    obtain ⟨r', t, ⟨c, x, hmake, hreport, -⟩, hcheck⟩ := checkContexts_eq_of_no_fault hn h
    rw [hcheck] at hr
    rw [← Except.ok.inj hr]
    exact ⟨c, hmake, hreport⟩
  · intro k f texts hk hfault hearlier
    have hcheck := checkContexts_eq_of_fault hk hfault hearlier
    refine ⟨by rw [hcheck], hfault.chain_eq, by rw [hcheck], by rw [hcheck], fun make' hsame ↦ ?_⟩
    exact checkContexts_congr hk hfault hearlier hsame

/-- Contexts of which the first one has one table and all others another one. -/
def twoTables (i : Nat) : Except Error Context :=
  .ok (.withBinding (.fixed "t" (if i = 0 then ⟨1⟩ else ⟨2⟩)))

theorem checkContexts_eq_first_fault_twoTables :
    (∃ r c, (checkContexts 1 twoTables fun _ ↦ .null).value.result = .ok r ∧
      twoTables 0 = .ok c ∧ (c.report fun _ ↦ .null).value.result = .ok r) ∧
    (checkContexts 3 twoTables fun _ ↦ .null).value.result = .error (.disagreement 1 "0x2" "0x1") ∧
      (checkContexts 3 twoTables fun _ ↦ .null).value.made = 2 := by
  obtain ⟨r₀, h₀⟩ : ∃ r, Reports twoTables (fun _ ↦ .null) 0 r ⟨⟨1⟩, by decide⟩ :=
    reports_withBinding rfl rfl
  obtain ⟨r₁, h₁⟩ : ∃ r, Reports twoTables (fun _ ↦ .null) 1 r ⟨⟨2⟩, by decide⟩ :=
    reports_withBinding rfl rfl
  have hearlier : ∀ i < 1, ∀ g words, ¬ Fault twoTables (fun _ ↦ .null) i g words := by
    intro i hi g words hf
    obtain rfl : i = 0 := by omega
    have hturn := hf.turn_none
    rw [h₀.turn_none] at hturn
    simp at hturn
  constructor
  · have hcheck := checkContexts_eq_first_fault 1 twoTables fun _ ↦ .null
    obtain ⟨r, hr⟩ := hcheck.1.2 ⟨by decide, hearlier⟩
    obtain ⟨c, hmake, hreport⟩ := hcheck.2.1 r hr
    exact ⟨r, c, hr, hmake, hreport⟩
  · have hfault := Fault.table h₁ h₀ (by decide)
    have hcheck := (checkContexts_eq_first_fault 3 twoTables fun _ ↦ .null).2.2.1 1 _ _
      (by decide) hfault hearlier
    have htexts : (⟨1⟩ : Address).text = "0x1" ∧ (⟨2⟩ : Address).text = "0x2" := by
      decide +kernel
    rw [htexts.1, htexts.2] at hcheck
    exact ⟨hcheck.1, hcheck.2.2.1⟩

end GrammarExport
