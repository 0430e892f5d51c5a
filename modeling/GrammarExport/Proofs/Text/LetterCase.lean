import GrammarExport.Text.Lowercase

/-!
# Two ways to disregard letter case

A text can be compared with a word by putting it into lower case first, with the letters of all
scripts (`Lowercase.text`), or by disregarding the case of ASCII letters alone (`SameButForCase`).
The two are not the same: the sign for kelvin has the lower-case form `k`, and `İ` has one that
starts with `i`. For words of plain letters, which are the lower-case ASCII letters apart from `k`,
they agree (`Lowercase.IsForm.eq_iff`).

The reason is that outside ASCII every lower-case form has a character in it that is not a plain
letter (`Lowercase.exists_not_isPlain`). This is read off the runs of upper-case letters, of which
one alone leads back into ASCII. It holds for the form of a capital sigma at the end of a word as
well, so the result is stated for texts in which a capital sigma has either of its forms
(`Lowercase.IsForm`).
-/

namespace GrammarExport

/-- Two texts are the same but for the case of ASCII letters. -/
def SameButForCase (s t : String) : Prop :=
  s.toList.map Char.toLower = t.toList.map Char.toLower

instance (s t : String) : Decidable (SameButForCase s t) :=
  inferInstanceAs (Decidable (_ = _))

namespace Lowercase

variable {c d : Char} {cs s t w : List Char}

/-! ### The letters of ASCII -/

/-- The lower-case form of a capital stands 32 places after it, and any other character keeps its
place. -/
theorem toNat_toLower (c : Char) :
    c.toLower.toNat = if 65 ≤ c.toNat ∧ c.toNat ≤ 90 then c.toNat + 32 else c.toNat := by
  have hrange : (c.val ≥ 'A'.val ∧ c.val ≤ 'Z'.val) ↔ 65 ≤ c.toNat ∧ c.toNat ≤ 90 := by
    simp [UInt32.le_iff_toNat_le]
  by_cases hc : 65 ≤ c.toNat ∧ c.toNat ≤ 90
  · have hlower : c.toLower.toNat = (c.val + 32).toNat :=
      congrArg Char.toNat (dif_pos (hrange.2 hc))
    rw [if_pos hc, hlower, UInt32.toNat_add, Char.toNat_val]
    exact Nat.mod_eq_of_lt (show c.toNat + 32 < 2 ^ 32 by omega)
  · rw [if_neg hc]
    exact congrArg Char.toNat (dif_neg (mt hrange.1 hc))

/-- The capital of a lower-case letter stands 32 places before it. -/
theorem toNat_toUpper (c : Char) :
    c.toUpper.toNat = if 97 ≤ c.toNat ∧ c.toNat ≤ 122 then c.toNat - 32 else c.toNat := by
  have hrange : ('a'.val ≤ c.val ∧ c.val ≤ 'z'.val) ↔ 97 ≤ c.toNat ∧ c.toNat ≤ 122 := by
    simp [UInt32.le_iff_toNat_le]
  by_cases hc : 97 ≤ c.toNat ∧ c.toNat ≤ 122
  · obtain ⟨hvalid, hupper⟩ : ∃ h, c.toUpper = ⟨c.val + ('A'.val - 'a'.val), h⟩ :=
      ⟨_, dif_pos (hrange.2 hc)⟩
    rw [if_pos hc, hupper]
    -- To take 32 off is to add what is missing to the size of a word.
    show (c.val + 4294967264).toNat = c.toNat - 32
    rw [UInt32.toNat_add, Char.toNat_val]
    show (c.toNat + 4294967264) % 4294967296 = c.toNat - 32
    omega
  · rw [if_neg hc]
    exact congrArg Char.toNat (dif_neg (mt hrange.1 hc))

/-- Only capitals are changed by putting them into lower case. -/
theorem toLower_eq_self (h : ¬ (65 ≤ c.toNat ∧ c.toNat ≤ 90)) : c.toLower = c := by
  refine Char.toNat_inj.1 ?_
  rw [toNat_toLower, if_neg h]

/-- The capital of a letter does not depend on the case that the letter had. -/
theorem toUpper_toLower (c : Char) : c.toLower.toUpper = c.toUpper := by
  by_cases hc : 65 ≤ c.toNat ∧ c.toNat ≤ 90
  · have hlower := toNat_toLower c
    rw [if_pos hc] at hlower
    refine Char.toNat_inj.1 ?_
    rw [toNat_toUpper, toNat_toUpper, if_pos (by omega), if_neg (by omega)]
    omega
  · rw [toLower_eq_self hc]

/-! ### Lower-case forms -/

/-- The lower-case forms of a character. A capital sigma has another one at the end of a word. -/
inductive IsCharForm (c : Char) : List Char → Prop
  | usual : IsCharForm c (ofChar c)
  | final (h : c = 'Σ') : IsCharForm c ['ς']

/-- The lower-case forms of a text: every character is replaced by one of its forms. -/
inductive IsForm : List Char → List Char → Prop
  | nil : IsForm [] []
  | cons {c : Char} {cs s t : List Char} (hc : IsCharForm c cs) (h : IsForm s t) :
    IsForm (c :: s) (cs ++ t)

/-- Putting each character into lower case gives one of the forms of a text. -/
theorem isForm_flatMap (s : List Char) : IsForm s (s.flatMap ofChar) := by
  induction s with
  | nil => exact .nil
  | cons c s ih => exact .cons .usual ih

theorem isForm_text (s : String) : IsForm s.toList (text s).toList := by
  rw [text, String.toList_ofList]
  exact isForm_flatMap s.toList

/-! ### Plain letters -/

theorem toNat_of_isLower (h : c.isLower = true) : 97 ≤ c.toNat ∧ c.toNat ≤ 122 := by
  have hrange : (decide (c.val ≥ 'a'.val) && decide (c.val ≤ 'z'.val)) = true := h
  simpa [UInt32.le_iff_toNat_le, Char.toNat_val] using hrange

/-- A lower-case ASCII letter other than `k`. -/
def IsPlain (d : Char) : Prop := d.isLower = true ∧ d ≠ 'k'

instance (d : Char) : Decidable (IsPlain d) := inferInstanceAs (Decidable (_ ∧ _))

theorem IsPlain.toNat_lt (h : IsPlain d) : d.toNat < 0x80 := by
  have hrange := toNat_of_isLower h.1
  omega

theorem not_isPlain_ofNat {n : Nat} (h : 0x80 ≤ n) : ¬ IsPlain (Char.ofNat n) := by
  intro hplain
  have hlt := hplain.toNat_lt
  by_cases hn : n.isValidChar
  · have hvalue : (Char.ofNat n).toNat = n := by
      rw [Char.ofNat, dif_pos hn]
      rfl
    omega
  · -- where there is no such character, the null character stands for it
    rw [Char.ofNat, dif_neg hn] at hplain
    exact absurd hplain (by decide)

/-- The runs stay outside ASCII, except for that of the kelvin sign. -/
theorem runs_outside_ascii : ∀ r ∈ runs,
    0x80 ≤ (r.first : Int) + r.shift ∨ r.first = 0x212a ∧ r.last = 0x212a ∧ r.shift = -8383 := by
  decide +kernel

/-- Outside ASCII no character has a lower-case form of plain letters. -/
theorem exists_not_isPlain (hc : 0x80 ≤ c.toNat) (h : IsCharForm c cs) :
    ∃ d ∈ cs, ¬ IsPlain d := by
  cases h with
  | final => exact ⟨'ς', by simp, by decide⟩
  | usual =>
    rw [ofChar, if_neg (by omega)]
    split
    · exact ⟨Char.ofNat 0x307, by simp, by decide⟩
    · split
      · rename_i r hr
        have hmem := List.mem_of_find?_eq_some hr
        have hcontains := List.find?_some hr
        simp only [Run.contains, Bool.and_eq_true, decide_eq_true_eq] at hcontains
        refine ⟨_, List.mem_singleton_self _, ?_⟩
        rcases runs_outside_ascii r hmem with hshift | ⟨hfirst, hlast, hshift⟩
        · exact not_isPlain_ofNat (by omega)
        · have hkelvin : c.toNat = 0x212a := by omega
          rw [hkelvin, hshift]
          decide
      · refine ⟨c, List.mem_singleton_self c, fun hplain ↦ ?_⟩
        have hlt := hplain.toNat_lt
        omega

/-- In ASCII a character has one lower-case form, which is a character. -/
theorem IsCharForm.eq_of_toNat_lt (h : IsCharForm c cs) (hc : c.toNat < 0x80) :
    cs = [c.toLower] := by
  cases h with
  | usual => rw [ofChar, if_pos hc]
  | final hsigma =>
    rw [hsigma] at hc
    exact absurd hc (by decide)

/-- A form of plain letters is the lower-case letter. -/
theorem IsCharForm.eq_of_isPlain (h : IsCharForm c cs) (hcs : ∀ d ∈ cs, IsPlain d) :
    cs = [c.toLower] := by
  by_cases hc : c.toNat < 0x80
  · exact h.eq_of_toNat_lt hc
  · obtain ⟨d, hd, hnot⟩ := exists_not_isPlain (Nat.le_of_not_lt hc) h
    exact absurd (hcs d hd) hnot

/-- Only ASCII characters have plain letters as their ASCII lower case. -/
theorem toNat_lt_of_isPlain_toLower (h : IsPlain c.toLower) : c.toNat < 0x80 := by
  by_cases hc : 65 ≤ c.toNat ∧ c.toNat ≤ 90
  · omega
  · rw [toLower_eq_self hc] at h
    exact h.toNat_lt

/-! ### Words of plain letters -/

/-- **A text has a word of plain letters as a lower-case form if and only if it is this word but for
the case of its ASCII letters.** -/
theorem IsForm.eq_iff (h : IsForm s t) (hw : ∀ d ∈ w, IsPlain d) :
    t = w ↔ s.map Char.toLower = w := by
  induction h generalizing w with
  | nil => rfl
  | @cons c cs s t hc h ih =>
    constructor
    · rintro rfl
      rw [List.forall_mem_append] at hw
      rw [hc.eq_of_isPlain hw.1, List.map_cons, (ih hw.2).1 rfl]
      rfl
    · rintro rfl
      rw [List.map_cons, List.forall_mem_cons] at hw
      rw [hc.eq_of_toNat_lt (toNat_lt_of_isPlain_toLower hw.1), (ih hw.2).2 rfl]
      rfl

theorem map_toLower_of_isPlain (hw : ∀ d ∈ w, IsPlain d) : w.map Char.toLower = w := by
  refine (List.map_congr_left fun d hd ↦ ?_).trans (List.map_id w)
  have hrange := toNat_of_isLower (hw d hd).1
  exact toLower_eq_self (by omega)

/-- A text has a word of plain letters as a lower-case form exactly if the two are the same but for
the case of ASCII letters. -/
theorem IsForm.eq_iff_sameButForCase {s t w : String} (h : IsForm s.toList t.toList)
    (hw : ∀ d ∈ w.toList, IsPlain d) : t = w ↔ SameButForCase s w := by
  rw [← String.toList_inj, h.eq_iff hw, SameButForCase, map_toLower_of_isPlain hw]

end Lowercase

end GrammarExport
