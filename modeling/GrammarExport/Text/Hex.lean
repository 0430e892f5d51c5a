/-!
# Hexadecimal text

Numbers as hexadecimal digits, most significant first, either without leading zeros
(`Hex.shortest`, for addresses) or with a fixed number of digits (`Hex.fixed`, for tags and
bytes). The letter case of the digits above nine is a choice of the writer (`LetterCase`).

Both forms can be read back: `Hex.value_shortest` for every number, `Hex.value_fixed` for the
numbers that fit into the width. Written digits are read as the number that they denote
(`Hex.read?_map_digit`), so this holds of the text as well as of the digits.
-/

namespace GrammarExport

/-- Whether the digits above nine are written `a` to `f` or `A` to `F`. -/
inductive LetterCase where
  | lower
  | upper
  deriving DecidableEq, Repr

namespace Hex

/-- The digit characters in the given letter case, in order of value. -/
def alphabet : LetterCase → List Char
  | .lower => "0123456789abcdef".toList
  | .upper => "0123456789ABCDEF".toList

/-- The character of a digit. -/
def digit (letters : LetterCase) (d : Nat) : Char :=
  (alphabet letters).getD d '0'

/-- The digits of `n` without leading zeros; zero is the single digit zero. -/
def shortest (n : Nat) : List Nat :=
  if n < 16 then [n] else shortest (n / 16) ++ [n % 16]
termination_by n
decreasing_by omega

/-- The last `width` digits of `n`, with leading zeros. -/
def fixed : Nat → Nat → List Nat
  | 0, _ => []
  | width + 1, n => fixed width (n / 16) ++ [n % 16]

/-- The number that a digit sequence denotes. -/
def value (digits : List Nat) : Nat :=
  digits.foldl (fun n d ↦ 16 * n + d) 0

/-- Digits as text. -/
def text (letters : LetterCase) (digits : List Nat) : String :=
  String.ofList (digits.map (digit letters))

/-- The digit value of a character in either letter case. -/
def digitValue? (c : Char) : Option Nat :=
  if '0' ≤ c ∧ c ≤ '9' then some (c.toNat - '0'.toNat)
  else if 'a' ≤ c ∧ c ≤ 'f' then some (c.toNat - 'a'.toNat + 10)
  else if 'A' ≤ c ∧ c ≤ 'F' then some (c.toNat - 'A'.toNat + 10)
  else none

/-- Reads a nonempty run of hexadecimal digits in either letter case. -/
def read? (cs : List Char) : Option Nat :=
  if cs.isEmpty then none else (cs.mapM digitValue?).map value

/-! ### Reading back -/

/-- The last digit counts once, and those before it sixteen times as much. -/
theorem value_append (ds : List Nat) (d : Nat) : value (ds ++ [d]) = 16 * value ds + d := by
  simp [value, List.foldl_append]

@[simp] theorem length_fixed (width n : Nat) : (fixed width n).length = width := by
  induction width generalizing n with
  | zero => rfl
  | succ w ih => simp [fixed, ih]

/-- Written without leading zeros, every number can be read back. -/
theorem value_shortest (n : Nat) : value (shortest n) = n := by
  induction n using Nat.strongRecOn with
  | ind n ih =>
    rw [shortest]
    split
    · simp [value]
    · rw [value_append, ih (n / 16) (by omega)]
      omega

/-- A number that fits into the width can be read back from its fixed-width form. -/
theorem value_fixed {width n : Nat} (h : n < Nat.pow 16 width) : value (fixed width n) = n := by
  induction width generalizing n with
  | zero =>
    obtain rfl : n = 0 := Nat.lt_one_iff.1 h
    rfl
  | succ w ih =>
    have hn : n / 16 < Nat.pow 16 w := Nat.div_lt_of_lt_mul (Nat.mul_comm 16 _ ▸ h)
    rw [fixed, value_append, ih hn]
    omega

theorem lt_of_mem_shortest {n d : Nat} (h : d ∈ shortest n) : d < 16 := by
  induction n using Nat.strongRecOn with
  | ind n ih =>
    rw [shortest] at h
    split at h
    · rename_i hn
      rwa [List.mem_singleton.1 h]
    · rcases List.mem_append.1 h with h | h
      · exact ih (n / 16) (by omega) h
      · rw [List.mem_singleton.1 h]
        exact Nat.mod_lt n (by decide)

theorem lt_of_mem_fixed {width n d : Nat} (h : d ∈ fixed width n) : d < 16 := by
  induction width generalizing n with
  | zero => simp [fixed] at h
  | succ w ih =>
    rcases List.mem_append.1 h with h | h
    · exact ih h
    · rw [List.mem_singleton.1 h]
      exact Nat.mod_lt n (by decide)

/-- A digit is read back from its character, in either letter case. -/
theorem digitValue?_digit (letters : LetterCase) {d : Nat} (h : d < 16) :
    digitValue? (digit letters d) = some d := by
  have hall : ∀ d < 16, digitValue? (digit letters d) = some d := by
    cases letters <;> decide
  exact hall d h

/-- Digits are read back from their characters. -/
theorem mapM_digitValue? (letters : LetterCase) {ds : List Nat} (h : ∀ d ∈ ds, d < 16) :
    (ds.map (digit letters)).mapM digitValue? = some ds := by
  induction ds with
  | nil => rfl
  | cons d ds ih =>
    rw [List.forall_mem_cons] at h
    rw [List.map_cons, List.mapM_cons, digitValue?_digit letters h.1, ih h.2]
    rfl

/-- Written digits are read as the number that they denote, in either letter case. -/
theorem read?_map_digit (letters : LetterCase) {ds : List Nat} (hne : ds ≠ [])
    (h : ∀ d ∈ ds, d < 16) : read? (ds.map (digit letters)) = some (value ds) := by
  rw [read?, mapM_digitValue? letters h]
  simp [hne]

/-- Text without leading zeros can be read back, in either letter case. -/
theorem read?_text_shortest (letters : LetterCase) (n : Nat) :
    read? (text letters (shortest n)).toList = some n := by
  have hne : shortest n ≠ [] := by
    rw [shortest]
    split <;> simp
  rw [text, String.toList_ofList, read?_map_digit letters hne fun _ ↦ lt_of_mem_shortest,
    value_shortest]

end Hex

end GrammarExport
