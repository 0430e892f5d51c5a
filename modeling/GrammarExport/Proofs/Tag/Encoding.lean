import GrammarExport.Tag
import Mathlib.Data.List.Induction
import Mathlib.Tactic.NormNum

/-!
# The encodings of a tag

A tag is written as digits and laid out in memory as bytes, and the tag of a name is read from the
bytes of a digest. Three orders meet here. Digits and digests have the most significant part of a
word first, memory has it first or last, and in all of them the lower word comes before the upper
one. `Tag.encodings_agree` says that nothing is lost on any way and how the ways fit together.

## What the proof rests on

A byte is a pair of digits, so a row of bytes is a row of digits twice as long (`Hex.pairs`). All
that is said about bytes is said about these digits:

* the word that bytes spell has the value of their digits (`Tag.toNat_wordOfBytes`), and eight bytes
  are all digits of their word, leading zeros included (`Tag.fixed_wordOfBytes`);
* the bytes of a word with the most significant one first have the digits of the word
  (`Tag.pairs_bytesOfWord`).

Memory in the other order is the same row backwards.
-/

namespace GrammarExport

/-! ### Digits -/

namespace Hex

/-- The value of hexadecimal digits is below a power of sixteen. -/
theorem value_lt {ds : List Nat} (h : ∀ d ∈ ds, d < 16) : value ds < 16 ^ ds.length := by
  induction ds using List.reverseRecOn with
  | nil => exact Nat.one_pos
  | append_singleton ds d ih =>
    rw [List.forall_mem_append, List.forall_mem_singleton] at h
    have hds := ih h.1
    rw [value_append, List.length_append, List.length_singleton, pow_succ]
    omega

/-- Digits are the fixed-width form of their value. -/
theorem fixed_value {ds : List Nat} (h : ∀ d ∈ ds, d < 16) : fixed ds.length (value ds) = ds := by
  induction ds using List.reverseRecOn with
  | nil => rfl
  | append_singleton ds d ih =>
    rw [List.forall_mem_append, List.forall_mem_singleton] at h
    have hdiv : (16 * value ds + d) / 16 = value ds := by omega
    have hmod : (16 * value ds + d) % 16 = d := by omega
    rw [List.length_append, List.length_singleton, fixed, value_append, hdiv, hmod, ih h.1]

/-- The last digits of a number come after those of the rest. -/
theorem fixed_add (a b n : Nat) : fixed (a + b) n = fixed a (n / 16 ^ b) ++ fixed b n := by
  induction b generalizing n with
  | zero => simp [fixed]
  | succ b ih =>
    rw [← Nat.add_assoc, fixed, ih, fixed, Nat.div_div_eq_div_mul, ← pow_succ', List.append_assoc]

/-- Two digits do not see more than a byte. -/
theorem fixed_two_mod (n : Nat) : fixed 2 (n % 256) = fixed 2 n := by
  have hhigh : n % 256 / 16 % 16 = n / 16 % 16 := by omega
  have hlow : n % 256 % 16 = n % 16 := by omega
  show [n % 256 / 16 % 16, n % 256 % 16] = [n / 16 % 16, n % 16]
  rw [hhigh, hlow]

/-- An even number of digits, taken in pairs: these are the bytes of the number, the most
significant one first. -/
theorem fixed_two_mul (k n : Nat) :
    fixed (2 * k) n = ((List.range k).map fun i ↦ n / 256 ^ i % 256).reverse.flatMap (fixed 2) := by
  induction k with
  | zero => rfl
  | succ k ih =>
    have hpow : (16 : Nat) ^ (2 * k) = 256 ^ k := by rw [pow_mul]; norm_num
    rw [show 2 * (k + 1) = 2 + 2 * k by omega, fixed_add, ih, hpow, List.range_succ,
      List.map_append, List.reverse_append, List.map_singleton, List.reverse_singleton,
      List.singleton_append, List.flatMap_cons, fixed_two_mod]

/-- The digits of bytes, two for each byte. -/
def pairs (bytes : List UInt8) : List Nat := bytes.flatMap fun b ↦ fixed 2 b.toNat

theorem pairs_append (bs cs : List UInt8) : pairs (bs ++ cs) = pairs bs ++ pairs cs :=
  List.flatMap_append

/-- The digits of bytes are those of each byte with its leading zero. -/
theorem pairs_eq_flatMap (bs : List UInt8) :
    pairs bs = (bs.map UInt8.toNat).flatMap (fixed 2) := by
  rw [List.flatMap_map]
  rfl

@[simp] theorem length_pairs (bs : List UInt8) : (pairs bs).length = 2 * bs.length := by
  induction bs with
  | nil => rfl
  | cons b bs ih =>
    show (fixed 2 b.toNat ++ pairs bs).length = _
    rw [List.length_append, ih, length_fixed, List.length_cons]
    omega

theorem lt_of_mem_pairs {bs : List UInt8} {d : Nat} (h : d ∈ pairs bs) : d < 16 := by
  obtain ⟨b, -, hd⟩ := List.mem_flatMap.1 h
  exact lt_of_mem_fixed hd

/-- The last byte counts once, and those before it 256 times as much. -/
theorem value_pairs_append (bs : List UInt8) (b : UInt8) :
    value (pairs (bs ++ [b])) = 256 * value (pairs bs) + b.toNat := by
  have hb := b.toNat_lt
  have hsplit : pairs (bs ++ [b]) = pairs bs ++ [b.toNat / 16 % 16] ++ [b.toNat % 16] := by
    rw [pairs_append, List.append_assoc]
    rfl
  rw [hsplit, value_append, value_append]
  omega

/-- Digits in upper-case letters. -/
theorem digit_upper {d : Nat} (h : d < 16) :
    '0' ≤ digit .upper d ∧ digit .upper d ≤ '9' ∨ 'A' ≤ digit .upper d ∧ digit .upper d ≤ 'F' := by
  have hall : ∀ d < 16, '0' ≤ digit .upper d ∧ digit .upper d ≤ '9' ∨
      'A' ≤ digit .upper d ∧ digit .upper d ≤ 'F' := by decide
  exact hall d h

end Hex

/-- The word that eight bytes of memory hold. -/
def ByteOrder.word : ByteOrder → List UInt8 → UInt64
  | little, bytes => Tag.wordOfBytes bytes.reverse
  | big, bytes => Tag.wordOfBytes bytes

namespace Tag

/-! ### Words and their bytes -/

/-- Bytes spell the word that has the value of their digits, as long as they fit into a word. -/
theorem toNat_wordOfBytes {bs : List UInt8} (h : bs.length ≤ 8) :
    (wordOfBytes bs).toNat = Hex.value (Hex.pairs bs) := by
  induction bs using List.reverseRecOn with
  | nil => rfl
  | append_singleton bs b ih =>
    rw [List.length_append, List.length_singleton] at h
    have hvalue := ih (by omega)
    have hlt : Hex.value (Hex.pairs bs) < 2 ^ 56 := by
      calc Hex.value (Hex.pairs bs) < 16 ^ (Hex.pairs bs).length :=
            Hex.value_lt fun _ ↦ Hex.lt_of_mem_pairs
        _ ≤ 16 ^ 14 := Nat.pow_le_pow_right (by decide) (by rw [Hex.length_pairs]; omega)
        _ = 2 ^ 56 := by norm_num
    have hb : b.toNat < 2 ^ 8 := b.toNat_lt
    have hstep : wordOfBytes (bs ++ [b]) = (wordOfBytes bs <<< 8) ||| b.toUInt64 :=
      List.foldl_append
    -- Nothing is shifted out, and the byte falls into the gap that the shift leaves.
    rw [hstep, UInt64.toNat_or, UInt64.toNat_shiftLeft, hvalue, UInt8.toNat_toUInt64,
      Hex.value_pairs_append]
    show (Hex.value (Hex.pairs bs) <<< 8) % 2 ^ 64 ||| b.toNat = _
    rw [Nat.mod_eq_of_lt (by rw [Nat.shiftLeft_eq]; omega), ← Nat.shiftLeft_add_eq_or_of_lt hb,
      Nat.shiftLeft_eq, Nat.mul_comm]

/-- Eight bytes are all the digits of the word that they spell. -/
theorem fixed_wordOfBytes {bs : List UInt8} (h : bs.length = 8) :
    Hex.fixed 16 (wordOfBytes bs).toNat = Hex.pairs bs := by
  have hlength : (Hex.pairs bs).length = 16 := by rw [Hex.length_pairs, h]
  rw [toNat_wordOfBytes h.le, ← hlength]
  exact Hex.fixed_value fun _ ↦ Hex.lt_of_mem_pairs

@[simp] theorem length_bytesOfWord (order : ByteOrder) (w : UInt64) :
    (bytesOfWord order w).length = 8 := by
  cases order <;> simp [bytesOfWord]

/-- The two byte orders are the reverse of one another. -/
theorem bytesOfWord_little (w : UInt64) :
    bytesOfWord .little w = (bytesOfWord .big w).reverse := by
  simp [bytesOfWord]

/-- Shifting a word by bytes is dividing it by powers of 256. -/
theorem toNat_byte (w : UInt64) {i : Nat} (h : i < 8) :
    (w >>> (8 * i).toUInt64).toUInt8.toNat = w.toNat / 256 ^ i % 256 := by
  have hshift : (8 * i).toUInt64.toNat % 64 = 8 * i := by
    rw [Nat.toUInt64, UInt64.toNat_ofNat']
    omega
  rw [UInt64.toNat_toUInt8, UInt64.toNat_shiftRight, hshift, Nat.shiftRight_eq_div_pow, pow_mul]
  norm_num

/-- The bytes of a word, the most significant one first, have the digits of the word. -/
theorem pairs_bytesOfWord (w : UInt64) :
    Hex.pairs (bytesOfWord .big w) = Hex.fixed 16 w.toNat := by
  have hbytes : (bytesOfWord .big w).map UInt8.toNat =
      ((List.range 8).map fun i ↦ w.toNat / 256 ^ i % 256).reverse := by
    rw [bytesOfWord, List.map_reverse, List.map_map]
    refine congrArg List.reverse (List.map_congr_left fun i hi ↦ ?_)
    exact toNat_byte w (List.mem_range.1 hi)
  rw [Hex.pairs_eq_flatMap, hbytes]
  exact (Hex.fixed_two_mul 8 w.toNat).symm

/-- A word can be read back from memory, in the order in which it was laid out. -/
theorem word_bytesOfWord (order : ByteOrder) (w : UInt64) :
    order.word (bytesOfWord order w) = w := by
  have hbig : wordOfBytes (bytesOfWord .big w) = w := by
    refine UInt64.toNat_inj.1 ?_
    rw [toNat_wordOfBytes (length_bytesOfWord .big w).le, pairs_bytesOfWord,
      Hex.value_fixed w.toNat_lt]
  cases order with
  | little =>
    rw [ByteOrder.word, bytesOfWord_little, List.reverse_reverse]
    exact hbig
  | big => exact hbig

/-! ### The two halves of an encoding -/

section Halves

variable (order : ByteOrder) (t : Tag)

theorem take_layout : (t.layout order).take 8 = bytesOfWord order t.lower :=
  List.take_left' (length_bytesOfWord order t.lower)

theorem drop_layout : (t.layout order).drop 8 = bytesOfWord order t.upper :=
  List.drop_left' (length_bytesOfWord order t.lower)

theorem toList_text :
    t.text.toList = (Hex.fixed 16 t.lower.toNat).map (Hex.digit .upper) ++
      (Hex.fixed 16 t.upper.toNat).map (Hex.digit .upper) := by
  rw [text, Hex.text, String.toList_ofList, List.map_append]

theorem take_text :
    t.text.toList.take 16 = (Hex.fixed 16 t.lower.toNat).map (Hex.digit .upper) := by
  rw [toList_text]
  exact List.take_left' (by simp)

theorem drop_text :
    t.text.toList.drop 16 = (Hex.fixed 16 t.upper.toNat).map (Hex.digit .upper) := by
  rw [toList_text]
  exact List.drop_left' (by simp)

end Halves

/-- A written word can be read back. -/
theorem read?_fixed (w : UInt64) :
    Hex.read? ((Hex.fixed 16 w.toNat).map (Hex.digit .upper)) = some w.toNat := by
  have hne : Hex.fixed 16 w.toNat ≠ [] := List.ne_nil_of_length_eq_add_one (Hex.length_fixed 16 _)
  rw [Hex.read?_map_digit .upper hne fun _ ↦ Hex.lt_of_mem_fixed, Hex.value_fixed w.toNat_lt]

@[simp] theorem length_text (t : Tag) : t.text.length = 32 := by
  rw [← String.length_toList, toList_text]
  simp

/-- Tags with the same text are the same. -/
theorem text_injective : Function.Injective text := by
  intro t u h
  have hlower : t.lower.toNat = u.lower.toNat := by
    rw [← Option.some_inj, ← read?_fixed, ← read?_fixed, ← take_text, ← take_text, h]
  have hupper : t.upper.toNat = u.upper.toNat := by
    rw [← Option.some_inj, ← read?_fixed, ← read?_fixed, ← drop_text, ← drop_text, h]
  exact Tag.ext (UInt64.toNat_inj.1 hlower) (UInt64.toNat_inj.1 hupper)

/-- Tags with the same layout are the same, in either byte order. -/
theorem layout_injective (order : ByteOrder) : Function.Injective (layout order) := by
  intro t u h
  have hlower : t.lower = u.lower := by
    rw [← word_bytesOfWord order t.lower, ← take_layout, h, take_layout, word_bytesOfWord]
  have hupper : t.upper = u.upper := by
    rw [← word_bytesOfWord order t.upper, ← drop_layout, h, drop_layout, word_bytesOfWord]
  exact Tag.ext hlower hupper

/-! ### Agreement -/

/-- The text of a tag is made of decimal digits and capitals from A to F. -/
theorem digit_of_mem_text {t : Tag} {c : Char} (h : c ∈ t.text.toList) :
    '0' ≤ c ∧ c ≤ '9' ∨ 'A' ≤ c ∧ c ≤ 'F' := by
  rw [toList_text, List.mem_append, List.mem_map, List.mem_map] at h
  obtain ⟨d, hd, rfl⟩ | ⟨d, hd, rfl⟩ := h
  · exact Hex.digit_upper (Hex.lt_of_mem_fixed hd)
  · exact Hex.digit_upper (Hex.lt_of_mem_fixed hd)

/-- The digits of a tag are those of its bytes, with the most significant byte of each word
first. -/
theorem text_eq_pairs (t : Tag) :
    t.text = Hex.text .upper (Hex.pairs (t.layout .big)) := by
  rw [layout, Hex.pairs_append, pairs_bytesOfWord, pairs_bytesOfWord]
  rfl

/-- The tag whose two words are read from the first bytes of a digest is written as the digits of
the digest begin. -/
theorem text_of_digest {digest : List UInt8} (h : 16 ≤ digest.length) :
    (text ⟨wordOfBytes (digest.take 8), wordOfBytes ((digest.drop 8).take 8)⟩).toList =
      (Hex.text .upper (Hex.pairs digest)).toList.take 32 := by
  have hlower : Hex.fixed 16 (wordOfBytes (digest.take 8)).toNat = Hex.pairs (digest.take 8) :=
    fixed_wordOfBytes (by rw [List.length_take]; omega)
  have hupper : Hex.fixed 16 (wordOfBytes ((digest.drop 8).take 8)).toNat =
      Hex.pairs ((digest.drop 8).take 8) :=
    fixed_wordOfBytes (by rw [List.length_take, List.length_drop]; omega)
  have hdigits : Hex.pairs (digest.take 8) ++ Hex.pairs ((digest.drop 8).take 8) =
      (Hex.pairs digest).take 32 := by
    rw [← Hex.pairs_append, ← List.take_add]
    conv_rhs => rw [← List.take_append_drop 16 digest, Hex.pairs_append]
    exact (List.take_left' (by rw [Hex.length_pairs, List.length_take]; omega)).symm
  rw [text, hlower, hupper, hdigits, Hex.text, Hex.text, String.toList_ofList,
    String.toList_ofList, List.map_take]

/-- **The encodings of a tag lose nothing, and they agree.**

* A tag is written as 32 upper-case digits; the first 16 of them denote its lower word, the others
  its upper word.
* A tag is laid out in 16 bytes; on a machine of either byte order, the first eight of them hold its
  lower word, the others its upper word.
* So neither the text nor the bytes are shared by two tags.
* The text is that of the bytes, digit pair by digit pair, once each half of the bytes is put in
  reverse, if the machine keeps least significant bytes first.
* The tag of a name is written as the first 32 digits of the digest of the name. -/
theorem encodings_agree :
    (∀ t : Tag, t.text.length = 32 ∧
      (∀ c ∈ t.text.toList, '0' ≤ c ∧ c ≤ '9' ∨ 'A' ≤ c ∧ c ≤ 'F') ∧
      Hex.read? (t.text.toList.take 16) = some t.lower.toNat ∧
      Hex.read? (t.text.toList.drop 16) = some t.upper.toNat) ∧
    (∀ (order : ByteOrder) (t : Tag), (t.layout order).length = 16 ∧
      order.word ((t.layout order).take 8) = t.lower ∧
      order.word ((t.layout order).drop 8) = t.upper) ∧
    Function.Injective text ∧ (∀ order, Function.Injective (layout order)) ∧
    (∀ t : Tag, t.text = Hex.text .upper
      (Hex.pairs ((t.bytes.take 8).reverse ++ (t.bytes.drop 8).reverse))) ∧
    ∀ name, (ofName name).text.toList =
      (Hex.text .upper (Hex.pairs (Sha256.digest name.toUTF8.toList))).toList.take 32 := by
  refine ⟨fun t ↦ ⟨length_text t, fun c ↦ digit_of_mem_text, ?_, ?_⟩, fun order t ↦ ⟨?_, ?_, ?_⟩,
    text_injective, layout_injective, fun t ↦ ?_, fun name ↦ ?_⟩
  · rw [take_text, read?_fixed]
  · rw [drop_text, read?_fixed]
  · simp [layout]
  · rw [take_layout, word_bytesOfWord]
  · rw [drop_layout, word_bytesOfWord]
  · rw [bytes, take_layout, drop_layout, bytesOfWord_little, bytesOfWord_little,
      List.reverse_reverse, List.reverse_reverse]
    exact text_eq_pairs t
  · exact text_of_digest (by rw [Sha256.length_digest]; decide)

example : (⟨1, 0xA2⟩ : Tag).text = "000000000000000100000000000000A2" ∧
    (⟨1, 0xA2⟩ : Tag).bytes = [1, 0, 0, 0, 0, 0, 0, 0, 0xA2, 0, 0, 0, 0, 0, 0, 0] := by decide

end Tag

end GrammarExport
