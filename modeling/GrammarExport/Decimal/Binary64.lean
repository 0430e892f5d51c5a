/-!
# Binary floating-point numbers

The 64-bit floating-point numbers, by their bits. `Binary64.ofDecimal` rounds a decimal number to
the nearest of them, and `Binary64.text` writes one with the fewest digits that round back to it.
Both compute with exact integers.
-/

namespace GrammarExport

/-- A 64-bit binary floating-point number, by its bits. -/
structure Binary64 where
  bits : UInt64
  deriving DecidableEq, Repr

namespace Binary64

/-- The leading bit of a full significand, 2⁵². -/
def leadingBit : Nat := 0x10000000000000

/-- The first number that is too large for a significand, 2⁵³. -/
def significandBound : Nat := 0x20000000000000

/-- The quotient rounded to the nearest integer, a tie to the even one. -/
def roundDiv (num den : Nat) : Nat :=
  let q := num / den
  let r := num % den
  if den < 2 * r || (2 * r == den && q % 2 == 1) then q + 1 else q

/-- `num / den` as a fraction of `2 ^ e`: the numerator and denominator of `num / (den * 2 ^ e)`. -/
def scaled (num den : Nat) (e : Int) : Nat × Nat :=
  if 0 ≤ e then (num, den * Nat.pow 2 e.toNat) else (num * Nat.pow 2 (-e).toNat, den)

/-- Zero, with a sign. -/
def zero (negative : Bool) : Binary64 :=
  ⟨if negative then 0x8000000000000000 else 0⟩

/-- Infinity, with a sign. -/
def infinity (negative : Bool) : Binary64 :=
  ⟨if negative then 0xFFF0000000000000 else 0x7FF0000000000000⟩

/-- The value that is not a number. -/
def notANumber : Binary64 := ⟨0x7FF8000000000000⟩

/-- The number with a sign, a significand below `2 ^ 53` and a binary exponent not below -1074. -/
def ofParts (negative : Bool) (significand : Nat) (exponent : Int) : Binary64 :=
  let magnitude :=
    if significand < leadingBit then significand
    else (exponent + 1075).toNat * leadingBit + (significand - leadingBit)
  ⟨(if negative then 0x8000000000000000 else 0) + magnitude.toUInt64⟩

/-- The number nearest to the fraction `num / den`, which is not zero. -/
def ofFraction (negative : Bool) (num den : Nat) : Binary64 :=
  -- The binary order of the quotient is `guess` or one less.
  let guess : Int := (Nat.log2 num : Int) - Nat.log2 den
  let low := max (guess - 53) (-1074)
  let (n, d) := scaled num den low
  let e := if n / d < significandBound then low else low + 1
  let (n, d) := scaled num den e
  let m := roundDiv n d
  let (m, e) := if m = significandBound then (leadingBit, e + 1) else (m, e)
  if 971 < e then infinity negative else ofParts negative m e

/-- The number of decimal digits of a number. -/
def decimalLength (n : Nat) : Nat := (Nat.toDigits 10 n).length

/-- The number nearest to `± digits * 10 ^ exponent`. Numbers too large for any significand are
infinite, and numbers too small are zero. -/
def ofDecimal (negative : Bool) (digits : Nat) (exponent : Int) : Binary64 :=
  let order := decimalLength digits + exponent
  if digits = 0 || order < -330 then zero negative
  else if 310 < order then infinity negative
  else if 0 ≤ exponent then ofFraction negative (digits * Nat.pow 10 exponent.toNat) 1
  else ofFraction negative digits (Nat.pow 10 (-exponent).toNat)

/-! ### Text -/

/-- Whether the sign bit is set. -/
def isNegative (x : Binary64) : Bool := 0x8000000000000000 ≤ x.bits

/-- The exponent field. -/
def exponentField (x : Binary64) : Nat := x.bits.toNat / leadingBit % 2048

/-- The fraction field. -/
def fractionField (x : Binary64) : Nat := x.bits.toNat % leadingBit

/-- Significand and binary exponent of the magnitude of a finite number. -/
def parts (x : Binary64) : Nat × Int :=
  if x.exponentField = 0 then (x.fractionField, -1074)
  else (leadingBit + x.fractionField, (x.exponentField : Int) - 1075)

/-- A magnitude and the magnitudes that round to it, as numbers of one unit: `value` itself and
the ends of the interval, which belong to it if `closed`. -/
structure Interval where
  low : Nat
  value : Nat
  high : Nat
  unit : Nat × Nat
  closed : Bool

/-- The magnitudes that round to a given one. The distance to the next smaller number is halved at
the powers of two. -/
def interval (m : Nat) (e : Int) : Interval where
  low := if m = leadingBit ∧ -1074 < e then 4 * m - 1 else 4 * m - 2
  value := 4 * m
  high := 4 * m + 2
  unit := scaled 1 4 (-e)
  closed := m % 2 == 0

/-- Whether `n * 10 ^ k` lies in an interval. -/
def Interval.contains (i : Interval) (n : Nat) (k : Int) : Bool :=
  let (num, den) := if 0 ≤ k then (n * Nat.pow 10 k.toNat, 1) else (n, Nat.pow 10 (-k).toNat)
  -- Compare `num / den` with `low * unit` and `high * unit`.
  let x := num * i.unit.2
  let low := i.low * i.unit.1 * den
  let high := i.high * i.unit.1 * den
  if i.closed then low ≤ x && x ≤ high else low < x && x < high

/-- The multiples of `10 ^ k` next to a magnitude: the greatest that is not above it, and how far
above it the magnitude is, compared with half of `10 ^ k`. -/
def Interval.neighbour (i : Interval) (k : Int) : Nat × Ordering :=
  let (num, den) := (i.value * i.unit.1, i.unit.2)
  let (num, den) :=
    if 0 ≤ k then (num, den * Nat.pow 10 k.toNat) else (num * Nat.pow 10 (-k).toNat, den)
  (num / den, compare (2 * (num % den)) den)

/-- The shortest decimal in the interval with digits from the place `10 ^ k` on, or from lower
places: at each place both neighbours are tried, the nearer one first. -/
def Interval.shortest (i : Interval) : (places : Nat) → (k : Int) → Nat × Int
  | 0, k => ((i.neighbour k).1, k)
  | places + 1, k =>
    let (below, order) := i.neighbour k
    let tries := if order == .gt then [below + 1, below] else [below, below + 1]
    match tries.find? fun n ↦ 0 < n && i.contains n k with
    | some n => (n, k)
    | none => i.shortest places (k - 1)

/-- The digits of a positive finite magnitude and the power of ten of the last one. -/
def digits (m : Nat) (e : Int) : Nat × Int :=
  let i := interval m e
  -- An upper bound for the decimal order of the magnitude.
  let order : Int := ((Nat.log2 m + 1 + e) * 30103) / 100000 + 1
  i.shortest 24 order

/-- A decimal without an exponent: the digits of `n` with `k` zeros after them, or with the point
`-k` places before the last digit. -/
def positional (n : Nat) (k : Int) : String :=
  let ds := Nat.toDigits 10 n
  if 0 ≤ k then String.ofList (ds ++ List.replicate k.toNat '0')
  else
    let places := (-k).toNat
    let padded := List.replicate (places + 1 - ds.length) '0' ++ ds
    let whole := padded.length - places
    String.ofList (padded.take whole ++ '.' :: padded.drop whole)

/-- A number with the fewest digits that round back to it, without an exponent; a whole number has
no point. -/
def text (x : Binary64) : String :=
  let sign := if x.isNegative then "-" else ""
  if x.exponentField = 2047 then
    if x.fractionField = 0 then sign ++ "inf" else "NaN"
  else
    let (m, e) := x.parts
    if m = 0 then sign ++ "0"
    else
      let (n, k) := digits m e
      sign ++ positional n k

end Binary64

end GrammarExport
