/-!
# SHA-256

The secure hash with 256-bit digests, on byte lists. A message is padded to whole blocks of 64
bytes (`Sha256.padded`), the blocks are folded into the chaining state one after another
(`Sha256.compress`), and the digest is the final state written big-endian (`Sha256.digest`).

The state is a record of eight words, so a digest has 32 bytes by construction
(`Sha256.length_digest`).
-/

namespace GrammarExport

namespace Sha256

/-- The eight words of the chaining state. -/
structure State where
  (a b c d e f g h : UInt32)
  deriving DecidableEq, Repr

namespace State

/-- Where every message starts. -/
def initial : State :=
  ⟨0x6a09e667, 0xbb67ae85, 0x3c6ef372, 0xa54ff53a, 0x510e527f, 0x9b05688c, 0x1f83d9ab, 0x5be0cd19⟩

/-- Wordwise sum, modulo 2³². -/
def add (s t : State) : State :=
  ⟨s.a + t.a, s.b + t.b, s.c + t.c, s.d + t.d, s.e + t.e, s.f + t.f, s.g + t.g, s.h + t.h⟩

end State

/-- One constant for each of the 64 rounds. -/
def roundConstants : List UInt32 :=
  [0x428a2f98, 0x71374491, 0xb5c0fbcf, 0xe9b5dba5, 0x3956c25b, 0x59f111f1, 0x923f82a4, 0xab1c5ed5,
   0xd807aa98, 0x12835b01, 0x243185be, 0x550c7dc3, 0x72be5d74, 0x80deb1fe, 0x9bdc06a7, 0xc19bf174,
   0xe49b69c1, 0xefbe4786, 0x0fc19dc6, 0x240ca1cc, 0x2de92c6f, 0x4a7484aa, 0x5cb0a9dc, 0x76f988da,
   0x983e5152, 0xa831c66d, 0xb00327c8, 0xbf597fc7, 0xc6e00bf3, 0xd5a79147, 0x06ca6351, 0x14292967,
   0x27b70a85, 0x2e1b2138, 0x4d2c6dfc, 0x53380d13, 0x650a7354, 0x766a0abb, 0x81c2c92e, 0x92722c85,
   0xa2bfe8a1, 0xa81a664b, 0xc24b8b70, 0xc76c51a3, 0xd192e819, 0xd6990624, 0xf40e3585, 0x106aa070,
   0x19a4c116, 0x1e376c08, 0x2748774c, 0x34b0bcb5, 0x391c0cb3, 0x4ed8aa4a, 0x5b9cca4f, 0x682e6ff3,
   0x748f82ee, 0x78a5636f, 0x84c87814, 0x8cc70208, 0x90befffa, 0xa4506ceb, 0xbef9a3f7, 0xc67178f2]

/-- Rotation to the right by `k` bits, `0 < k < 32`. -/
def rotateRight (x k : UInt32) : UInt32 :=
  (x >>> k) ||| (x <<< (32 - k))

/-- The word that four bytes spell, most significant first. -/
def wordOfBytes (b₀ b₁ b₂ b₃ : UInt8) : UInt32 :=
  (b₀.toUInt32 <<< 24) ||| (b₁.toUInt32 <<< 16) ||| (b₂.toUInt32 <<< 8) ||| b₃.toUInt32

/-- A word as four bytes, most significant first. -/
def bytesOfWord (w : UInt32) : List UInt8 :=
  [(w >>> 24).toUInt8, (w >>> 16).toUInt8, (w >>> 8).toUInt8, w.toUInt8]

/-- The words of a block; a remainder of fewer than four bytes is dropped. -/
def words : List UInt8 → List UInt32
  | b₀ :: b₁ :: b₂ :: b₃ :: rest => wordOfBytes b₀ b₁ b₂ b₃ :: words rest
  | _ => []

/-- The 64 words of the message schedule: the block's sixteen, then each later word from the
words 16, 15, 7 and 2 places before it. -/
def schedule (block : List UInt8) : Array UInt32 :=
  (List.range 48).foldl
    (fun w i ↦
      let x := w.getD (i + 1) 0
      let y := w.getD (i + 14) 0
      let s₀ := rotateRight x 7 ^^^ rotateRight x 18 ^^^ (x >>> 3)
      let s₁ := rotateRight y 17 ^^^ rotateRight y 19 ^^^ (y >>> 10)
      w.push (w.getD i 0 + s₀ + w.getD (i + 9) 0 + s₁))
    (words block).toArray

/-- One round with its constant and schedule word. -/
def round (s : State) (constant word : UInt32) : State :=
  let S₁ := rotateRight s.e 6 ^^^ rotateRight s.e 11 ^^^ rotateRight s.e 25
  let choice := (s.e &&& s.f) ^^^ ((~~~ s.e) &&& s.g)
  let t₁ := s.h + S₁ + choice + constant + word
  let S₀ := rotateRight s.a 2 ^^^ rotateRight s.a 13 ^^^ rotateRight s.a 22
  let majority := (s.a &&& s.b) ^^^ (s.a &&& s.c) ^^^ (s.b &&& s.c)
  ⟨t₁ + (S₀ + majority), s.a, s.b, s.c, s.d + t₁, s.e, s.f, s.g⟩

/-- Folds one block of 64 bytes into the state. -/
def compress (s : State) (block : List UInt8) : State :=
  s.add <| (roundConstants.zip (schedule block).toList).foldl (fun t cw ↦ round t cw.1 cw.2) s

/-- The message, a one bit, zeros up to eight bytes short of a whole block, and the length of the
message in bits. -/
def padded (message : List UInt8) : List UInt8 :=
  let n := message.length
  let zeros := (119 - n % 64) % 64
  let bits := (8 * n).toUInt64
  let tail := bytesOfWord (bits >>> 32).toUInt32 ++ bytesOfWord bits.toUInt32
  message ++ (0x80 : UInt8) :: (List.replicate zeros 0 ++ tail)

/-- The final state for a message. -/
def state (message : List UInt8) : State :=
  let bytes := padded message
  (List.range (bytes.length / 64)).foldl
    (fun s i ↦ compress s ((bytes.drop (64 * i)).take 64)) .initial

/-- The 32 bytes of the digest. -/
def digest (message : List UInt8) : List UInt8 :=
  let s := state message
  [s.a, s.b, s.c, s.d, s.e, s.f, s.g, s.h].flatMap bytesOfWord

@[simp] theorem length_digest (message : List UInt8) : (digest message).length = 32 := by
  simp [digest, bytesOfWord]

end Sha256

end GrammarExport
