import GrammarExport.Digest.Sha256
import GrammarExport.Text.Hex
import GrammarExport.Text.Record

/-!
# Type tags

A type tag is the identity of a kind of opaque value: two 64-bit words. A tag is written as 32
upper-case hexadecimal digits, lower word first (`Tag.text`), and laid out in memory as 16 bytes,
in the byte order of the machine (`Tag.layout`). Tags are either fixed constants, like
`Tag.language`, or drawn from a name by hashing (`Tag.ofName`).
-/

namespace GrammarExport

/-- The order in which a machine keeps the bytes of a word in memory. -/
inductive ByteOrder where
  /-- The least significant byte comes first. -/
  | little
  /-- The most significant byte comes first. -/
  | big
  deriving DecidableEq, Repr

/-- The identity of a kind of opaque value. -/
@[ext] structure Tag where
  lower : UInt64
  upper : UInt64
  deriving DecidableEq, Repr

namespace Tag

/-- The tag of language tables, shared by every producer and consumer of them. -/
def language : Tag := ⟨0x8AF2E5212AD58ABF, 0xD5006CAD83ABBA16⟩

/-- The tag words of a value without a tag. -/
def zero : Tag := ⟨0, 0⟩

/-- The word that a byte sequence spells, most significant byte first, modulo 2⁶⁴. -/
def wordOfBytes (bytes : List UInt8) : UInt64 :=
  bytes.foldl (fun w b ↦ (w <<< 8) ||| b.toUInt64) 0

/-- The eight bytes of a word in memory. -/
def bytesOfWord (order : ByteOrder) (w : UInt64) : List UInt8 :=
  let ascending := (List.range 8).map fun i ↦ (w >>> (8 * i).toUInt64).toUInt8
  match order with
  | .little => ascending
  | .big => ascending.reverse

/-- The tag of a kind that is known by name: the first 16 bytes of the SHA-256 digest of the
name's UTF-8 bytes, read as two words with the most significant byte first. -/
def ofName (name : String) : Tag :=
  let digest := Sha256.digest name.toUTF8.toList
  ⟨wordOfBytes (digest.take 8), wordOfBytes ((digest.drop 8).take 8)⟩

/-- A tag is written as 32 upper-case hexadecimal digits, lower word first. -/
def text (t : Tag) : String :=
  Hex.text .upper (Hex.fixed 16 t.lower.toNat ++ Hex.fixed 16 t.upper.toNat)

/-- The 16 bytes of a tag in memory: lower word first, each in the byte order of the machine. -/
def layout (order : ByteOrder) (t : Tag) : List UInt8 :=
  bytesOfWord order t.lower ++ bytesOfWord order t.upper

/-- The 16 bytes of a tag on a machine that keeps least significant bytes first. -/
def bytes (t : Tag) : List UInt8 := t.layout .little

/-- The fields of a tag, in decimal. -/
def fields (t : Tag) : String :=
  Record.text "TypeTag" [("lower", toString t.lower.toNat), ("upper", toString t.upper.toNat)]

end Tag

end GrammarExport
