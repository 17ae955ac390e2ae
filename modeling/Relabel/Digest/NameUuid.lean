import Relabel.Digest.Sha1

/-!
# Name-based UUIDs

A version 5 UUID is the first sixteen bytes of the SHA-1 digest of a namespace UUID followed by a
name, with the version and the variant written over six of its bits. A pair of mapping files gets
the UUID of its second file inside the namespace that is the UUID of its first file.
-/

namespace Relabel

structure Uuid where
  bytes : Bytes
  deriving DecidableEq, Repr

namespace Uuid

/-- The version 5 UUID of a name in a namespace. -/
def ofName (space : Uuid) (name : Bytes) : Uuid :=
  let hash := (Sha1.digest (space.bytes ++ name)).take 16
  let versioned := hash.modify 6 fun byte => (byte &&& 0x0F) ||| 0x50
  ⟨versioned.modify 8 fun byte => (byte &&& 0x3F) ||| 0x80⟩

/-- The two lower-case hexadecimal digits of a byte. -/
def hexByte (byte : UInt8) : List Char :=
  [Nat.digitChar (byte.toNat / 16), Nat.digitChar (byte.toNat % 16)]

/-- Lower-case digits in groups of 8, 4, 4, 4 and 12, with hyphens between the groups. -/
def toString (uuid : Uuid) : String :=
  let digits := uuid.bytes.flatMap hexByte
  String.ofList ("-".toList.intercalate
    [digits.take 8, (digits.drop 8).take 4, (digits.drop 12).take 4, (digits.drop 16).take 4,
      digits.drop 20])

/-- The namespace of mapping files. -/
def mappings : Uuid :=
  ⟨[0x98, 0x9C, 0xEC, 0x59, 0x1D, 0x76, 0x5C, 0xB4,
    0xBA, 0x0C, 0x00, 0x44, 0x92, 0x8F, 0xBE, 0x17]⟩

/-- The UUID of a debug mapping together with a compact mapping. -/
def ofMappings (debug compact : Bytes) : Uuid := (mappings.ofName debug).ofName compact

end Uuid

end Relabel
