import Relabel.Bytes

/-!
# SHA-1

The message is padded to a multiple of 64 bytes; each block of sixteen 32-bit words is expanded to
eighty words, which are mixed into the five words of the state one after the other.
-/

namespace Relabel.Sha1

/-- The running state of five words. -/
structure State where
  a : UInt32
  b : UInt32
  c : UInt32
  d : UInt32
  e : UInt32

def State.initial : State := ⟨0x67452301, 0xEFCDAB89, 0x98BADCFE, 0x10325476, 0xC3D2E1F0⟩

def State.add (s t : State) : State := ⟨s.a + t.a, s.b + t.b, s.c + t.c, s.d + t.d, s.e + t.e⟩

def rotateLeft (word : UInt32) (bits : UInt32) : UInt32 :=
  (word <<< bits) ||| (word >>> (32 - bits))

/-- The big-endian bytes of the lowest `count` bytes of a number. -/
def bigEndian (count n : Nat) : Bytes :=
  (List.range count).map fun i => UInt8.ofNat (n >>> (8 * (count - 1 - i)))

/-- The message with a one bit, zeros and its length in bits behind it. -/
def pad (message : Bytes) : Bytes :=
  let size := message.length
  message ++ 0x80 :: (List.replicate ((119 - size % 64) % 64) 0 ++ bigEndian 8 (size * 8))

def wordAt (message : Array UInt8) (offset : Nat) : UInt32 :=
  (List.range 4).foldl (fun word i => (word <<< 8) ||| (message.getD (offset + i) 0).toUInt32) 0

/-- The eighty words of a block. -/
def schedule (message : Array UInt8) (offset : Nat) : Array UInt32 :=
  let first := (Array.range 16).map fun i => wordAt message (offset + 4 * i)
  (List.range 64).foldl (fun words i =>
    words.push (rotateLeft
      (words.getD (i + 13) 0 ^^^ words.getD (i + 8) 0 ^^^ words.getD (i + 2) 0 ^^^ words.getD i 0)
      1)) first

/-- The mixing function and constant of a round. -/
def mix (round : Nat) (b c d : UInt32) : UInt32 :=
  if round < 20 then ((b &&& c) ||| (~~~b &&& d)) + 0x5A827999
  else if round < 40 then (b ^^^ c ^^^ d) + 0x6ED9EBA1
  else if round < 60 then ((b &&& c) ||| (b &&& d) ||| (c &&& d)) + 0x8F1BBCDC
  else (b ^^^ c ^^^ d) + 0xCA62C1D6

/-- One of the eighty rounds of a block. -/
def State.step (words : Array UInt32) (s : State) (round : Nat) : State :=
  ⟨rotateLeft s.a 5 + mix round s.b s.c s.d + s.e + words.getD round 0,
    s.a, rotateLeft s.b 30, s.c, s.d⟩

/-- Adds the block at an offset to the state. -/
def State.absorb (message : Array UInt8) (s : State) (offset : Nat) : State :=
  s.add ((List.range 80).foldl (State.step (schedule message offset)) s)

def digest (message : Bytes) : Bytes :=
  let padded := (pad message).toArray
  let final := (List.range (padded.size / 64)).foldl
    (fun s block => s.absorb padded (64 * block)) State.initial
  [final.a, final.b, final.c, final.d, final.e].flatMap fun word => bigEndian 4 word.toNat

end Relabel.Sha1
