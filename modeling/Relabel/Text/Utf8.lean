import Relabel.Bytes

/-!
# UTF-8

Bytes are read from left to right into *pieces*: a character, a broken piece that no character
starts with, or a cut, where the input ends inside a sequence that could still be completed.
A broken piece is as long as it can be while its bytes could begin a character, and one byte at
least. Strict decoding reports the first piece that is no character; lossy decoding puts the
replacement character in the place of each such piece.
-/

namespace Relabel.Utf8

/-- What the first byte of a sequence says about it. For longer sequences the second byte is the
one whose range depends on the first, so that no character has two spellings and no surrogate
has one. -/
inductive Lead
  | ascii
  | two
  | three (low high : UInt8)
  | four (low high : UInt8)
  | none
  deriving DecidableEq, Repr

def Lead.of (byte : UInt8) : Lead :=
  if byte < 0x80 then .ascii
  else if byte < 0xC2 then .none
  else if byte < 0xE0 then .two
  else if byte = 0xE0 then .three 0xA0 0xBF
  else if byte = 0xED then .three 0x80 0x9F
  else if byte < 0xF0 then .three 0x80 0xBF
  else if byte = 0xF0 then .four 0x90 0xBF
  else if byte < 0xF4 then .four 0x80 0xBF
  else if byte = 0xF4 then .four 0x80 0x8F
  else .none

/-- Whether a byte can stand at the third or fourth place of a sequence. -/
def isContinuation (byte : UInt8) : Bool := 0x80 ≤ byte && byte ≤ 0xBF

inductive Piece
  | char (value : Char)
  /-- Bytes that begin no character. -/
  | broken (length : Nat)
  /-- The bytes with which the input ends inside a sequence. -/
  | cut (length : Nat)
  deriving DecidableEq, Repr

def Piece.length : Piece → Nat
  | .char value => value.utf8Size
  | .broken length => length
  | .cut length => length

def char2 (a b : UInt8) : Char := Char.ofNat ((a.toNat - 0xC0) * 64 + (b.toNat - 0x80))

def char3 (a b c : UInt8) : Char :=
  Char.ofNat (((a.toNat - 0xE0) * 64 + (b.toNat - 0x80)) * 64 + (c.toNat - 0x80))

def char4 (a b c d : UInt8) : Char :=
  Char.ofNat ((((a.toNat - 0xF0) * 64 + (b.toNat - 0x80)) * 64 + (c.toNat - 0x80)) * 64
    + (d.toNat - 0x80))

/-- The first piece of an input that starts with the byte `a`. -/
def firstPiece (a : UInt8) (rest : Bytes) : Piece :=
  match Lead.of a with
  | .ascii => .char (Char.ofNat a.toNat)
  | .none => .broken 1
  | .two =>
    match rest with
    | [] => .cut 1
    | b :: _ => if isContinuation b then .char (char2 a b) else .broken 1
  | .three low high =>
    match rest with
    | [] => .cut 1
    | [b] => if low ≤ b ∧ b ≤ high then .cut 2 else .broken 1
    | b :: c :: _ =>
      if low ≤ b ∧ b ≤ high then
        if isContinuation c then .char (char3 a b c) else .broken 2
      else .broken 1
  | .four low high =>
    match rest with
    | [] => .cut 1
    | [b] => if low ≤ b ∧ b ≤ high then .cut 2 else .broken 1
    | [b, c] =>
      if low ≤ b ∧ b ≤ high then
        if isContinuation c then .cut 3 else .broken 2
      else .broken 1
    | b :: c :: d :: _ =>
      if low ≤ b ∧ b ≤ high then
        if isContinuation c then
          if isContinuation d then .char (char4 a b c d) else .broken 3
        else .broken 2
      else .broken 1

/-- The pieces of the input, behind those already `found`, last one first; the next `skip` bytes
belong to the piece found last. -/
def piecesFrom (found : List Piece) : (skip : Nat) → Bytes → List Piece
  | _, [] => found.reverse
  | skip + 1, _ :: rest => piecesFrom found skip rest
  | 0, a :: rest =>
    let piece := firstPiece a rest
    piecesFrom (piece :: found) (piece.length - 1) rest

/-- The pieces of a byte string, in order. -/
def pieces (bytes : Bytes) : List Piece := piecesFrom [] 0 bytes

/-- Why bytes are not UTF-8: the first piece that is no character, and where it starts. -/
inductive Fault
  | broken (index length : Nat)
  | cut (index : Nat)
  deriving DecidableEq, Repr

def Fault.message : Fault → String
  | .broken index length =>
    s!"invalid utf-8 sequence of {length} bytes from index {index}"
  | .cut index => s!"incomplete utf-8 byte sequence from index {index}"

/-- The text of pieces that are all characters; `index` is the offset of the first of them and
`read` the text before it, last character first. -/
def textFrom (index : Nat) (read : List Char) : List Piece → Except Fault (List Char)
  | [] => .ok read.reverse
  | .char value :: rest => textFrom (index + value.utf8Size) (value :: read) rest
  | .broken length :: _ => .error (.broken index length)
  | .cut _ :: _ => .error (.cut index)

/-- Strict decoding. -/
def decodeChars (bytes : Bytes) : Except Fault (List Char) := textFrom 0 [] (pieces bytes)

def decode (bytes : Bytes) : Except Fault String := (decodeChars bytes).map String.ofList

def decode? (bytes : Bytes) : Option String := (decode bytes).toOption

/-- A piece as lossy decoding writes it. -/
def Piece.lossy : Piece → Char
  | .char value => value
  | .broken _ | .cut _ => '\uFFFD'

/-- Decoding that replaces each piece that is no character by U+FFFD. -/
def decodeLossy (bytes : Bytes) : String := String.ofList ((pieces bytes).map Piece.lossy)

def encodeChars (text : List Char) : Bytes := text.flatMap String.utf8EncodeChar

def encode (text : String) : Bytes := encodeChars text.toList

/-- The number of bytes of a list of characters. -/
def size (text : List Char) : Nat := text.foldl (fun total c => total + c.utf8Size) 0

end Relabel.Utf8
