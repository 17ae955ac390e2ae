import Relabel.Text.Utf8

/-!
# Modified UTF-8

The encoding of texts in class files. It writes a text as UTF-16 units, each of them in the one,
two or three bytes that UTF-8 would use, so that a character beyond the basic plane takes six bytes.
NUL takes two bytes. Decoding accepts longer forms of a unit than necessary, but no lone surrogate
and no zero byte.

Bytes without zero and without `F0` and above are tried as UTF-8 first, and texts whose UTF-8 has no
such bytes are written in UTF-8; the results are the same as unit by unit.
-/

namespace Relabel.ModifiedUtf8

open Utf8 (isContinuation)

/-- The lowest six bits of a continuation byte. -/
def low6 (byte : UInt8) : Nat := byte.toNat % 64

/-- The UTF-16 units of some bytes, behind those already `read`, last one first. -/
def unitsFrom (read : List Nat) : Bytes → Option (List Nat)
  | [] => some read.reverse
  | a :: rest =>
    if 0x01 ≤ a ∧ a ≤ 0x7F then unitsFrom (a.toNat :: read) rest
    else if 0xC0 ≤ a ∧ a ≤ 0xDF then
      match rest with
      | b :: rest =>
        if isContinuation b then unitsFrom ((a.toNat % 32 * 64 + low6 b) :: read) rest else none
      | [] => none
    else if 0xE0 ≤ a ∧ a ≤ 0xEF then
      match rest with
      | b :: c :: rest =>
        if isContinuation b && isContinuation c then
          unitsFrom (((a.toNat % 16 * 64 + low6 b) * 64 + low6 c) :: read) rest
        else none
      | _ => none
    else none

/-- The characters of UTF-16 units, behind those already `read`, last one first. Surrogates have to
come in pairs. -/
def charsFrom (read : List Char) : List Nat → Option (List Char)
  | [] => some read.reverse
  | unit :: rest =>
    if unit < 0xD800 ∨ 0xDFFF < unit then charsFrom (Char.ofNat unit :: read) rest
    else if unit ≤ 0xDBFF then
      match rest with
      | low :: rest =>
        if 0xDC00 ≤ low ∧ low ≤ 0xDFFF then
          charsFrom (Char.ofNat (0x10000 + (unit - 0xD800) * 0x400 + (low - 0xDC00)) :: read) rest
        else none
      | [] => none
    else none

/-- Decoding unit by unit. -/
def decodeUnits (bytes : Bytes) : Option String := do
  let units ← unitsFrom [] bytes
  let chars ← charsFrom [] units
  return String.ofList chars

/-- Whether bytes have none that UTF-8 and modified UTF-8 use differently. -/
def isPlain (bytes : Bytes) : Bool := bytes.all fun byte => byte ≠ 0 && byte < 0xF0

def decode (bytes : Bytes) : Option String :=
  if isPlain bytes then
    match Utf8.decode? bytes with
    | some text => some text
    | none => decodeUnits bytes
  else decodeUnits bytes

/-- The three bytes of a UTF-16 unit. -/
def encodeUnit (unit : Nat) : Bytes :=
  [UInt8.ofNat (0xE0 + unit / 4096), UInt8.ofNat (0x80 + unit / 64 % 64),
    UInt8.ofNat (0x80 + unit % 64)]

def encodeChar (c : Char) : Bytes :=
  if c = '\x00' then [0xC0, 0x80]
  else if c.toNat < 0x10000 then String.utf8EncodeChar c
  else
    let offset := c.toNat - 0x10000
    encodeUnit (0xD800 + offset / 0x400) ++ encodeUnit (0xDC00 + offset % 0x400)

/-- Encoding character by character. -/
def encodeEach (text : String) : Bytes := text.toList.flatMap encodeChar

def encode (text : String) : Bytes :=
  let bytes := Utf8.encode text
  if isPlain bytes then bytes else encodeEach text

end Relabel.ModifiedUtf8
