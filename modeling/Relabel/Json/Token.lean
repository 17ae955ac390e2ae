import Relabel.Text.Utf8

/-!
# JSON tokens

Blanks, words and strings of a JSON text, read from bytes. Reading stops at the first fault, and a
fault is one of three: the text ends too early, it is no JSON, or it is JSON of another shape than
the reader wants.
-/

namespace Relabel.Json

inductive Fault
  | malformed
  /-- The text is JSON of the wrong shape. -/
  | mismatch
  | truncated
  deriving DecidableEq, Repr

/-- Takes a value off the front of a text and leaves the rest. -/
abbrev Reader (α : Type) := Bytes → Except Fault (α × Bytes)

def skipBlanks (text : Bytes) : Bytes :=
  text.dropWhile fun byte => byte = 32 || byte = 9 || byte = 10 || byte = 13

/-- The text behind the rest of a word such as `null`. -/
def skipWord : (word text : Bytes) → Except Fault Bytes
  | [], text => .ok text
  | _ :: _, [] => .error .truncated
  | expected :: word, byte :: text =>
    if byte = expected then skipWord word text else .error .malformed

def hexValue? (byte : UInt8) : Option Nat :=
  if 48 ≤ byte && byte ≤ 57 then some (byte.toNat - 48)
  else if 65 ≤ byte && byte ≤ 70 then some (byte.toNat - 55)
  else if 97 ≤ byte && byte ≤ 102 then some (byte.toNat - 87)
  else none

def hexValue4? (a b c d : UInt8) : Option Nat := do
  let a ← hexValue? a
  let b ← hexValue? b
  let c ← hexValue? c
  let d ← hexValue? d
  return ((a * 16 + b) * 16 + c) * 16 + d

/-- The byte that a short escape stands for. -/
def shortEscape? (byte : UInt8) : Option UInt8 :=
  if byte = 34 ∨ byte = 92 ∨ byte = 47 then some byte
  else if byte = 98 then some 8
  else if byte = 102 then some 12
  else if byte = 110 then some 10
  else if byte = 114 then some 13
  else if byte = 116 then some 9
  else none

/-- Puts the bytes of a code point before those already `read`, last byte first. -/
def pushChar (code : Nat) (read : Bytes) : Bytes :=
  (String.utf8EncodeChar (Char.ofNat code)).reverse ++ read

/-- The bytes of a string up to its closing quote, behind those already `read`, last byte first. An
escaped leading surrogate must be followed by an escaped trailing one. -/
def stringFrom (read : Bytes) : Bytes → Except Fault (Bytes × Bytes)
  | [] => .error .truncated
  | 34 :: text => .ok (read.reverse, text)
  | 92 :: [] => .error .truncated
  | 92 :: 117 :: a :: b :: c :: d :: text =>
    match hexValue4? a b c d with
    | none => .error .malformed
    | some code =>
      if 0xDC00 ≤ code ∧ code ≤ 0xDFFF then .error .malformed
      else if code < 0xD800 ∨ 0xDBFF < code then stringFrom (pushChar code read) text
      else
        match text with
        | [] => .error .truncated
        | 92 :: [] => .error .truncated
        | 92 :: 117 :: a :: b :: c :: d :: text =>
          match hexValue4? a b c d with
          | none => .error .malformed
          | some low =>
            if 0xDC00 ≤ low ∧ low ≤ 0xDFFF then
              stringFrom (pushChar (0x10000 + (code - 0xD800) * 0x400 + (low - 0xDC00)) read) text
            else .error .malformed
        | 92 :: 117 :: _ => .error .truncated
        | _ => .error .malformed
  | 92 :: 117 :: _ => .error .truncated
  | 92 :: escape :: text =>
    match shortEscape? escape with
    | some byte => stringFrom (byte :: read) text
    | none => .error .malformed
  | byte :: text => if byte < 32 then .error .malformed else stringFrom (byte :: read) text

/-- A string behind its opening quote. Its bytes have to be UTF-8. -/
def string (text : Bytes) : Except Fault (String × Bytes) := do
  let (bytes, rest) ← stringFrom [] text
  match Utf8.decode? bytes with
  | some value => return (value, rest)
  | none => .error .malformed

/-- The text behind the closing quote of a string whose value nobody wants. Surrogates and bytes
that are no UTF-8 are let through. -/
def skipString : Bytes → Except Fault Bytes
  | [] => .error .truncated
  | 34 :: text => .ok text
  | 92 :: [] => .error .truncated
  | 92 :: 117 :: a :: b :: c :: d :: text =>
    match hexValue4? a b c d with
    | none => .error .malformed
    | some _ => skipString text
  | 92 :: 117 :: _ => .error .truncated
  | 92 :: escape :: text =>
    match shortEscape? escape with
    | some _ => skipString text
    | none => .error .malformed
  | byte :: text => if byte < 32 then .error .malformed else skipString text

end Relabel.Json
