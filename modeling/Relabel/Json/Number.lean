import Relabel.Json.Token

/-!
# Numbers in JSON

How a number is written, and whether it is in range. The range is that of double precision reached
in three roundings: the significand keeps as many leading digits as fit 64 bits, it and the power
of ten are rounded to double precision, and so is their product. A number is too large if that
product is infinite, which may happen a little below the point where the number itself would be.
-/

namespace Relabel.Json

/-! ## Grammar -/

def isDigit (byte : UInt8) : Bool := 48 ≤ byte && byte ≤ 57

/-- A number as it is written: the digits before and behind the point, and the exponent. -/
structure Number where
  whole : Bytes
  fraction : Bytes := []
  exponent : Int := 0

def digitValue (byte : UInt8) : Nat := byte.toNat - 48

def digitsValue (digits : Bytes) : Nat :=
  digits.foldl (fun total byte => total * 10 + digitValue byte) 0

/-- A run of digits, not empty. -/
def digits (text : Bytes) : Except Fault (Bytes × Bytes) :=
  match text.span isDigit with
  | ([], []) => .error .truncated
  | ([], _ :: _) => .error .malformed
  | (run, rest) => .ok (run, rest)

/-- The digits before the point: a single zero, or a run that does not start with one. -/
def wholePart (text : Bytes) : Except Fault (Bytes × Bytes) := do
  let (run, rest) ← digits text
  match run with
  | 48 :: _ :: _ => .error .malformed
  | _ => return (run, rest)

/-- The digits behind the point, if there is a point. -/
def fractionPart (text : Bytes) : Except Fault (Bytes × Bytes) :=
  match text with
  | 46 :: rest => digits rest
  | _ => .ok ([], text)

/-- The exponent, if there is one. -/
def exponentPart (text : Bytes) : Except Fault (Int × Bytes) :=
  match text with
  | [] => .ok (0, [])
  | byte :: rest =>
    if byte = 101 ∨ byte = 69 then do
      let (negative, rest) := match rest with
        | 45 :: rest => (true, rest)
        | 43 :: rest => (false, rest)
        | _ => (false, rest)
      let (run, rest) ← digits rest
      let value : Int := digitsValue run
      return (if negative then -value else value, rest)
    else .ok (0, text)

/-- A number. Its sign is dropped. -/
def number (text : Bytes) : Except Fault (Number × Bytes) := do
  let text := match text with
    | 45 :: rest => rest
    | _ => text
  let (whole, rest) ← wholePart text
  let (fraction, rest) ← fractionPart rest
  let (exponent, rest) ← exponentPart rest
  return ({ whole, fraction, exponent }, rest)

/-! ## Range -/

/-- The natural number nearest to `n` among those with at most 53 significant bits; of two that are
equally near it is the one whose last significant bit is zero. -/
def nearestDouble (n : Nat) : Nat :=
  if n < 1 <<< 53 then n
  else
    let unit := 1 <<< (n.log2 - 52)
    let kept := n / unit
    let dropped := n % unit
    if 2 * dropped > unit ∨ (2 * dropped = unit ∧ kept % 2 = 1) then (kept + 1) * unit
    else kept * unit

/-- The least natural number that rounds to infinity in double precision. -/
def infinity : Nat := 1 <<< 1024 - 1 <<< 970

/-- Appends digits to a value as long as it stays below `2 ^ 64`. Gives the value with the number
of digits that are left from the first that did not fit. -/
def appendDigits (value : Nat) : Bytes → Nat × Nat
  | [] => (value, 0)
  | byte :: rest =>
    let longer := value * 10 + digitValue byte
    if longer < 1 <<< 64 then appendDigits longer rest else (value, rest.length + 1)

/-- The significand of a number, which is below `2 ^ 64`, and the power of ten that goes with it.
Digits before the point that do not fit the significand raise the power; those behind the point
are dropped. -/
def Number.scaled (n : Number) : Nat × Int :=
  let (significand, left) := appendDigits 0 n.whole
  let (significand, dropped) := appendDigits significand n.fraction
  (significand, n.exponent + left - (n.fraction.length - dropped : Nat))

/-- Whether a number is too large for double precision. No power of ten above `10 ^ 308` is in
range. -/
def Number.isTooLarge (n : Number) : Bool :=
  match n.scaled with
  | (0, _) => false
  | (_, .negSucc _) => false
  | (significand, .ofNat power) =>
    308 < power || infinity ≤ nearestDouble significand * nearestDouble (Nat.pow 10 power)

end Relabel.Json
