import Relabel.Bytes
import Relabel.ClassFile.Fault

/-!
# Numbers and tables in class files

Numbers are written in big-endian order in one, two, four or eight bytes. Tables are preceded by
their number of entries in two bytes, and blobs by their number of bytes in four. Readers take a
value off the front of the input; writers append a value to the output.
-/

namespace Relabel.ClassFile

/-- Takes a value off the front of the input. -/
abbrev Reader := StateT Bytes (Except Fault)

namespace Reader

def u1 : Reader UInt8
  | a :: rest => .ok (a, rest)
  | [] => .error .unexpectedEnd

def u2 : Reader UInt16
  | a :: b :: rest => .ok (UInt16.ofNat (a.toNat * 256 + b.toNat), rest)
  | _ => .error .unexpectedEnd

def u4 : Reader UInt32
  | a :: b :: c :: d :: rest =>
    .ok (UInt32.ofNat (((a.toNat * 256 + b.toNat) * 256 + c.toNat) * 256 + d.toNat), rest)
  | _ => .error .unexpectedEnd

def u8 : Reader UInt64 := do
  let high ← u4
  let low ← u4
  return UInt64.ofNat (high.toNat * 4294967296 + low.toNat)

def bytes (count : Nat) : Reader Bytes := fun input =>
  match Bytes.splitExact? count input with
  | some split => .ok split
  | none => .error .unexpectedEnd

/-- Reads `count` entries behind those already `found`, last one first. -/
def manyFrom {α : Type} (entry : Reader α) (found : List α) : (count : Nat) → Reader (List α)
  | 0, input => .ok (found.reverse, input)
  | count + 1, input =>
    match entry input with
    | .error fault => .error fault
    | .ok (value, rest) => manyFrom entry (value :: found) count rest

def many {α : Type} (count : Nat) (entry : Reader α) : Reader (List α) := manyFrom entry [] count

/-- A table with its number of entries in front of it. -/
def table {α : Type} (entry : Reader α) : Reader (List α) := do
  many (← u2).toNat entry

end Reader

abbrev Output := Array UInt8

namespace Output

def u1 (out : Output) (value : UInt8) : Output := out.push value

def u2 (out : Output) (value : UInt16) : Output :=
  (out.push (UInt8.ofNat (value.toNat / 256))).push (UInt8.ofNat value.toNat)

def u4 (out : Output) (value : UInt32) : Output :=
  (((out.push (UInt8.ofNat (value.toNat / 16777216))).push (UInt8.ofNat (value.toNat / 65536))).push
    (UInt8.ofNat (value.toNat / 256))).push (UInt8.ofNat value.toNat)

def u8 (out : Output) (value : UInt64) : Output :=
  u4 (u4 out (UInt32.ofNat (value.toNat / 4294967296))) (UInt32.ofNat value.toNat)

def bytes (out : Output) (bytes : Bytes) : Output := bytes.foldl Array.push out

/-- The number of entries of a table. -/
def count (part : Part) (out : Output) (size : Nat) : Except Fault Output :=
  if size < 65536 then .ok (u2 out (UInt16.ofNat size)) else .error (.tooLarge part)

/-- A blob behind its number of bytes. -/
def blob (part : Part) (out : Output) (content : Output) : Except Fault Output :=
  if content.size < 4294967296 then .ok (u4 out (UInt32.ofNat content.size) ++ content)
  else .error (.tooLarge part)

/-- The entries of a table, one after the other. -/
def entries {α : Type} (entry : Output → α → Except Fault Output) :
    (out : Output) → List α → Except Fault Output
  | out, [] => .ok out
  | out, value :: rest =>
    match entry out value with
    | .error fault => .error fault
    | .ok out => entries entry out rest

/-- A table behind its number of entries. -/
def table {α : Type} (part : Part) (entry : Output → α → Except Fault Output) (out : Output)
    (values : List α) : Except Fault Output :=
  match count part out values.length with
  | .error fault => .error fault
  | .ok out => entries entry out values

end Output

end Relabel.ClassFile
