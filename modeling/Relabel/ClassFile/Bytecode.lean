import Relabel.ClassFile.Fault
import Relabel.Bytes

/-!
# Bytecode

Code is a row of instructions, each an opcode and its operands. The opcode gives the number of
operand bytes, except for switches, whose tables follow zero to three bytes of padding, and for the
wide forms of other instructions. Code is only ever changed by putting another constant pool index
into an instruction, which moves nothing.
-/

namespace Relabel.ClassFile

/-- An instruction at an offset of its code. The operands include the padding of a switch. -/
structure Instruction where
  offset : Nat
  opcode : UInt8
  operands : Bytes
  deriving DecidableEq, Repr

namespace Opcode

def iconstM1 : UInt8 := 0x02
def iconst5 : UInt8 := 0x08
def bipush : UInt8 := 0x10
def sipush : UInt8 := 0x11
def ldc : UInt8 := 0x12
def ldcW : UInt8 := 0x13
def ldc2W : UInt8 := 0x14
def iinc : UInt8 := 0x84
def tableSwitch : UInt8 := 0xAA
def lookupSwitch : UInt8 := 0xAB
def invokeSpecial : UInt8 := 0xB7
def wide : UInt8 := 0xC4

/-- Whether the operands start with a constant pool index of two bytes: the long loads of
constants, field access, calls, object and array creation, and type tests. -/
def hasIndex (opcode : UInt8) : Bool :=
  opcode = ldcW || opcode = ldc2W || (0xB2 ≤ opcode && opcode ≤ 0xBB) || opcode = 0xBD
    || opcode = 0xC0 || opcode = 0xC1 || opcode = 0xC5

/-- The number of operand bytes of an opcode for which it is fixed. -/
def operandCount? (opcode : UInt8) : Option Nat :=
  if opcode ≤ 0x0F then some 0
  else if opcode = bipush then some 1
  else if opcode = sipush then some 2
  else if opcode = ldc then some 1
  else if opcode = ldcW || opcode = ldc2W then some 2
  else if opcode ≤ 0x19 then some 1
  else if opcode ≤ 0x35 then some 0
  else if opcode ≤ 0x3A then some 1
  else if opcode ≤ 0x83 then some 0
  else if opcode = iinc then some 2
  else if opcode ≤ 0x98 then some 0
  else if opcode ≤ 0xA8 then some 2
  else if opcode = 0xA9 then some 1
  else if opcode = tableSwitch || opcode = lookupSwitch then none
  else if opcode ≤ 0xB1 then some 0
  else if opcode ≤ 0xB8 then some 2
  else if opcode ≤ 0xBA then some 4
  else if opcode = 0xBB then some 2
  else if opcode = 0xBC then some 1
  else if opcode = 0xBD then some 2
  else if opcode ≤ 0xBF then some 0
  else if opcode ≤ 0xC1 then some 2
  else if opcode ≤ 0xC3 then some 0
  else if opcode = wide then none
  else if opcode = 0xC5 then some 3
  else if opcode ≤ 0xC7 then some 2
  else if opcode ≤ 0xC9 then some 4
  else none

end Opcode

namespace Instruction

/-- Whether this is one of the two instructions that load a constant of one slot. -/
def isLoad (i : Instruction) : Bool := i.opcode = Opcode.ldc || i.opcode = Opcode.ldcW

/-- The constant pool index that an instruction refers to. -/
def constantIndex? (i : Instruction) : Option UInt16 :=
  if i.opcode = Opcode.ldc then i.operands.head?.map UInt8.toUInt16
  else if Opcode.hasIndex i.opcode then
    match i.operands with
    | high :: low :: _ => some (UInt16.ofNat (high.toNat * 256 + low.toNat))
    | _ => none
  else none

/-- A signed number of four bytes at the front of some bytes. -/
def int32? : Bytes → Option Int
  | a :: b :: c :: d :: _ =>
    let n : Int := ((a.toNat * 256 + b.toNat) * 256 + c.toNat) * 256 + d.toNat
    some (if n < 2147483648 then n else n - 4294967296)
  | _ => none

/-- The number of padding bytes of a switch at an offset: its tables start at a multiple of
four. -/
def padding (offset : Nat) : Nat := (4 - (offset + 1) % 4) % 4

/-- The number of operand bytes of the instruction at an offset, with the bytes that follow its
opcode. -/
def operandCount (offset : Nat) (opcode : UInt8) (rest : Bytes) : Except Fault Nat :=
  match Opcode.operandCount? opcode with
  | some count => .ok count
  | none =>
    if opcode = Opcode.tableSwitch then
      let table := rest.drop (padding offset)
      match int32? (table.drop 4), int32? (table.drop 8) with
      | some low, some high =>
        if high < low then .error (.invalidInstruction opcode offset)
        else .ok (padding offset + 12 + (high - low + 1).toNat * 4)
      | _, _ => .error .unexpectedEnd
    else if opcode = Opcode.lookupSwitch then
      match int32? ((rest.drop (padding offset)).drop 4) with
      | some pairs =>
        if pairs < 0 then .error (.invalidInstruction opcode offset)
        else .ok (padding offset + 8 + pairs.toNat * 8)
      | none => .error .unexpectedEnd
    else if opcode = Opcode.wide then
      match rest with
      | [] => .error .unexpectedEnd
      | form :: _ => .ok (if form = Opcode.iinc then 5 else 3)
    else .error (.invalidInstruction opcode offset)

end Instruction

/-- The instructions of a code, up to a fault if there is one. -/
structure Decoded where
  instructions : List Instruction
  fault : Option Fault := none
  deriving DecidableEq, Repr

namespace Bytecode

/-- The instructions from an offset on, behind those already `found`, last one first. Each takes at
least one byte, so as much `fuel` is enough. -/
def decodeFrom (found : List Instruction) (offset : Nat) : (fuel : Nat) → Bytes → Decoded
  | _, [] => { instructions := found.reverse }
  | 0, _ :: _ => { instructions := found.reverse, fault := some .unexpectedEnd }
  | fuel + 1, opcode :: rest =>
    match Instruction.operandCount offset opcode rest with
    | .error fault => { instructions := found.reverse, fault := some fault }
    | .ok count =>
      match Bytes.splitExact? count rest with
      | none => { instructions := found.reverse, fault := some .unexpectedEnd }
      | some (operands, rest) =>
        decodeFrom ({ offset, opcode, operands } :: found) (offset + 1 + count) fuel rest

def decode (code : Bytes) : Decoded := decodeFrom [] 0 code.length code

/-- The code with another constant pool index in the instruction at an offset, or nothing if that
instruction has none, or if its single byte cannot hold the index. -/
def setIndex? (code : Bytes) (offset : Nat) (index : UInt16) : Option Bytes :=
  match code.drop offset with
  | [] => none
  | opcode :: operands =>
    if opcode = Opcode.ldc then
      if 255 < index.toNat || operands.isEmpty then none
      else some (code.set (offset + 1) (UInt8.ofNat index.toNat))
    else if Opcode.hasIndex opcode then
      match operands with
      | _ :: _ :: _ =>
        some ((code.set (offset + 1) (UInt8.ofNat (index.toNat / 256))).set (offset + 2)
          (UInt8.ofNat index.toNat))
      | _ => none
    else none

end Bytecode

end Relabel.ClassFile
