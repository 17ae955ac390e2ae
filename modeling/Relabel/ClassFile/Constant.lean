import Relabel.ClassFile.Format

/-!
# Constants

The entries of a constant pool. Numbers keep their bits, texts their bytes, and references to other
entries their index, so that writing gives back what was read. A long or double number takes two
slots of the pool; the second of them, and the first slot of all, are unusable.
-/

namespace Relabel.ClassFile

inductive MemberKind
  | field
  | method
  | interfaceMethod
  deriving DecidableEq, Repr

inductive Constant
  /-- A text in modified UTF-8. -/
  | text (bytes : Bytes)
  | integer (value : Int32)
  | float (bits : UInt32)
  | long (value : Int64)
  | double (bits : UInt64)
  | classRef (name : UInt16)
  | string (text : UInt16)
  | memberRef (kind : MemberKind) (owner nameAndType : UInt16)
  | nameAndType (name descriptor : UInt16)
  | methodHandle (kind : UInt8) (reference : UInt16)
  | methodType (descriptor : UInt16)
  | dynamic (bootstrap nameAndType : UInt16)
  | invokeDynamic (bootstrap nameAndType : UInt16)
  | module (name : UInt16)
  | package (name : UInt16)
  | unusable
  deriving DecidableEq, Repr

namespace Constant

/-- Whether an entry takes two slots. -/
def isWide : Constant → Bool
  | .long _ | .double _ => true
  | _ => false

def isText : Constant → Bool
  | .text _ => true
  | _ => false

def isString : Constant → Bool
  | .string _ => true
  | _ => false

open Reader in
/-- The content of an entry with this tag. -/
def readContent (tag : UInt8) : Reader Constant :=
  match tag with
  | 1 => do return .text (← bytes (← u2).toNat)
  | 3 => do return .integer (← u4).toInt32
  | 4 => do return .float (← u4)
  | 5 => do return .long (← u8).toInt64
  | 6 => do return .double (← u8)
  | 7 => do return .classRef (← u2)
  | 8 => do return .string (← u2)
  | 9 => do return .memberRef .field (← u2) (← u2)
  | 10 => do return .memberRef .method (← u2) (← u2)
  | 11 => do return .memberRef .interfaceMethod (← u2) (← u2)
  | 12 => do return .nameAndType (← u2) (← u2)
  | 15 => do return .methodHandle (← u1) (← u2)
  | 16 => do return .methodType (← u2)
  | 17 => do return .dynamic (← u2) (← u2)
  | 18 => do return .invokeDynamic (← u2) (← u2)
  | 19 => do return .module (← u2)
  | 20 => do return .package (← u2)
  | tag => throw (.unsupportedConstant tag)

def read : Reader Constant := do readContent (← Reader.u1)

open Output in
/-- Appends an entry with its tag. Unusable slots are not written. -/
def write (out : Output) : Constant → Except Fault Output
  | .text content => (count .text (u1 out 1) content.length).map (bytes · content)
  | .integer value => .ok (u4 (u1 out 3) value.toUInt32)
  | .float bits => .ok (u4 (u1 out 4) bits)
  | .long value => .ok (u8 (u1 out 5) value.toUInt64)
  | .double bits => .ok (u8 (u1 out 6) bits)
  | .classRef name => .ok (u2 (u1 out 7) name)
  | .string value => .ok (u2 (u1 out 8) value)
  | .memberRef .field owner pair => .ok (u2 (u2 (u1 out 9) owner) pair)
  | .memberRef .method owner pair => .ok (u2 (u2 (u1 out 10) owner) pair)
  | .memberRef .interfaceMethod owner pair => .ok (u2 (u2 (u1 out 11) owner) pair)
  | .nameAndType name descriptor => .ok (u2 (u2 (u1 out 12) name) descriptor)
  | .methodHandle kind reference => .ok (u2 (u1 (u1 out 15) kind) reference)
  | .methodType descriptor => .ok (u2 (u1 out 16) descriptor)
  | .dynamic bootstrap pair => .ok (u2 (u2 (u1 out 17) bootstrap) pair)
  | .invokeDynamic bootstrap pair => .ok (u2 (u2 (u1 out 18) bootstrap) pair)
  | .module name => .ok (u2 (u1 out 19) name)
  | .package name => .ok (u2 (u1 out 20) name)
  | .unusable => .ok out

end Constant

end Relabel.ClassFile
