import Relabel.Text.Quoted

/-!
# Faults of class files
-/

namespace Relabel.ClassFile

/-- The parts of a class file whose size is written in front of them. -/
inductive Part
  | pool
  | text
  | interfaces
  | fields
  | methods
  | attributes
  | body
  | code
  | handlers
  | annotations
  | elements
  | array
  | innerClasses
  | bootstrapMethods
  | bootstrapArguments
  deriving DecidableEq, Repr

def Part.name : Part → String
  | .pool => "constant pool"
  | .text => "utf8 constant"
  | .interfaces => "interfaces"
  | .fields => "fields"
  | .methods => "methods"
  | .attributes => "attributes"
  | .body => "attribute"
  | .code => "code"
  | .handlers => "exception table"
  | .annotations => "annotations"
  | .elements => "annotation elements"
  | .array => "annotation array"
  | .innerClasses => "inner classes"
  | .bootstrapMethods => "bootstrap methods"
  | .bootstrapArguments => "bootstrap arguments"

/-- Why a class file cannot be read, used or written. -/
inductive Fault
  | unexpectedEnd
  /-- The bytes do not start with the magic number. -/
  | badMagic
  | unsupportedConstant (tag : UInt8)
  /-- No entry, or one of the wrong kind, has this index. -/
  | invalidIndex (index : UInt16)
  /-- The text with this index is not in modified UTF-8. -/
  | invalidText (index : UInt16)
  | invalidElementTag (tag : UInt8)
  /-- An attribute is shorter than its declared length. -/
  | attributeLength (name : String)
  /-- An opcode that is not defined, or a switch with impossible bounds. -/
  | invalidInstruction (opcode : UInt8) (offset : Nat)
  | trailingBytes (count : Nat)
  /-- The constant pool takes no further entry. -/
  | poolFull
  /-- A text is too long for the constant pool. -/
  | textTooLong (length : Nat)
  /-- A part is too large for its size to be written. -/
  | tooLarge (part : Part)
  deriving DecidableEq, Repr

/-- A byte in hexadecimal: `0x` and two digits. -/
def hexByte (byte : UInt8) : String :=
  String.ofList ['0', 'x', Nat.digitChar (byte.toNat / 16), Nat.digitChar (byte.toNat % 16)]

def Fault.message : Fault → String
  | .unexpectedEnd => "unexpected end of class file"
  | .badMagic => "invalid class file magic header"
  | .unsupportedConstant tag => s!"unsupported constant pool tag {tag.toNat}"
  | .invalidIndex index => s!"invalid constant pool index {index.toNat}"
  | .invalidText index => s!"constant pool entry {index.toNat} is not valid modified UTF-8"
  | .invalidElementTag tag => s!"invalid annotation element tag " ++ hexByte tag
  | .attributeLength name => s!"attribute {name} does not match its declared length"
  | .invalidInstruction opcode offset =>
    "invalid instruction " ++ hexByte opcode ++ s!" at offset {offset}"
  | .trailingBytes count => s!"{count} trailing bytes after class file"
  | .poolFull => "constant pool is full"
  | .textTooLong length => s!"string of {length} bytes exceeds the constant pool limit"
  | .tooLarge part => s!"{part.name} is too large for a class file"

end Relabel.ClassFile
