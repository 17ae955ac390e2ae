import Relabel.ClassFile.Attribute

/-!
# Class files

A class file starts with a magic number, its version and its constant pool, followed by the class
with its interfaces, fields, methods and attributes. Reading keeps everything, so that writing what
has been read gives the same bytes.
-/

namespace Relabel

namespace ClassFile

structure Member where
  accessFlags : UInt16
  name : UInt16
  descriptor : UInt16
  attributes : List Attribute
  deriving DecidableEq, Repr

namespace Member

/-- The first code of a method. -/
def code? (member : Member) : Option Code :=
  member.attributes.findSome? fun entry =>
    match entry.body with
    | .code code => some code
    | _ => none

/-- The index of the first constant value of a field. -/
def constantValue? (member : Member) : Option UInt16 :=
  member.attributes.findSome? fun entry =>
    match entry.body with
    | .constantValue value => some value
    | _ => none

/-- Attributes with other bytes in the first code. -/
def setCodeBytes (bytes : Bytes) : List Attribute → List Attribute
  | [] => []
  | ⟨name, .code code⟩ :: rest => ⟨name, .code { code with bytes }⟩ :: rest
  | entry :: rest => entry :: setCodeBytes bytes rest

/-- The method with other bytes in its first code. -/
def withCodeBytes (member : Member) (bytes : Bytes) : Member :=
  { member with attributes := setCodeBytes bytes member.attributes }

end Member

end ClassFile

open ClassFile in
structure ClassFile where
  minorVersion : UInt16
  majorVersion : UInt16
  pool : Pool
  accessFlags : UInt16
  thisClass : UInt16
  /-- Zero for the root of the class hierarchy. -/
  superClass : UInt16
  interfaces : List UInt16
  fields : List Member
  methods : List Member
  attributes : List Attribute
  deriving DecidableEq, Repr

namespace ClassFile

/-! ## Reading and writing -/

/-- A member whose attributes are nested at most `depth` deep. -/
def Member.read (pool : Pool) (depth : Nat) : Reader Member := do
  return {
    accessFlags := ← Reader.u2
    name := ← Reader.u2
    descriptor := ← Reader.u2
    attributes := ← Attribute.readTable pool depth }

def Member.write (out : Output) (member : Member) : Except Fault Output :=
  Attribute.writeTable
    (Output.u2 (Output.u2 (Output.u2 out member.accessFlags) member.name) member.descriptor)
    member.attributes

def magic : UInt32 := 0xCAFEBABE

/-- A class file whose attributes are nested at most `depth` deep. -/
def read (depth : Nat) : Reader ClassFile := do
  if (← Reader.u4) ≠ magic then throw .badMagic
  let minorVersion ← Reader.u2
  let majorVersion ← Reader.u2
  let pool ← Pool.read
  let accessFlags ← Reader.u2
  let thisClass ← Reader.u2
  let superClass ← Reader.u2
  let interfaces ← Reader.table Reader.u2
  let fields ← Reader.table (Member.read pool depth)
  let methods ← Reader.table (Member.read pool depth)
  let attributes ← Attribute.readTable pool depth
  return { minorVersion, majorVersion, pool, accessFlags, thisClass, superClass, interfaces,
           fields, methods, attributes }

/-- The class file that takes up all of some bytes, whose number is more than enough depth. -/
def parse (bytes : Bytes) : Except Fault ClassFile :=
  match read bytes.length bytes with
  | .error fault => .error fault
  | .ok (file, []) => .ok file
  | .ok (_, rest) => .error (.trailingBytes rest.length)

def write (out : Output) (file : ClassFile) : Except Fault Output := do
  let out := Output.u2 (Output.u2 (Output.u4 out magic) file.minorVersion) file.majorVersion
  let out ← file.pool.write out
  let out := Output.u2 (Output.u2 (Output.u2 out file.accessFlags) file.thisClass) file.superClass
  let out ← Output.table .interfaces writeIndex out file.interfaces
  let out ← Output.table .fields Member.write out file.fields
  let out ← Output.table .methods Member.write out file.methods
  Attribute.writeTable out file.attributes

def toBytes (file : ClassFile) : Except Fault Bytes := (file.write #[]).map Array.toList

/-! ## Names -/

def name (file : ClassFile) : Except Fault String := file.pool.className file.thisClass

/-- The internal name of the superclass, if there is one. -/
def superName (file : ClassFile) : Except Fault (Option String) :=
  if file.superClass = 0 then .ok none else (file.pool.className file.superClass).map some

def memberName (file : ClassFile) (member : Member) : Except Fault String :=
  file.pool.text member.name

/-- Whether the class is declared inside another one: local and anonymous classes name the method
around them, and member classes are listed among the inner classes. -/
def isNested (file : ClassFile) : Bool :=
  file.attributes.any fun entry =>
    match entry.body with
    | .enclosingMethod .. => true
    | .innerClasses classes => classes.any (·.inner = file.thisClass)
    | _ => false

/-! ## Edits -/

/-- A change of a class file, which may fail after part of its work. -/
abbrev Edit := ExceptT Fault (StateM ClassFile)

def onPool {α : Type} (edit : Pool.Edit α) : Edit α := fun file =>
  let pool := file.pool
  let file := { file with pool := ⟨#[]⟩ }
  let (result, pool) := edit pool
  (result, { file with pool })

/-- A public class without members, with the names of itself and its superclass. -/
def create (name superName : String) : Except Fault ClassFile :=
  let edit : Pool.Edit (UInt16 × UInt16) := do
    return (← Pool.addClass name, ← Pool.addClass superName)
  match edit Pool.empty with
  | (.error fault, _) => .error fault
  | (.ok (thisClass, superClass), pool) =>
    .ok { minorVersion := 0, majorVersion := 52, pool, accessFlags := 0x0021, thisClass,
          superClass, interfaces := [], fields := [], methods := [], attributes := [] }

/-- A member without attributes, whose name and descriptor are in the pool. -/
def newMember (accessFlags : UInt16) (name descriptor : String) : Edit Member := do
  let name ← onPool (Pool.addText name)
  let descriptor ← onPool (Pool.addText descriptor)
  return { accessFlags, name, descriptor, attributes := [] }

def addField (accessFlags : UInt16) (name descriptor : String) : Edit Nat := do
  let member ← newMember accessFlags name descriptor
  modifyGet fun file =>
    (file.fields.length, { file with fields := file.fields ++ [member] })

def addMethod (accessFlags : UInt16) (name descriptor : String) : Edit Nat := do
  let member ← newMember accessFlags name descriptor
  modifyGet fun file =>
    (file.methods.length, { file with methods := file.methods ++ [member] })

/-- An attribute whose name is in the pool. -/
def newAttribute (name : String) (body : AttributeBody) : Edit Attribute := do
  let name ← onPool (Pool.addText name)
  return { name, body }

end ClassFile

end Relabel
