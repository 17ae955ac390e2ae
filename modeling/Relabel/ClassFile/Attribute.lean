import Relabel.ClassFile.Annotation
import Relabel.ClassFile.Bytecode
import Relabel.ClassFile.Pool

/-!
# Attributes

An attribute has the index of its name and a body whose length is written in front of it. The name
decides how the body is read; bodies of attributes that nothing here looks into are kept as bytes.
The code of a method has attributes of its own, so attributes are nested; an attribute takes more
bytes than what it holds, so the number of bytes bounds their depth.
-/

namespace Relabel.ClassFile

structure Handler where
  start : UInt16
  stop : UInt16
  target : UInt16
  catchType : UInt16
  deriving DecidableEq, Repr

structure InnerClass where
  inner : UInt16
  outer : UInt16
  name : UInt16
  accessFlags : UInt16
  deriving DecidableEq, Repr

structure BootstrapMethod where
  method : UInt16
  arguments : List UInt16
  deriving DecidableEq, Repr

mutual

/-- An attribute of a class, a member or a code. -/
structure Attribute where
  name : UInt16
  body : AttributeBody
  deriving Repr

inductive AttributeBody
  | constantValue (value : UInt16)
  | code (code : Code)
  | annotations (annotations : List AnnotationEntry)
  | enclosingMethod (owner method : UInt16)
  | innerClasses (classes : List InnerClass)
  | bootstrapMethods (methods : List BootstrapMethod)
  | raw (bytes : Bytes)
  deriving Repr

structure Code where
  maxStack : UInt16
  maxLocals : UInt16
  bytes : Bytes
  handlers : List Handler
  attributes : List Attribute
  deriving Repr

end

instance : Inhabited Attribute := ⟨⟨0, .raw []⟩⟩

/-! ## Equality -/

mutual

def Attribute.decEq : (a b : Attribute) → Decidable (a = b)
  | ⟨name, body⟩, ⟨name', body'⟩ =>
    if same : name = name' then
      match AttributeBody.decEq body body' with
      | .isTrue h => .isTrue (by rw [same, h])
      | .isFalse h => .isFalse (by rintro ⟨⟩; exact h rfl)
    else .isFalse (by rintro ⟨⟩; exact same rfl)

def AttributeBody.decEq : (a b : AttributeBody) → Decidable (a = b)
  | .constantValue value, .constantValue value' =>
    if same : value = value' then .isTrue (by rw [same])
    else .isFalse (by rintro ⟨⟩; exact same rfl)
  | .code code, .code code' =>
    match Code.decEq code code' with
    | .isTrue h => .isTrue (by rw [h])
    | .isFalse h => .isFalse (by rintro ⟨⟩; exact h rfl)
  | .annotations annotations, .annotations annotations' =>
    if same : annotations = annotations' then .isTrue (by rw [same])
    else .isFalse (by rintro ⟨⟩; exact same rfl)
  | .enclosingMethod owner method, .enclosingMethod owner' method' =>
    if same : owner = owner' ∧ method = method' then .isTrue (by rw [same.1, same.2])
    else .isFalse (by rintro ⟨⟩; exact same ⟨rfl, rfl⟩)
  | .innerClasses classes, .innerClasses classes' =>
    if same : classes = classes' then .isTrue (by rw [same])
    else .isFalse (by rintro ⟨⟩; exact same rfl)
  | .bootstrapMethods methods, .bootstrapMethods methods' =>
    if same : methods = methods' then .isTrue (by rw [same])
    else .isFalse (by rintro ⟨⟩; exact same rfl)
  | .raw bytes, .raw bytes' =>
    if same : bytes = bytes' then .isTrue (by rw [same])
    else .isFalse (by rintro ⟨⟩; exact same rfl)
  | .constantValue _, .code _ | .constantValue _, .annotations _
  | .constantValue _, .enclosingMethod .. | .constantValue _, .innerClasses _
  | .constantValue _, .bootstrapMethods _ | .constantValue _, .raw _
  | .code _, .constantValue _ | .code _, .annotations _ | .code _, .enclosingMethod ..
  | .code _, .innerClasses _ | .code _, .bootstrapMethods _ | .code _, .raw _
  | .annotations _, .constantValue _ | .annotations _, .code _
  | .annotations _, .enclosingMethod .. | .annotations _, .innerClasses _
  | .annotations _, .bootstrapMethods _ | .annotations _, .raw _
  | .enclosingMethod .., .constantValue _ | .enclosingMethod .., .code _
  | .enclosingMethod .., .annotations _ | .enclosingMethod .., .innerClasses _
  | .enclosingMethod .., .bootstrapMethods _ | .enclosingMethod .., .raw _
  | .innerClasses _, .constantValue _ | .innerClasses _, .code _
  | .innerClasses _, .annotations _ | .innerClasses _, .enclosingMethod ..
  | .innerClasses _, .bootstrapMethods _ | .innerClasses _, .raw _
  | .bootstrapMethods _, .constantValue _ | .bootstrapMethods _, .code _
  | .bootstrapMethods _, .annotations _ | .bootstrapMethods _, .enclosingMethod ..
  | .bootstrapMethods _, .innerClasses _ | .bootstrapMethods _, .raw _
  | .raw _, .constantValue _ | .raw _, .code _ | .raw _, .annotations _
  | .raw _, .enclosingMethod .. | .raw _, .innerClasses _
  | .raw _, .bootstrapMethods _ => .isFalse nofun

def Code.decEq : (a b : Code) → Decidable (a = b)
  | ⟨stack, locals, bytes, handlers, attributes⟩,
    ⟨stack', locals', bytes', handlers', attributes'⟩ =>
    if same : stack = stack' ∧ locals = locals' ∧ bytes = bytes' ∧ handlers = handlers' then
      match Attribute.decEqList attributes attributes' with
      | .isTrue h => .isTrue (by obtain ⟨rfl, rfl, rfl, rfl⟩ := same; rw [h])
      | .isFalse h => .isFalse (by rintro ⟨⟩; exact h rfl)
    else .isFalse (by rintro ⟨⟩; exact same ⟨rfl, rfl, rfl, rfl⟩)

def Attribute.decEqList : (a b : List Attribute) → Decidable (a = b)
  | [], [] => .isTrue rfl
  | [], _ :: _ | _ :: _, [] => .isFalse nofun
  | a :: as, b :: bs =>
    match Attribute.decEq a b with
    | .isFalse h => .isFalse (by rintro ⟨⟩; exact h rfl)
    | .isTrue h =>
      match Attribute.decEqList as bs with
      | .isTrue hs => .isTrue (by rw [h, hs])
      | .isFalse hs => .isFalse (by rintro ⟨⟩; exact hs rfl)

end

instance : DecidableEq Attribute := Attribute.decEq

instance : DecidableEq AttributeBody := AttributeBody.decEq

instance : DecidableEq Code := Code.decEq

/-! ## Changing an index in place -/

/-- Puts another constant pool index into the instruction at an offset. The code stays as it is, and
the answer is no, if that cannot be done. -/
def Code.putIndex (code : Code) (offset : Nat) (index : UInt16) : Bool × Code :=
  match Bytecode.setIndex? code.bytes offset index with
  | some bytes => (true, { code with bytes })
  | none => (false, code)

/-! ## Reading -/

def Handler.read : Reader Handler := do
  let start ← Reader.u2
  let stop ← Reader.u2
  let target ← Reader.u2
  return { start, stop, target, catchType := ← Reader.u2 }

def InnerClass.read : Reader InnerClass := do
  let inner ← Reader.u2
  let outer ← Reader.u2
  let name ← Reader.u2
  return { inner, outer, name, accessFlags := ← Reader.u2 }

def BootstrapMethod.read : Reader BootstrapMethod := do
  return { method := ← Reader.u2, arguments := ← Reader.table Reader.u2 }

/-- A code whose attributes are read by `entry`. -/
def Code.readWith (entry : Reader Attribute) : Reader Code := do
  let maxStack ← Reader.u2
  let maxLocals ← Reader.u2
  let code ← Reader.bytes (← Reader.u4).toNat
  let handlers ← Reader.table Handler.read
  let attributes ← Reader.table entry
  return { maxStack, maxLocals, bytes := code, handlers, attributes }

/-- The reader of the bodies with a name, if they are not kept as bytes. Attributes of a code are
read by `entry`, and annotation values are nested at most `depth` deep. -/
def AttributeBody.reader? (depth : Nat) (entry : Reader Attribute) (name : String) :
    Option (Reader AttributeBody) :=
  match name with
  | "ConstantValue" => some do return .constantValue (← Reader.u2)
  | "Code" => some do return .code (← Code.readWith entry)
  | "RuntimeVisibleAnnotations" => some do
    return .annotations (← Reader.table (AnnotationEntry.read depth))
  | "EnclosingMethod" => some do return .enclosingMethod (← Reader.u2) (← Reader.u2)
  | "InnerClasses" => some do return .innerClasses (← Reader.table InnerClass.read)
  | "BootstrapMethods" => some do return .bootstrapMethods (← Reader.table BootstrapMethod.read)
  | _ => none

/-- The body with this name and these bytes, all of which it must use. -/
def AttributeBody.ofBytes (depth : Nat) (entry : Reader Attribute) (name : String)
    (content : Bytes) : Except Fault AttributeBody :=
  match AttributeBody.reader? depth entry name with
  | none => .ok (.raw content)
  | some read =>
    match read content with
    | .error fault => .error fault
    | .ok (body, []) => .ok body
    | .ok (_, _ :: _) => .error (.attributeLength name)

/-- An attribute that is nested at most `depth` deep. -/
def Attribute.read (pool : Pool) : (depth : Nat) → Reader Attribute
  | 0 => throw .unexpectedEnd
  | depth + 1 => do
    let name ← Reader.u2
    let content ← Reader.bytes (← Reader.u4).toNat
    let text ← liftM (pool.text name)
    let body ← liftM (AttributeBody.ofBytes depth (Attribute.read pool depth) text content)
    return { name, body }

/-- A table of attributes that are nested at most `depth` deep. -/
def Attribute.readTable (pool : Pool) (depth : Nat) : Reader (List Attribute) :=
  Reader.table (Attribute.read pool depth)

/-! ## Writing -/

open Output (count blob)

def Handler.write (out : Output) (h : Handler) : Except Fault Output :=
  .ok (Output.u2 (Output.u2 (Output.u2 (Output.u2 out h.start) h.stop) h.target) h.catchType)

def InnerClass.write (out : Output) (c : InnerClass) : Except Fault Output :=
  .ok (Output.u2 (Output.u2 (Output.u2 (Output.u2 out c.inner) c.outer) c.name) c.accessFlags)

def writeIndex (out : Output) (index : UInt16) : Except Fault Output := .ok (Output.u2 out index)

def BootstrapMethod.write (out : Output) (m : BootstrapMethod) : Except Fault Output :=
  Output.table .bootstrapArguments writeIndex (Output.u2 out m.method) m.arguments

mutual

/-- Appends an attribute: its name, and its body behind the body's length. -/
def Attribute.write : Output → Attribute → Except Fault Output
  | out, ⟨name, body⟩ =>
    match AttributeBody.write #[] body with
    | .error fault => .error fault
    | .ok content => blob .body (Output.u2 out name) content

def AttributeBody.write : Output → AttributeBody → Except Fault Output
  | out, .constantValue value => .ok (Output.u2 out value)
  | out, .code code => Code.write out code
  | out, .annotations annotations => Output.table .annotations AnnotationEntry.write out annotations
  | out, .enclosingMethod owner method => .ok (Output.u2 (Output.u2 out owner) method)
  | out, .innerClasses classes => Output.table .innerClasses InnerClass.write out classes
  | out, .bootstrapMethods methods =>
    Output.table .bootstrapMethods BootstrapMethod.write out methods
  | out, .raw content => .ok (Output.bytes out content)

def Code.write : Output → Code → Except Fault Output
  | out, ⟨maxStack, maxLocals, bytes, handlers, attributes⟩ =>
    match blob .code (Output.u2 (Output.u2 out maxStack) maxLocals) bytes.toArray with
    | .error fault => .error fault
    | .ok out =>
      match Output.table .handlers Handler.write out handlers with
      | .error fault => .error fault
      | .ok out =>
        match count .attributes out attributes.length with
        | .error fault => .error fault
        | .ok out => Attribute.writeAll out attributes

def Attribute.writeAll : Output → List Attribute → Except Fault Output
  | out, [] => .ok out
  | out, entry :: rest =>
    match Attribute.write out entry with
    | .error fault => .error fault
    | .ok out => Attribute.writeAll out rest

end

def Attribute.writeTable (out : Output) (attributes : List Attribute) : Except Fault Output :=
  match count .attributes out attributes.length with
  | .error fault => .error fault
  | .ok out => Attribute.writeAll out attributes

end Relabel.ClassFile
