import Relabel.Pass.Basic
import Relabel.Text.LetterCase

/-!
# Callable references

For a reference to a function or a property, the Kotlin compiler makes a nested class whose
constructor passes the owner, the name and the signature of the member to the constructor of the
superclass. The name and the signature are strings that have to be relabelled with the member they
name.

The constructor is recognised by the four instructions before its first call of the superclass
constructor: loads of a class, of two strings, and of a number.
-/

namespace Relabel.Pass

open ClassFile

/-- What a class refers to. -/
inductive ReferenceKind
  | function
  /-- A property, which is read through its getter. -/
  | property
  deriving DecidableEq, Repr

/-- The kind of references that the subclasses of a class are. -/
def ReferenceKind.ofSuperclass? (name : String) : Option ReferenceKind :=
  if name = "kotlin/jvm/internal/FunctionReferenceImpl" then some .function
  else if name ∈ ["kotlin/jvm/internal/PropertyReference0Impl",
      "kotlin/jvm/internal/PropertyReference1Impl",
      "kotlin/jvm/internal/PropertyReference2Impl",
      "kotlin/jvm/internal/MutablePropertyReference0Impl",
      "kotlin/jvm/internal/MutablePropertyReference1Impl",
      "kotlin/jvm/internal/MutablePropertyReference2Impl"] then some .property
  else none

/-- A string and the instruction that loads it. -/
structure LoadedString where
  offset : Nat
  opcode : UInt8
  index : UInt16
  value : String
  deriving DecidableEq, Repr

/-- What a constructor passes to the superclass, and the position of that constructor. -/
structure Operands where
  constructor : Nat
  owner : String
  name : LoadedString
  signature : LoadedString
  deriving DecidableEq, Repr

/-! ## Recognising the constructor -/

/-- The constant that an instruction loads, if it is a load. -/
def loadedConstant? (pool : Pool) (i : Instruction) : Except Fault (Option Constant) :=
  if i.isLoad then
    match i.constantIndex? with
    | some index => (pool.get index).map some
    | none => .ok none
  else .ok none

/-- The string that an instruction loads, if it loads one. -/
def loadedString? (pool : Pool) (i : Instruction) : Except Fault (Option LoadedString) := do
  match ← loadedConstant? pool i with
  | some (.string text) =>
    let value ← pool.text text
    return some { offset := i.offset, opcode := i.opcode, index := i.constantIndex?.getD 0, value }
  | _ => return none

/-- The name of the class that an instruction loads, if it loads one. -/
def loadedClass? (pool : Pool) (i : Instruction) : Except Fault (Option String) := do
  match ← loadedConstant? pool i with
  | some (.classRef name) => return some (← pool.text name)
  | _ => return none

def isNumberLoad (pool : Pool) (i : Instruction) : Except Fault Bool := do
  if (Opcode.iconstM1 ≤ i.opcode && i.opcode ≤ Opcode.iconst5) || i.opcode = Opcode.bipush
      || i.opcode = Opcode.sipush then return true
  else
    match ← loadedConstant? pool i with
    | some (.integer _) => return true
    | _ => return false

/-- The position and the code of the first constructor among methods that start at a position; the
code is missing if that constructor has none. -/
def constructorFrom? (pool : Pool) (position : Nat) :
    List ClassFile.Member → Except Fault (Option (Nat × ClassFile.Code))
  | [] => .ok none
  | method :: rest =>
    match pool.text method.name with
    | .error fault => .error fault
    | .ok name =>
      if name = "<init>" then .ok (method.code?.map fun code => (position, code))
      else constructorFrom? pool (position + 1) rest

/-- Whether an instruction calls a constructor of a class. -/
def isConstructorCall (pool : Pool) (owner : String) (i : Instruction) : Except Fault Bool :=
  if i.opcode = Opcode.invokeSpecial then
    match i.constantIndex? with
    | some index =>
      (pool.member index).map fun member => member.owner = owner && member.name = "<init>"
    | none => .ok false
  else .ok false

/-- The four instructions before the first call of a constructor of a class, first one first;
`before` are the instructions up to here, last one first. -/
def beforeCall? (pool : Pool) (owner : String) (before : List Instruction) :
    List Instruction →
      Except Fault (Option (Instruction × Instruction × Instruction × Instruction))
  | [] => .ok none
  | i :: rest =>
    match isConstructorCall pool owner i with
    | .error fault => .error fault
    | .ok true =>
      match before with
      | d :: c :: b :: a :: _ => .ok (some (a, b, c, d))
      | _ => .ok none
    | .ok false => beforeCall? pool owner (i :: before) rest

/-- What the constructor of a class passes to its superclass of a given name, if the constructor has
the form that is recognised. -/
def operands? (file : ClassFile) (superName : String) : Except Fault (Option Operands) := do
  let pool := file.pool
  let some (constructor, code) ← constructorFrom? pool 0 file.methods | return none
  let decoded := Bytecode.decode code.bytes
  if let some fault := decoded.fault then throw fault
  let some (owner, name, signature, flags) ← beforeCall? pool superName [] decoded.instructions
    | return none
  unless ← isNumberLoad pool flags do return none
  let some owner ← loadedClass? pool owner | return none
  let name ← loadedString? pool name
  let signature ← loadedString? pool signature
  match name, signature with
  | some name, some signature => return some { constructor, owner, name, signature }
  | _, _ => return none

/-! ## The new name and signature -/

/-- The name and the signature of a member. -/
structure Callable where
  name : String
  signature : String
  deriving DecidableEq, Repr

/-- A property with the name of its field and the signature of its getter. Nothing changes if both
the name and the type stay the same, or if the signature has no type. -/
def relabelProperty? (table : SymbolTable) (owner : String) (old : Callable) :
    Option Callable := do
  let (_, descriptor) ← Text.splitFirst? ')' old.signature.toList
  let descriptor := String.ofList descriptor
  let name := (table.field? (owner ++ "." ++ old.name ++ "." ++ descriptor)).getD old.name
  let newDescriptor := table.renameDescriptor descriptor
  if name = old.name ∧ newDescriptor = descriptor then none
  else
    some { name
           signature :=
            "get" ++ String.ofList (Text.capitalize name.toList) ++ "()" ++ newDescriptor }

/-- A function with its name and its descriptor, in which each parameter and the result is renamed.
Nothing changes if both stay the same, or if the signature has no well-formed descriptor. -/
def relabelFunction? (table : SymbolTable) (owner : String) (old : Callable) :
    Option Callable := do
  let (_, rest) ← Text.splitFirst? '(' old.signature.toList
  let descriptor := '(' :: rest
  let key := owner ++ "." ++ old.name ++ String.ofList descriptor
  let name := (table.method? key).getD old.name
  let (parameters, result) ← Descriptor.splitMethod? descriptor
  let rename (part : List Char) : List Char :=
    (table.renameDescriptor (String.ofList part)).toList
  let newDescriptor := '(' :: parameters.flatMap rename ++ ')' :: rename result
  if name = old.name ∧ newDescriptor = descriptor then none
  else some { name, signature := name ++ String.ofList newDescriptor }

/-- The new name and signature of a member, if anything changes. -/
def relabelCallable? (table : SymbolTable) (kind : ReferenceKind) (owner : String)
    (old : Callable) : Option Callable :=
  match kind with
  | .property => relabelProperty? table owner old
  | .function => relabelFunction? table owner old

/-! ## Replacing a string -/

/-- How many fields, instructions and bootstrap arguments refer to an entry. -/
def referenceCount (file : ClassFile) (index : UInt16) : Except Fault Nat := do
  let inFields := file.fields.countP fun field => field.constantValue? = some index
  let inCode ← (file.methods.filterMap (·.code?)).foldlM (fun count code => do
    let decoded := Bytecode.decode code.bytes
    match decoded.fault with
    | some fault => throw fault
    | none => return count + decoded.instructions.countP (·.constantIndex? = some index)) 0
  let inArguments := file.attributes.foldl (fun count entry =>
    match entry.body with
    | .bootstrapMethods methods =>
      methods.foldl (fun count method => count + method.arguments.count index) count
    | _ => count) 0
  return inFields + inCode + inArguments

/-- Puts another index into an instruction of a method, if the instruction can hold it. -/
def setLoadIndex (method offset : Nat) (index : UInt16) : ClassFile.Edit Bool := fun file =>
  match file.methods[method]? with
  | none => (.ok false, file)
  | some member =>
    match member.code?.map fun code => code.putIndex offset index with
    | some (true, code) =>
      (.ok true, { file with methods := file.methods.set method (member.withCodeBytes code.bytes) })
    | _ => (.ok false, file)

/-- Makes an instruction of a method load another text. A string that nothing else refers to is
redirected. Otherwise the instruction gets a new string, if its operand can hold the index; if not,
all that refers to the string sees the new text. -/
def replaceString (method : Nat) (loaded : LoadedString) (value : String) :
    ClassFile.Edit Unit := do
  match referenceCount (← get) loaded.index with
  | .error fault => throw fault
  | .ok references =>
    let text ← ClassFile.onPool (Pool.addText value)
    let size := (← get).pool.size
    if 1 < references ∧ (loaded.opcode ≠ Opcode.ldc ∨ size ≤ 255) then
      let string ← ClassFile.onPool (Pool.push (.string text))
      if ← setLoadIndex method loaded.offset string then return
    ClassFile.onPool (Pool.redirect loaded.index text)

/-! ## The pass -/

/-- What a class refers to, if it is a callable reference. -/
def reference? (file : ClassFile) : Except Fault (Option (ReferenceKind × Operands)) := do
  let some superName ← file.superName | return none
  let some kind := ReferenceKind.ofSuperclass? superName | return none
  if !file.isNested then return none
  let _ ← file.name
  let some operands ← operands? file superName | return none
  return some (kind, operands)

/-- Relabels the member that a class refers to, if the class is a callable reference. The name and
the signature together are one change. -/
def relabelReference (table : SymbolTable) : ClassFile.Edit Changes := do
  match reference? (← get) with
  | .error fault => throw fault
  | .ok none => return {}
  | .ok (some (kind, operands)) =>
    let old := { name := operands.name.value, signature := operands.signature.value : Callable }
    match relabelCallable? table kind operands.owner old with
    | none => return {}
    | some new =>
      replaceString operands.constructor operands.name new.name
      replaceString operands.constructor operands.signature new.signature
      return ⟨1⟩

end Relabel.Pass
