import Relabel.ClassFile.Format

/-!
# Annotations

An annotation has a type and named elements. The value of an element is a constant, an enum
constant, a class, an annotation again, or an array of values; all of them refer to the constant
pool by index.

A nested value takes at least one byte more than what it holds, so the number of bytes bounds the
depth to which values are nested.
-/

namespace Relabel.ClassFile

mutual

/-- An annotation; its elements are pairs of the index of their name and a value. -/
structure AnnotationEntry where
  type : UInt16
  elements : List (UInt16 × ElementValue)
  deriving Repr

inductive ElementValue
  /-- A constant; the tag tells its type. -/
  | const (tag : UInt8) (value : UInt16)
  | enumConst (type name : UInt16)
  | classInfo (descriptor : UInt16)
  | nested (value : AnnotationEntry)
  | array (values : List ElementValue)
  deriving Repr

end

instance : Inhabited ElementValue := ⟨.const 0 0⟩

/-! ## Equality -/

mutual

def AnnotationEntry.decEq : (a b : AnnotationEntry) → Decidable (a = b)
  | ⟨type, elements⟩, ⟨type', elements'⟩ =>
    if same : type = type' then
      match ElementValue.decEqElements elements elements' with
      | .isTrue h => .isTrue (by rw [same, h])
      | .isFalse h => .isFalse (by rintro ⟨⟩; exact h rfl)
    else .isFalse (by rintro ⟨⟩; exact same rfl)

def ElementValue.decEq : (a b : ElementValue) → Decidable (a = b)
  | .const tag value, .const tag' value' =>
    if same : tag = tag' ∧ value = value' then .isTrue (by rw [same.1, same.2])
    else .isFalse (by rintro ⟨⟩; exact same ⟨rfl, rfl⟩)
  | .enumConst type name, .enumConst type' name' =>
    if same : type = type' ∧ name = name' then .isTrue (by rw [same.1, same.2])
    else .isFalse (by rintro ⟨⟩; exact same ⟨rfl, rfl⟩)
  | .classInfo descriptor, .classInfo descriptor' =>
    if same : descriptor = descriptor' then .isTrue (by rw [same])
    else .isFalse (by rintro ⟨⟩; exact same rfl)
  | .nested value, .nested value' =>
    match AnnotationEntry.decEq value value' with
    | .isTrue h => .isTrue (by rw [h])
    | .isFalse h => .isFalse (by rintro ⟨⟩; exact h rfl)
  | .array values, .array values' =>
    match ElementValue.decEqList values values' with
    | .isTrue h => .isTrue (by rw [h])
    | .isFalse h => .isFalse (by rintro ⟨⟩; exact h rfl)
  | .const .., .enumConst .. | .const .., .classInfo _ | .const .., .nested _
  | .const .., .array _ | .enumConst .., .const .. | .enumConst .., .classInfo _
  | .enumConst .., .nested _ | .enumConst .., .array _ | .classInfo _, .const ..
  | .classInfo _, .enumConst .. | .classInfo _, .nested _ | .classInfo _, .array _
  | .nested _, .const .. | .nested _, .enumConst .. | .nested _, .classInfo _
  | .nested _, .array _ | .array _, .const .. | .array _, .enumConst ..
  | .array _, .classInfo _ | .array _, .nested _ => .isFalse nofun

def ElementValue.decEqList : (a b : List ElementValue) → Decidable (a = b)
  | [], [] => .isTrue rfl
  | [], _ :: _ | _ :: _, [] => .isFalse nofun
  | a :: as, b :: bs =>
    match ElementValue.decEq a b with
    | .isFalse h => .isFalse (by rintro ⟨⟩; exact h rfl)
    | .isTrue h =>
      match ElementValue.decEqList as bs with
      | .isTrue hs => .isTrue (by rw [h, hs])
      | .isFalse hs => .isFalse (by rintro ⟨⟩; exact hs rfl)

def ElementValue.decEqElements : (a b : List (UInt16 × ElementValue)) → Decidable (a = b)
  | [], [] => .isTrue rfl
  | [], _ :: _ | _ :: _, [] => .isFalse nofun
  | (name, a) :: as, (name', b) :: bs =>
    if same : name = name' then
      match ElementValue.decEq a b with
      | .isFalse h => .isFalse (by rintro ⟨⟩; exact h rfl)
      | .isTrue h =>
        match ElementValue.decEqElements as bs with
        | .isTrue hs => .isTrue (by rw [same, h, hs])
        | .isFalse hs => .isFalse (by rintro ⟨⟩; exact hs rfl)
    else .isFalse (by rintro ⟨⟩; exact same rfl)

end

instance : DecidableEq AnnotationEntry := AnnotationEntry.decEq

instance : DecidableEq ElementValue := ElementValue.decEq

/-! ## Reading -/

/-- Whether a tag is that of a constant: a primitive type, or `s` for a text. -/
def ElementValue.isConstTag (tag : UInt8) : Bool :=
  tag = 66 || tag = 67 || tag = 68 || tag = 70 || tag = 73 || tag = 74 || tag = 83 || tag = 90
    || tag = 115

/-- An annotation whose values are read by `value`. -/
def AnnotationEntry.readWith (value : Reader ElementValue) : Reader AnnotationEntry := do
  let type ← Reader.u2
  let elements ← Reader.table (do return (← Reader.u2, ← value))
  return { type, elements }

/-- A value whose nested values are nested at most `depth` deep. -/
def ElementValue.read : (depth : Nat) → Reader ElementValue
  | 0 => throw .unexpectedEnd
  | depth + 1 => do
    let tag ← Reader.u1
    if isConstTag tag then return .const tag (← Reader.u2)
    else
      match tag with
      | 101 => return .enumConst (← Reader.u2) (← Reader.u2)
      | 99 => return .classInfo (← Reader.u2)
      | 64 => return .nested (← AnnotationEntry.readWith (ElementValue.read depth))
      | 91 => return .array (← Reader.table (ElementValue.read depth))
      | tag => throw (.invalidElementTag tag)

/-- An annotation whose values are nested at most `depth` deep. -/
def AnnotationEntry.read (depth : Nat) : Reader AnnotationEntry :=
  AnnotationEntry.readWith (ElementValue.read depth)

/-! ## Writing -/

mutual

def AnnotationEntry.write : Output → AnnotationEntry → Except Fault Output
  | out, ⟨type, elements⟩ =>
    match Output.count .elements (Output.u2 out type) elements.length with
    | .error fault => .error fault
    | .ok out => ElementValue.writeElements out elements

/-- Appends a value with its tag. -/
def ElementValue.write : Output → ElementValue → Except Fault Output
  | out, .const tag value => .ok (Output.u2 (Output.u1 out tag) value)
  | out, .enumConst type name => .ok (Output.u2 (Output.u2 (Output.u1 out 101) type) name)
  | out, .classInfo descriptor => .ok (Output.u2 (Output.u1 out 99) descriptor)
  | out, .nested value => AnnotationEntry.write (Output.u1 out 64) value
  | out, .array values =>
    match Output.count .array (Output.u1 out 91) values.length with
    | .error fault => .error fault
    | .ok out => ElementValue.writeAll out values

def ElementValue.writeAll : Output → List ElementValue → Except Fault Output
  | out, [] => .ok out
  | out, value :: rest =>
    match ElementValue.write out value with
    | .error fault => .error fault
    | .ok out => ElementValue.writeAll out rest

def ElementValue.writeElements : Output → List (UInt16 × ElementValue) → Except Fault Output
  | out, [] => .ok out
  | out, (name, value) :: rest =>
    match ElementValue.write (Output.u2 out name) value with
    | .error fault => .error fault
    | .ok out => ElementValue.writeElements out rest

end

end Relabel.ClassFile
