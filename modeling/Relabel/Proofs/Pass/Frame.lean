import Relabel.Pass.Metadata
import Relabel.Proofs.ClassFile.Bytecode
import Relabel.Proofs.ClassFile.PoolEdits
import Relabel.Proofs.Pass.Outcomes

/-!
# The frame of an edit

What the passes may change in a class file: they let its pool evolve, put other operands into two
loads of its first constructor, and put other indexes in the place of bootstrap arguments and of the
texts of Kotlin metadata. Each part of a class file has a relation of its own that says so; all
these relations hold of a part that has not changed. What an annotation is called depends on the
pool that its indexes are looked up in, which the relations leave open.
-/

namespace Relabel.Pass

open ClassFile (Attribute AnnotationEntry BootstrapMethod ElementValue Instruction
  Member Pool)

/-! ## Code -/

/-- Bytes that differ in operands of some instructions only. -/
structure OperandsDiffer (loads : List Instruction) (old new : Bytes) : Prop where
  length : new.length = old.length
  kept : ∀ position,
    (∀ i ∈ loads, position ≤ i.offset ∨ i.offset + i.operands.length < position) →
      new[position]? = old[position]?

/-- Methods that differ in operands of loads in the first code of one of them. -/
def LoadsDiffer (position : Nat) (loads : List Instruction) (old new : List Member) : Prop :=
  ∃ member code bytes, old[position]? = some member ∧ member.code? = some code ∧
    (∀ i ∈ loads, i ∈ (ClassFile.Bytecode.decode code.bytes).instructions ∧ i.isLoad) ∧
    OperandsDiffer loads code.bytes bytes ∧ new = old.set position (member.withCodeBytes bytes)

/-- Whether a method is the first one that is called like a constructor. -/
structure IsFirstConstructor (pool : Pool) (methods : List Member) (position : Nat) : Prop where
  named : ∃ member, methods[position]? = some member ∧ pool.text member.name = .ok "<init>"
  first : ∀ earlier < position, ∀ member, methods[earlier]? = some member →
    ∃ name, pool.text member.name = .ok name ∧ name ≠ "<init>"

/-- The methods may differ in two loads of the first constructor. -/
inductive MethodsFrame (pool : Pool) (old : List Member) : List Member → Prop
  | same : MethodsFrame pool old old
  | constructor {position : Nat} {loads : List Instruction} {new : List Member}
    (isFirst : IsFirstConstructor pool old position) (few : loads.length ≤ 2)
    (differ : LoadsDiffer position loads old new) : MethodsFrame pool old new

/-! ## Annotations -/

inductive ValueFrame : ElementValue → ElementValue → Prop
  | same (value : ElementValue) : ValueFrame value value
  | text (before after : UInt16) : ValueFrame (.const 115 before) (.const 115 after)

inductive ElementFrame (pool : Pool) : UInt16 × ElementValue → UInt16 × ElementValue → Prop
  | same (element : UInt16 × ElementValue) : ElementFrame pool element element
  | texts {name : UInt16} {before after : List ElementValue}
    (named : pool.text name = .ok metadataTexts) (values : List.Forall₂ ValueFrame before after) :
    ElementFrame pool (name, .array before) (name, .array after)

inductive AnnotationFrame (pool : Pool) : AnnotationEntry → AnnotationEntry → Prop
  | same (entry : AnnotationEntry) : AnnotationFrame pool entry entry
  | metadata {type : UInt16} {before after : List (UInt16 × ElementValue)}
    (named : pool.text type = .ok metadataType)
    (elements : List.Forall₂ (ElementFrame pool) before after) :
    AnnotationFrame pool ⟨type, before⟩ ⟨type, after⟩

/-! ## Attributes -/

/-- A bootstrap method with as many arguments as before. -/
structure MethodFrame (old new : BootstrapMethod) : Prop where
  method : new.method = old.method
  arguments : new.arguments.length = old.arguments.length

inductive AttributeFrame (pool : Pool) : Attribute → Attribute → Prop
  | same (entry : Attribute) : AttributeFrame pool entry entry
  | arguments {name : UInt16} {before after : List BootstrapMethod}
    (methods : List.Forall₂ MethodFrame before after) :
    AttributeFrame pool ⟨name, .bootstrapMethods before⟩ ⟨name, .bootstrapMethods after⟩
  | annotations {name : UInt16} {before after : List AnnotationEntry}
    (entries : List.Forall₂ (AnnotationFrame pool) before after) :
    AttributeFrame pool ⟨name, .annotations before⟩ ⟨name, .annotations after⟩

/-! ## Class files -/

/-- A class file that differs in nothing but what the passes may change. The types of annotations
and the names of their elements are looked up in a given pool, and the names of methods in that of
the old class file. -/
structure Frame (names : Pool) (old new : ClassFile) : Prop where
  rest : new =
    { old with pool := new.pool, methods := new.methods, attributes := new.attributes }
  pool : Pool.Evolves old.pool new.pool
  methods : MethodsFrame old.pool old.methods new.methods
  attributes : List.Forall₂ (AttributeFrame names) old.attributes new.attributes

/-- What holds of all edits but those of loads. -/
structure MethodsKept (names : Pool) (old new : ClassFile) : Prop extends Frame names old new where
  methodsEq : new.methods = old.methods

/-! ## Later pools -/

section

variable {old new : Pool} (evolves : Pool.Evolves old new)

include evolves

theorem ElementFrame.later {before after : UInt16 × ElementValue}
    (frame : ElementFrame old before after) : ElementFrame new before after := by
  cases frame with
  | same => exact .same _
  | texts named values => exact .texts (evolves.text named) values

theorem AnnotationFrame.later {before after : AnnotationEntry}
    (frame : AnnotationFrame old before after) : AnnotationFrame new before after := by
  cases frame with
  | same => exact .same _
  | metadata named elements =>
    exact .metadata (evolves.text named) (elements.imp fun _ _ => ElementFrame.later evolves)

theorem AttributeFrame.later {before after : Attribute}
    (frame : AttributeFrame old before after) : AttributeFrame new before after := by
  cases frame with
  | same => exact .same _
  | arguments methods => exact .arguments methods
  | annotations entries =>
    exact .annotations (entries.imp fun _ _ => AnnotationFrame.later evolves)

end

/-! ## One frame after the other -/

theorem forall₂_trans {α : Type} {first second both : α → α → Prop} {old middle new : List α}
    (front : List.Forall₂ first old middle) (back : List.Forall₂ second middle new)
    (trans : ∀ {a b c}, first a b → second b c → both a c) : List.Forall₂ both old new := by
  induction front generalizing new with
  | nil =>
    cases back
    exact .nil
  | cons head tail ih =>
    cases back with
    | cons otherHead otherTail => exact .cons (trans head otherHead) (ih otherTail)

theorem ValueFrame.trans {old middle new : ElementValue} (first : ValueFrame old middle)
    (second : ValueFrame middle new) : ValueFrame old new := by
  cases first with
  | same => exact second
  | text before between =>
    cases second with
    | same => exact .text before between
    | text _ after => exact .text before after

section

variable {pool : Pool}

theorem ElementFrame.trans {old middle new : UInt16 × ElementValue}
    (first : ElementFrame pool old middle) (second : ElementFrame pool middle new) :
    ElementFrame pool old new := by
  cases first with
  | same => exact second
  | texts named values =>
    cases second with
    | same => exact .texts named values
    | texts _ others => exact .texts named (forall₂_trans values others ValueFrame.trans)

theorem AnnotationFrame.trans {old middle new : AnnotationEntry}
    (first : AnnotationFrame pool old middle) (second : AnnotationFrame pool middle new) :
    AnnotationFrame pool old new := by
  cases first with
  | same => exact second
  | metadata named elements =>
    cases second with
    | same => exact .metadata named elements
    | metadata _ others => exact .metadata named (forall₂_trans elements others ElementFrame.trans)

theorem MethodFrame.trans {old middle new : BootstrapMethod} (first : MethodFrame old middle)
    (second : MethodFrame middle new) : MethodFrame old new where
  method := second.method.trans first.method
  arguments := second.arguments.trans first.arguments

theorem AttributeFrame.trans {old middle new : Attribute} (first : AttributeFrame pool old middle)
    (second : AttributeFrame pool middle new) : AttributeFrame pool old new := by
  cases first with
  | same => exact second
  | arguments methods =>
    cases second with
    | same => exact .arguments methods
    | arguments others => exact .arguments (forall₂_trans methods others MethodFrame.trans)
  | annotations entries =>
    cases second with
    | same => exact .annotations entries
    | annotations others => exact .annotations (forall₂_trans entries others AnnotationFrame.trans)

end

theorem AttributeFrame.forall₂_same (pool : Pool) (attributes : List Attribute) :
    List.Forall₂ (AttributeFrame pool) attributes attributes :=
  List.forall₂_same.2 fun entry _ => .same entry

theorem MethodsKept.refl (names : Pool) (file : ClassFile) : MethodsKept names file file where
  rest := rfl
  pool := .refl _
  methods := .same
  attributes := AttributeFrame.forall₂_same _ _
  methodsEq := rfl

/-- Behind an edit that may change loads there may be others that do not. -/
theorem Frame.trans {names : Pool} {old middle new : ClassFile} (first : Frame names old middle)
    (second : MethodsKept names middle new) : Frame names old new where
  rest := by
    rw [second.rest, first.rest]
  pool := first.pool.trans second.pool
  methods := second.methodsEq ▸ first.methods
  attributes := forall₂_trans first.attributes second.attributes AttributeFrame.trans

theorem MethodsKept.trans {names : Pool} {old middle new : ClassFile}
    (first : MethodsKept names old middle) (second : MethodsKept names middle new) :
    MethodsKept names old new where
  toFrame := first.toFrame.trans second
  methodsEq := second.methodsEq.trans first.methodsEq

end Relabel.Pass
