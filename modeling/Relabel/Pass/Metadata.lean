import Relabel.Pass.Basic

/-!
# Kotlin metadata

Classes compiled from Kotlin carry an annotation whose array `d2` lists texts, among them
descriptors of the types that the class mentions. The classes in those descriptors are renamed. A
renamed text is another entry of the pool; entries that are there stay as they are.
-/

namespace Relabel.Pass

open ClassFile (Fault Pool Attribute AnnotationEntry ElementValue)

/-- The type of the annotation. -/
def metadataType : String := "Lkotlin/Metadata;"

/-- The name of the array. -/
def metadataTexts : String := "d2"

/-- Whether a text is the descriptor of a class or of an array of one, without blanks. -/
def isTypeDescriptor (text : String) : Bool :=
  match Descriptor.splitObject? text.toList with
  | some (_, name) => !name.any Text.isBlank
  | none => false

/-- Renames the class in a value that is a text. -/
def relabelValue (table : SymbolTable) (state : Pool × Changes) (value : ElementValue) :
    Outcome (Pool × Changes) ElementValue :=
  match value with
  | .const 115 index =>
    let (pool, changes) := state
    match pool.text? index with
    | .error fault => { state := (pool, changes), value, fault := some fault }
    | .ok none => { state := (pool, changes), value }
    | .ok (some text) =>
      let renamed := table.renameDescriptor text
      if isTypeDescriptor text && renamed ≠ text then
        match Pool.addText renamed pool with
        | (.ok index, pool) => { state := (pool, changes.record), value := .const 115 index }
        | (.error fault, pool) => { state := (pool, changes), value, fault := some fault }
      else { state := (pool, changes), value }
  | value => { state, value }

/-- Whether an index is that of a certain text. -/
def isNamed (pool : Pool) (name : String) (index : UInt16) : Bool :=
  match pool.text index with
  | .ok text => text = name
  | .error _ => false

/-- Renames the classes in the first element with the name of the array, if it is an array. -/
def relabelElements (table : SymbolTable) (state : Pool × Changes)
    (elements : List (UInt16 × ElementValue)) :
    Outcome (Pool × Changes) (List (UInt16 × ElementValue)) :=
  match elements.span fun element => !isNamed state.1 metadataTexts element.1 with
  | (before, (name, .array values) :: after) =>
    (editEach (relabelValue table) state values).map fun values =>
      before ++ (name, .array values) :: after
  | _ => { state, value := elements }

/-- Renames the classes in an annotation, if it is of the right type. -/
def relabelIfMetadata (table : SymbolTable) (state : Pool × Changes) (entry : AnnotationEntry) :
    Outcome (Pool × Changes) AnnotationEntry :=
  match state.1.text entry.type with
  | .error fault => { state, value := entry, fault := some fault }
  | .ok type =>
    if type = metadataType then
      (relabelElements table state entry.elements).map fun elements => { entry with elements }
    else { state, value := entry }

/-- Renames the classes in the annotations of an attribute. -/
def relabelAttribute (table : SymbolTable) (state : Pool × Changes) :
    Attribute → Outcome (Pool × Changes) Attribute
  | ⟨name, .annotations annotations⟩ =>
    (editEach (relabelIfMetadata table) state annotations).map fun annotations =>
      ⟨name, .annotations annotations⟩
  | other => { state, value := other }

/-- Renames the classes in the metadata of a class. Every text that is replaced is a change. -/
def relabelMetadata (table : SymbolTable) : ClassFile.Edit Changes :=
  onAttributes {} (relabelAttribute table)

end Relabel.Pass
