import Relabel.ClassFile.Basic
import Relabel.Lookup.Process

/-!
# Passes over a class file

A pass is an edit of a class file that counts its changes. When a pass fails, the class file is
left as far as the pass has come.
-/

namespace Relabel

/-- The number of substitutions that have been made. -/
structure Changes where
  count : Nat := 0
  deriving DecidableEq, Repr

namespace Changes

def record (changes : Changes) : Changes := ⟨changes.count + 1⟩

def merge (changes more : Changes) : Changes := ⟨changes.count + more.count⟩

def isChanged (changes : Changes) : Bool := 0 < changes.count

end Changes

namespace Pass

open ClassFile (Fault)

inductive Error
  /-- The class file cannot be read, used or written. -/
  | file (fault : Fault)
  /-- A string of a class has a lookup that fails. -/
  | lookup (owner value : String) (cause : Lookup.Error)
  deriving DecidableEq, Repr

def Error.message : Error → String
  | .file fault => fault.message
  | .lookup owner value _ => "failed to remap " ++ Text.quoted value ++ " in " ++ owner

/-- A change of a class file, which may fail after part of its work. -/
abbrev Edit := ExceptT Error (StateM ClassFile)

/-- An edit that fails for no other reason than a fault of the class file. -/
def Edit.ofFile {α : Type} (edit : ClassFile.Edit α) : Edit α := fun file =>
  match edit file with
  | (.ok value, file) => (.ok value, file)
  | (.error fault, file) => (.error (.file fault), file)

/-- What an edit of a value has come to: the value and the state behind the last step that was
made, and the fault that stopped it, if it was stopped. -/
structure Outcome (σ α : Type) where
  state : σ
  value : α
  fault : Option Fault := none

/-- Edits values from left to right. A fault leaves the values to its right as they are. -/
def editFrom {σ α : Type} (edit : σ → α → Outcome σ α) (edited : List α) (state : σ) :
    List α → Outcome σ (List α)
  | [] => { state, value := edited.reverse }
  | value :: rest =>
    match edit state value with
    | ⟨state, value, none⟩ => editFrom edit (value :: edited) state rest
    | ⟨state, value, some fault⟩ =>
      { state, value := (value :: edited).reverse ++ rest, fault := some fault }

/-- Edits values from left to right, up to the first fault. -/
def editEach {σ α : Type} (edit : σ → α → Outcome σ α) (state : σ) (values : List α) :
    Outcome σ (List α) :=
  editFrom edit [] state values

/-- The outcome of an edit of a part, as one of the whole. -/
def Outcome.map {σ α β : Type} (f : α → β) (outcome : Outcome σ α) : Outcome σ β :=
  { outcome with value := f outcome.value }

/-- Edits the attributes of a class together with its constant pool and a state of the edit's
own. -/
def onAttributes {σ : Type} (start : σ)
    (edit : ClassFile.Pool × σ → ClassFile.Attribute → Outcome (ClassFile.Pool × σ)
      ClassFile.Attribute) : ClassFile.Edit σ := fun file =>
  let pool := file.pool
  let attributes := file.attributes
  let file := { file with pool := ⟨#[]⟩, attributes := [] }
  match editEach edit (pool, start) attributes with
  | ⟨(pool, state), attributes, none⟩ => (.ok state, { file with pool, attributes })
  | ⟨(pool, _), attributes, some fault⟩ => (.error fault, { file with pool, attributes })

end Pass

end Relabel
