import Relabel.Pass.Reference
import Relabel.Proofs.Descriptors

/-!
# Renamed members

What the member behind a callable reference becomes, said without the way it is computed: which
parts of the old signature are renamed, and by which key the new name is looked up.
-/

namespace Relabel

/-- At most the first character could be missing. -/
theorem Text.length_le_capitalize (text : List Char) :
    text.length ≤ (capitalize text).length + 1 := by
  cases text with
  | nil => exact Nat.zero_le _
  | cons c rest =>
    rw [capitalize]
    split <;> simp

namespace Pass

open Descriptor

def methodDescriptor (parameters : List String) (result : String) : String :=
  "(" ++ String.join parameters ++ ")" ++ result

/-- What a member becomes. The new name of a property is that of its field, and its new signature is
that of the getter; the new name of a function is that of the method, and each parameter and the
result of its signature are renamed. -/
inductive Renames (table : SymbolTable) (owner : String) :
    ReferenceKind → Callable → Callable → Prop
  | property {name signature descriptor newName : String} {front : List Char}
      (isSignature : signature.toList = front ++ ')' :: descriptor.toList)
      (isFirst : ')' ∉ front)
      (named : newName = (table.field? (owner ++ "." ++ name ++ "." ++ descriptor)).getD name) :
      Renames table owner .property ⟨name, signature⟩
        ⟨newName, "get" ++ String.ofList (Text.capitalize newName.toList) ++ "()" ++
          table.renameDescriptor descriptor⟩
  | function {name signature result newName : String} {parameters : List String}
      {front : List Char}
      (isSignature : signature.toList = front ++ (methodDescriptor parameters result).toList)
      (isFirst : '(' ∉ front)
      (areParameters : ∀ parameter ∈ parameters,
        IsParameter parameter.toList ∧ ')' ∉ parameter.toList)
      (returns : isReturn result.toList)
      (named : newName = (table.method?
        (owner ++ "." ++ name ++ methodDescriptor parameters result)).getD name) :
      Renames table owner .function ⟨name, signature⟩
        ⟨newName, newName ++ methodDescriptor (parameters.map table.renameDescriptor)
          (table.renameDescriptor result)⟩

theorem methodDescriptor_toList (parameters : List (List Char)) (result : List Char) :
    (methodDescriptor (parameters.map String.ofList) (String.ofList result)).toList =
      '(' :: (parameters.flatten ++ ')' :: result) := by
  simp [methodDescriptor, List.flatMap_map, List.flatMap_id']

theorem renames_of_relabelProperty? {table : SymbolTable} {owner : String} {old new : Callable}
    (relabelled : relabelProperty? table owner old = some new) :
    Renames table owner .property old new := by
  obtain ⟨name, signature⟩ := old
  simp only [relabelProperty?, Option.bind_eq_bind, Option.bind_eq_some_iff,
    Prod.exists] at relabelled
  obtain ⟨front, descriptor, cut, relabelled⟩ := relabelled
  obtain ⟨isSignature, isFirst⟩ := Text.splitFirst?_eq_some_iff.1 cut
  split at relabelled
  · cases relabelled
  · cases relabelled
    refine .property ?_ isFirst rfl
    rw [String.toList_ofList]
    exact isSignature

theorem renames_of_relabelFunction? {table : SymbolTable} {owner : String} {old new : Callable}
    (relabelled : relabelFunction? table owner old = some new) :
    Renames table owner .function old new := by
  obtain ⟨name, signature⟩ := old
  simp only [relabelFunction?, Option.bind_eq_bind, Option.bind_eq_some_iff,
    Prod.exists] at relabelled
  obtain ⟨front, rest, cut, parameters, result, split, relabelled⟩ := relabelled
  obtain ⟨isSignature, isFirst⟩ := Text.splitFirst?_eq_some_iff.1 cut
  obtain ⟨descriptorEq, areParameters, returns⟩ := splitMethod?_eq_some split
  split at relabelled
  · cases relabelled
  · cases relabelled
    have isDescriptor : String.ofList ('(' :: rest) =
        methodDescriptor (parameters.map String.ofList) (String.ofList result) := by
      rw [descriptorEq, ← methodDescriptor_toList, String.ofList_toList]
    have isRenamed : String.ofList ('(' :: parameters.flatMap
          (fun part => (table.renameDescriptor (String.ofList part)).toList) ++
        ')' :: (table.renameDescriptor (String.ofList result)).toList) =
        methodDescriptor ((parameters.map String.ofList).map table.renameDescriptor)
          (table.renameDescriptor (String.ofList result)) := by
      apply String.toList_inj.1
      simp [methodDescriptor, List.flatMap_map]
    rw [isRenamed]
    refine .function ?_ isFirst ?_ ?_ ?_
    · rw [isSignature, ← isDescriptor, String.toList_ofList]
    · simpa using areParameters
    · simpa using returns
    · rw [isDescriptor]

theorem renames_of_relabelCallable? {table : SymbolTable} {kind : ReferenceKind} {owner : String}
    {old new : Callable} (relabelled : relabelCallable? table kind owner old = some new) :
    Renames table owner kind old new := by
  cases kind with
  | property => exact renames_of_relabelProperty? relabelled
  | function => exact renames_of_relabelFunction? relabelled

/-- Its signature is longer than the name of a member. -/
theorem Renames.signature_ne_name {table : SymbolTable} {owner : String} {kind : ReferenceKind}
    {old new : Callable} (renames : Renames table owner kind old new) :
    new.signature ≠ new.name := by
  intro same
  -- The signature holds the name, at most one character shorter, and its parentheses.
  have sameLength := congrArg (fun text => text.toList.length) same
  cases renames with
  | @property name signature descriptor newName front isSignature isFirst named =>
    have capitalized := Text.length_le_capitalize newName.toList
    simp at sameLength capitalized
    omega
  | function isSignature isFirst areParameters returns named =>
    simp [methodDescriptor] at sameLength

end Pass

end Relabel
