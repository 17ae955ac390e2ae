import Relabel.Proofs.MethodDescriptors
import Relabel.Proofs.Pass.ReferenceTexts

/-!
# Signatures of callable references

The signature of a function is taken apart into parameters and a result, which are renamed and put
together again. Taking apart and putting together are inverse to each other on well-formed
descriptors, so that each renamed parameter stands where the old one stood, unless the name of a
class has one of the characters that descriptors are cut at.
-/

namespace Relabel

namespace Descriptor

/-- The method descriptor with some parameters and a result. -/
def ofMethod (parameters : List (List Char)) (result : List Char) : List Char :=
  '(' :: (parameters.flatten ++ ')' :: result)

theorem IsResult.isReturn {descriptor : List Char} (isResult : IsResult descriptor) :
    isReturn descriptor = true := by
  rcases isResult with rfl | isField
  · decide
  · exact isField.isReturn

theorem IsMethod.splitMethod?_ofMethod {parameters : List (List Char)} {result : List Char}
    (isMethod : IsMethod parameters result)
    (noParenthesis : ∀ parameter ∈ parameters, ')' ∉ parameter) :
    splitMethod? (ofMethod parameters result) = some (parameters, result) :=
  splitMethod?_join (fun parameter member => (isMethod.parameters parameter member).isParameter)
    noParenthesis isMethod.result.isReturn

/-! ## Renaming -/

theorem isParameter_arraysOf {element : List Char} (isElement : IsParameter element) (dims : Nat) :
    IsParameter (arraysOf dims element) := by
  induction dims with
  | zero => exact isElement
  | succ dims ih => exact .array ih

theorem isReturn_arraysOf (dims : Nat) (element : List Char) :
    isReturn (arraysOf dims element) = isReturn element := by
  induction dims with
  | zero => rfl
  | succ dims ih => rw [arraysOf_succ, isReturn_array, ih]

section

variable {newName? : List Char → Option (List Char)} {descriptor : List Char}

/-- A descriptor stays as it is, or its class gets another name. -/
theorem rename_cases (newName? : List Char → Option (List Char)) (descriptor : List Char) :
    rename newName? descriptor = descriptor ∨
      ∃ dims name newName, newName? name = some newName ∧
        rename newName? descriptor = arraysOf dims ('L' :: (newName ++ [';'])) := by
  unfold rename
  split
  · exact .inl rfl
  · next dims name split =>
    split
    · exact .inl rfl
    · next newName named => exact .inr ⟨dims, name, newName, named, by simp [arraysOf]⟩

theorem IsParameter.rename (isParameter : IsParameter descriptor)
    (noEnd : ∀ name newName, newName? name = some newName → ';' ∉ newName) :
    IsParameter (rename newName? descriptor) := by
  obtain same | ⟨dims, name, newName, named, renamed⟩ := rename_cases newName? descriptor
  · rwa [same]
  · rw [renamed]
    exact isParameter_arraysOf (.object (noEnd name newName named)) dims

theorem isReturn_rename (returns : isReturn descriptor)
    (nonempty : ∀ name newName, newName? name = some newName → newName ≠ []) :
    isReturn (rename newName? descriptor) := by
  obtain same | ⟨dims, name, newName, named, renamed⟩ := rename_cases newName? descriptor
  · rwa [same]
  · rw [renamed, isReturn_arraysOf]
    simp [isReturn, element, splitObject?_ofClass (nonempty name newName named)]

theorem notMem_rename {c : Char} (absent : c ∉ descriptor) (isPlain : c ∉ ['[', 'L', ';'])
    (notNew : ∀ name newName, newName? name = some newName → c ∉ newName) :
    c ∉ rename newName? descriptor := by
  obtain same | ⟨dims, name, newName, named, renamed⟩ := rename_cases newName? descriptor
  · rwa [same]
  · simp only [List.mem_cons, List.not_mem_nil, or_false, not_or] at isPlain
    rw [renamed]
    simp [arraysOf, isPlain, notNew name newName named]

end

end Descriptor

namespace Pass

open Descriptor

/-- A part of a method descriptor with its class renamed. -/
def renamePart (table : SymbolTable) (part : List Char) : List Char :=
  (table.renameDescriptor (String.ofList part)).toList

/-- The new names of classes can stand in descriptors. -/
def HasPlainClasses (table : SymbolTable) : Prop :=
  ∀ name newName, table.class? name = some newName →
    newName ≠ "" ∧ ';' ∉ newName.toList ∧ ')' ∉ newName.toList

theorem methodDescriptor_eq_ofMethod (parameters : List String) (result : String) :
    (methodDescriptor parameters result).toList =
      ofMethod (parameters.map String.toList) result.toList := by
  have joined := methodDescriptor_toList (parameters.map String.toList) result.toList
  simpa [ofMethod] using joined

theorem renamePart_eq (table : SymbolTable) (part : List Char) :
    renamePart table part =
      rename (fun name => (table.class? (String.ofList name)).map String.toList) part := by
  simp [renamePart, SymbolTable.renameDescriptor]

/-- Renamed parts are put together to a descriptor that is taken apart into them. -/
theorem HasPlainClasses.splitMethod?_renamed {table : SymbolTable} (plain : HasPlainClasses table)
    {parameters : List (List Char)} {result : List Char}
    (areParameters : ∀ parameter ∈ parameters, IsParameter parameter ∧ ')' ∉ parameter)
    (returns : isReturn result) :
    splitMethod? (ofMethod (parameters.map (renamePart table)) (renamePart table result)) =
      some (parameters.map (renamePart table), renamePart table result) := by
  have newNames (name newName : List Char)
      (named : (table.class? (String.ofList name)).map String.toList = some newName) :
      newName ≠ [] ∧ ';' ∉ newName ∧ ')' ∉ newName := by
    obtain ⟨text, found, rfl⟩ := Option.map_eq_some_iff.1 named
    obtain ⟨nonempty, noEnd, noParenthesis⟩ := plain _ _ found
    exact ⟨by simpa using nonempty, noEnd, noParenthesis⟩
  refine splitMethod?_join (List.forall_mem_map.2 ?_) (List.forall_mem_map.2 ?_) ?_
  · intro parameter member
    rw [renamePart_eq]
    exact (areParameters parameter member).1.rename fun name newName named =>
      (newNames name newName named).2.1
  · intro parameter member
    rw [renamePart_eq]
    exact notMem_rename (areParameters parameter member).2 (by decide) fun name newName named =>
      (newNames name newName named).2.2
  · rw [renamePart_eq]
    exact isReturn_rename returns fun name newName named => (newNames name newName named).1

/-- **Method descriptors are taken apart into what they are made of.** A descriptor that is put
together of well-formed parameters, without a closing parenthesis in them, and of a well-formed
result is taken apart into these. What a descriptor is taken apart into makes it up. And the new
signature of a function is its name and the descriptor with each part renamed at its place; if the
new names of classes can stand in descriptors, it is taken apart into the renamed parts. -/
theorem splitMethod?_inverse :
    (∀ parameters result, IsMethod parameters result →
        (∀ parameter ∈ parameters, ')' ∉ parameter) →
        splitMethod? (ofMethod parameters result) = some (parameters, result)) ∧
      (∀ descriptor parameters result, splitMethod? descriptor = some (parameters, result) →
        descriptor = ofMethod parameters result) ∧
      ∀ table owner old new, relabelFunction? table owner old = some new →
        ∃ front parameters result, old.signature.toList = front ++ ofMethod parameters result ∧
          '(' ∉ front ∧ splitMethod? (ofMethod parameters result) = some (parameters, result) ∧
          new.signature.toList = new.name.toList ++
            ofMethod (parameters.map (renamePart table)) (renamePart table result) ∧
          (HasPlainClasses table →
            splitMethod? (ofMethod (parameters.map (renamePart table)) (renamePart table result)) =
              some (parameters.map (renamePart table), renamePart table result)) := by
  refine ⟨fun _ _ => IsMethod.splitMethod?_ofMethod,
    fun _ _ _ split => (splitMethod?_eq_some split).1, ?_⟩
  intro table owner old new relabelled
  cases renames_of_relabelFunction? relabelled with
  | @function name signature result newName parameters front isSignature isFirst areParameters
      returns named =>
    have areParts : ∀ part ∈ parameters.map String.toList, IsParameter part ∧ ')' ∉ part :=
      List.forall_mem_map.2 areParameters
    have renamed : (parameters.map table.renameDescriptor).map String.toList =
        (parameters.map String.toList).map (renamePart table) := by
      simp [renamePart]
    have renamedResult : (table.renameDescriptor result).toList = renamePart table result.toList := by
      rw [renamePart, String.ofList_toList]
    refine ⟨front, parameters.map String.toList, result.toList, ?_, isFirst, ?_, ?_, ?_⟩
    · rw [isSignature, methodDescriptor_eq_ofMethod]
    · exact splitMethod?_join (fun part member => (areParts part member).1)
        (fun part member => (areParts part member).2) returns
    · rw [String.toList_append, methodDescriptor_eq_ofMethod, renamed, renamedResult]
    · exact fun plain => plain.splitMethod?_renamed areParts returns

/-- An array of a class that is renamed, and a number. -/
theorem splitMethod?_inverse_of_array :
    let table : SymbolTable := .ofNames ((∅ : Names).insert "a" "x") ∅ ∅
    let parts : List (List Char) := [['[', 'L', 'a', ';'], ['I']]
    splitMethod? (ofMethod parts ['V']) = some (parts, ['V']) ∧
      "([La;I)V".toList = ofMethod parts ['V'] ∧
      relabelFunction? table "C" ⟨"f", "f([La;I)V"⟩ = some ⟨"f", "f([Lx;I)V"⟩ ∧
      ∃ (parameters : List (List Char)) (result : List Char), "f([Lx;I)V".toList =
          'f' :: ofMethod (parameters.map (renamePart table)) (renamePart table result) ∧
        splitMethod? (ofMethod (parameters.map (renamePart table)) (renamePart table result)) =
          some (parameters.map (renamePart table), renamePart table result) := by
  intro table parts
  obtain ⟨joined, split, reassembled⟩ := splitMethod?_inverse
  have isArray : IsField ['[', 'L', 'a', ';'] :=
    .array (.object (List.cons_ne_nil 'a' []) (by decide))
  have isNumber : IsField ['I'] := .primitive (by decide) (by decide)
  have isMethod : IsMethod parts ['V'] :=
    ⟨by simp [parts, isArray, isNumber], .inl rfl⟩
  have taken : splitMethod? "([La;I)V".toList = some (parts, ['V']) := by decide +kernel
  have plain : HasPlainClasses table := by
    intro name newName named
    have found : ((∅ : Names).insert "a" "x")[name]? = some newName := named
    rw [Std.ExtTreeMap.getElem?_insert] at found
    split at found
    · cases found
      decide
    · simp at found
  have relabelled : relabelFunction? table "C" ⟨"f", "f([La;I)V"⟩ = some ⟨"f", "f([Lx;I)V"⟩ := by
    decide +kernel
  obtain ⟨front, parameters, result, -, -, -, renamed, again⟩ :=
    reassembled table "C" _ _ relabelled
  exact ⟨joined parts ['V'] isMethod (by decide), split _ parts ['V'] taken, relabelled, parameters,
    result, renamed, again plain⟩

end Pass

end Relabel
