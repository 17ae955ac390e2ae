import Relabel.Proofs.Descriptors
import Relabel.Proofs.Mapping.Records
import Relabel.Proofs.Pass.ReferenceValues

/-!
# References to the members of a mapping

The key of a method is made in two ways: from the readable types of its record, and from the
signature in the class of a reference, which is taken apart and put together again. The two agree,
so that a reference to a method or a field of a mapping gets the name that its record gives it, and
a signature in which all classes are renamed.
-/

namespace Relabel.Pass

open ClassFile Mapping Descriptor

/-! ## The loads of a reference -/

/-- Whether the loads of the name and of the signature are at a position and right behind it. -/
def LoadedAt (file : ClassFile) (operands : Operands) (position : Nat) : Prop :=
  ∃ decoded name signature, instructions? file operands.constructor = some decoded ∧
    decoded.instructions[position]? = some name ∧ IsLoadOf operands.name name ∧
    decoded.instructions[position + 1]? = some signature ∧ IsLoadOf operands.signature signature

/-- What a callable is relabelled to, which is itself if nothing changes. -/
def relabelledCallable (table : SymbolTable) (kind : ReferenceKind) (operands : Operands) :
    Callable :=
  let old : Callable := ⟨operands.name.value, operands.signature.value⟩
  (relabelCallable? table kind operands.owner old).getD old

/-- The two loads give what the callable is relabelled to. -/
theorem relabelReference_gives {table : SymbolTable} {file after : ClassFile} {changes : Changes}
    {kind : ReferenceKind} {operands : Operands} (small : file.pool.size ≤ 252)
    (run : relabelReference table file = (.ok changes, after))
    (referred : reference? file = .ok (some (kind, operands))) :
    ∃ position, LoadedAt file operands position ∧
      Gives after (.load operands.constructor position)
        (relabelledCallable table kind operands).name ∧
      Gives after (.load operands.constructor (position + 1))
        (relabelledCallable table kind operands).signature := by
  obtain ⟨superName, -, -, -, recognised⟩ := reference?_eq_some referred
  obtain ⟨front, owner, name, signature, number, call, back, form⟩ := operands?_eq_some recognised
  obtain ⟨nameLoads, nameValue⟩ := loadedString?_eq_some form.name
  obtain ⟨signatureLoads, signatureValue⟩ := loadedString?_eq_some form.signature
  refine ⟨front.length + 1, ⟨_, name, signature, form.coded, ?_, nameLoads, ?_, signatureLoads⟩, ?_⟩
  · simp
  · simp [Nat.add_assoc]
  rcases relabelReference_eq_ok run with ⟨notReplaced, -, rfl⟩ |
    ⟨operands', new, named, replaced, nameRun, signatureRun, -⟩
  · -- The callable stays what it is, and the class has not changed.
    have unchanged : relabelCallable? table kind operands.owner
        ⟨operands.name.value, operands.signature.value⟩ = none := by
      simpa [replacement?, referred] using notReplaced
    simp only [relabelledCallable, unchanged, Option.getD_none]
    refine ⟨⟨operands.name.index, ?_, nameValue⟩, ⟨operands.signature.index, ?_, signatureValue⟩⟩
    · rw [Site.index?_load, form.coded]
      simp [nameLoads.isLoad, nameLoads.index]
    · rw [Site.index?_load, form.coded]
      simp [Nat.add_assoc, signatureLoads.isLoad, signatureLoads.index]
  · obtain ⟨kind', referred', relabelled⟩ := replacement?_eq_some_iff.1 replaced
    cases referred.symm.trans referred'
    have replaces := form.replaces (small.trans (by decide)) nameRun signatureRun (.inr small)
      (.inr small)
    simp only [relabelledCallable, relabelled, Option.getD_some]
    exact ⟨replaces.name, replaces.signature⟩

/-! ## Signatures -/

/-- The name of a method with the descriptors of its arguments and its result. -/
def methodSignature (name arguments type : String) : String :=
  name ++ "(" ++ String.ofList (ofArguments arguments.toList) ++ ")" ++
    String.ofList (ofType type.toList)

/-- The signature of a method with another name, where the class in the descriptor of each argument
and of the result is renamed. -/
def renamedSignature (table : SymbolTable) (name arguments type : String) : String :=
  let rename (type : List Char) : String := table.renameDescriptor (String.ofList (ofType type))
  name ++ "(" ++ String.ofList ((argumentTypes arguments.toList).flatMap (rename · |>.toList)) ++
    ")" ++ rename type.toList

/-- The signature of a property with another name: that of its getter if the name or the type
changes, else the one that it has. -/
def getterSignature (table : SymbolTable) (name obfuscated signature type : String) : String :=
  let descriptor := String.ofList (ofType type.toList)
  if obfuscated = name ∧ table.renameDescriptor descriptor = descriptor then signature
  else
    "get" ++ String.ofList (Text.capitalize obfuscated.toList) ++ "()" ++
      table.renameDescriptor descriptor

theorem IsJavaType.noParenthesis {type : List Char} (isType : IsJavaType type) :
    ')' ∉ ofType type := by
  obtain ⟨name, dims, rfl, isName, -⟩ := isType
  rw [ofType_arrayOf (isName.notMem (by decide))]
  intro member
  rcases List.mem_append.1 member with isBracket | inElement
  · cases List.eq_of_mem_replicate isBracket
  · rcases mem_ofElement inElement with inName | isSymbol
    · exact isName.notMem (by decide) inName
    · exact absurd isSymbol (by decide)

theorem IsReturnType.isReturn {type : List Char} (isType : IsReturnType type) :
    isReturn (ofType type) = true := by
  rcases isType with rfl | isType
  · decide
  · exact isType.isField.isReturn

/-- The signature of a method is taken apart into the descriptors of its arguments and its
result. -/
theorem splitMethod?_of_types {arguments type : List Char} (returns : IsReturnType type)
    (areTypes : ∀ argument ∈ argumentTypes arguments, IsJavaType argument) :
    splitMethod? ('(' :: (ofArguments arguments ++ ')' :: ofType type)) =
      some ((argumentTypes arguments).map ofType, ofType type) := by
  rw [ofArguments_eq, List.flatMap_def]
  refine splitMethod?_join ?_ ?_ (IsReturnType.isReturn returns)
  · exact List.forall_mem_map.2 fun argument member =>
      (areTypes argument member).isField.isParameter
  · exact List.forall_mem_map.2 fun argument member =>
      IsJavaType.noParenthesis (areTypes argument member)

theorem methodSignature_toList (name arguments type : String) :
    (methodSignature name arguments type).toList =
      name.toList ++ '(' :: (ofArguments arguments.toList ++ ')' :: ofType type.toList) := by
  simp [methodSignature]

/-- A method with an entry in the table gets the name of the entry, and a signature in which all
classes are renamed. If both are as before, nothing has to change. -/
theorem relabelFunction?_of_key {table : SymbolTable}
    {owner name arguments type obfuscated : String} (noParenthesis : '(' ∉ name.toList)
    (found : table.method? (methodKey owner name arguments type) = some obfuscated)
    (returns : IsReturnType type.toList)
    (areTypes : ∀ argument ∈ argumentTypes arguments.toList, IsJavaType argument) :
    (relabelFunction? table owner ⟨name, methodSignature name arguments type⟩).getD
        ⟨name, methodSignature name arguments type⟩ =
      ⟨obfuscated, renamedSignature table obfuscated arguments type⟩ := by
  have signatureEq := methodSignature_toList name arguments type
  -- The part of the signature from its parenthesis on is the end of the key.
  have keyEq : owner ++ "." ++ name ++
      String.ofList ('(' :: (ofArguments arguments.toList ++ ')' :: ofType type.toList)) =
        methodKey owner name arguments type := by
    apply String.toList_inj.1
    simp [methodKey]
  simp only [relabelFunction?, signatureEq, Text.splitFirst?_append noParenthesis, keyEq, found,
    splitMethod?_of_types returns areTypes, Option.bind_eq_bind, Option.bind_some, Option.getD_some]
  have renamedEq : (renamedSignature table obfuscated arguments type).toList =
      obfuscated.toList ++
        ('(' :: ((argumentTypes arguments.toList).map ofType).flatMap
            (fun part => (table.renameDescriptor (String.ofList part)).toList) ++
          ')' :: (table.renameDescriptor (String.ofList (ofType type.toList))).toList) := by
    simp [renamedSignature, List.flatMap_map]
  split
  · next same =>
    obtain ⟨rfl, sameDescriptor⟩ := same
    rw [sameDescriptor, ← signatureEq] at renamedEq
    rw [Option.getD_none, String.toList_inj.1 renamedEq]
  · rw [Option.getD_some, Callable.mk.injEq]
    refine ⟨rfl, String.toList_inj.1 ?_⟩
    rw [renamedEq]
    simp

/-- A property with an entry in the table gets the name of the entry. If neither the name nor the
type changes, the signature stays, else it is that of the getter. -/
theorem relabelProperty?_of_key {table : SymbolTable} {owner name type obfuscated : String}
    {signature : String} {front : List Char} (noParenthesis : ')' ∉ front)
    (signatureEq : signature.toList = front ++ ')' :: ofType type.toList)
    (found : table.field? (fieldKey owner name type) = some obfuscated) :
    (relabelProperty? table owner ⟨name, signature⟩).getD ⟨name, signature⟩ =
      ⟨obfuscated, getterSignature table name obfuscated signature type⟩ := by
  have keyEq : owner ++ "." ++ name ++ "." ++ String.ofList (ofType type.toList) =
      fieldKey owner name type := rfl
  simp only [relabelProperty?, signatureEq, Text.splitFirst?_append noParenthesis, keyEq, found,
    getterSignature, Option.bind_eq_bind, Option.bind_some, Option.getD_some]
  split
  · next same => rw [Option.getD_none, same.1]
  · rfl

/-! ## References to a mapping -/

/-- **References follow the mapping.** In the class of a reference to a method of the mapping, with
the signature that the readable types of its record stand for, the two loads give the obfuscated
name and the signature with that name and all its classes renamed. A reference to a field gives the
obfuscated name and the signature of the getter. -/
theorem relabelReference_members {debug compact : Bytes} {table : SymbolTable}
    {file after : ClassFile} {changes : Changes} (small : file.pool.size ≤ 252)
    (merged : SymbolTable.ofMappings debug compact = .ok table)
    (run : relabelReference table file = (.ok changes, after)) :
    (∀ owner type name obfuscated arguments operands,
      IsLatest methodEntry? debug (some owner, .method type name obfuscated arguments none)
        (methodKey (internal owner) name arguments type) obfuscated →
      IsReturnType type.toList →
      (∀ argument ∈ argumentTypes arguments.toList, IsJavaType argument) →
      reference? file = .ok (some (.function, operands)) →
      operands.owner = internal owner → operands.name.value = name →
      operands.signature.value = methodSignature name arguments type →
        ∃ position, LoadedAt file operands position ∧
          Gives after (.load operands.constructor position) obfuscated ∧
          Gives after (.load operands.constructor (position + 1))
            (renamedSignature table obfuscated arguments type)) ∧
    (∀ owner type name obfuscated operands front,
      IsLatest fieldEntry? debug (some owner, .field type name obfuscated)
        (fieldKey (internal owner) name type) obfuscated →
      reference? file = .ok (some (.property, operands)) →
      operands.owner = internal owner → operands.name.value = name →
      operands.signature.value.toList = front ++ ')' :: ofType type.toList → ')' ∉ front →
        ∃ position, LoadedAt file operands position ∧
          Gives after (.load operands.constructor position) obfuscated ∧
          Gives after (.load operands.constructor (position + 1))
            (getterSignature table name obfuscated operands.signature.value type)) := by
  constructor
  · intro owner type name obfuscated arguments operands latest returns areTypes referred ownerEq
      nameEq signatureEq
    obtain ⟨-, isNamed⟩ := isNamed_of_mem_ownedRecords latest.mem
    have relabelled : relabelledCallable table .function operands =
        ⟨obfuscated, renamedSignature table obfuscated arguments type⟩ := by
      simp only [relabelledCallable, relabelCallable?, ownerEq, nameEq, signatureEq]
      exact relabelFunction?_of_key (isNamed rfl).2 (SymbolTable.method?_of_isLatest merged latest)
        returns areTypes
    have gives := relabelReference_gives small run referred
    rwa [relabelled] at gives
  · intro owner type name obfuscated operands front latest referred ownerEq nameEq signatureEq
      noParenthesis
    have relabelled : relabelledCallable table .property operands =
        ⟨obfuscated, getterSignature table name obfuscated operands.signature.value type⟩ := by
      simp only [relabelledCallable, relabelCallable?, ownerEq, nameEq]
      exact relabelProperty?_of_key noParenthesis signatureEq
        (SymbolTable.field?_of_isLatest merged latest)
    have gives := relabelReference_gives small run referred
    rwa [relabelled] at gives

/-- A mapping of the method that `sharingReference` refers to. -/
def memberMapping : Bytes := Utf8.encode "a.B -> x:\n    a.B[] h(int,a.B) -> k\n"

theorem relabelReference_members_of_sharingReference :
    ∃ after method position, relabelReference memberTable sharingReference = (.ok ⟨1⟩, after) ∧
      Gives after (.load method position) "k" ∧
      Gives after (.load method (position + 1)) "k(ILc/D;)[Lc/D;" := by
  have small : sharingReference.pool.size ≤ 252 := by decide
  have merged : SymbolTable.ofMappings memberMapping (Utf8.encode "x c/D\n") = .ok memberTable := by
    decide +kernel
  have changed : (relabelReference memberTable sharingReference).1 = .ok ⟨1⟩ := by decide +kernel
  obtain ⟨after, run⟩ :
      ∃ after, relabelReference memberTable sharingReference = (.ok ⟨1⟩, after) := by
    rw [← changed]
    exact ⟨_, (Prod.eta _).symm⟩
  have records : ownedRecords memberMapping = [(some "a.B", .classHeader "a.B" "x"),
      (some "a.B", .method "a.B[]" "h" "k" "int,a.B" none)] := by
    decide +kernel
  have latest : IsLatest methodEntry? memberMapping
      (some "a.B", .method "a.B[]" "h" "k" "int,a.B" none)
      (methodKey (internal "a.B") "h" "int,a.B" "a.B[]") "k" :=
    ⟨by decide +kernel, [_], _, records, by decide +kernel⟩
  have isClass : IsTypeName "a.B".toList := ⟨by decide, by simp⟩
  have isInt : IsTypeName "int".toList := ⟨by decide, by simp⟩
  have returns : IsReturnType "a.B[]".toList := .inr ⟨"a.B".toList, 1, rfl, isClass, by decide⟩
  have areTypes : ∀ argument ∈ argumentTypes "int,a.B".toList, IsJavaType argument := by
    have arguments : argumentTypes "int,a.B".toList = ["int".toList, "a.B".toList] := by
      decide +kernel
    rw [arguments]
    exact List.forall_mem_cons.2 ⟨⟨_, 0, rfl, isInt, by decide⟩,
      List.forall_mem_singleton.2 ⟨_, 0, rfl, isClass, by decide⟩⟩
  have referred : reference? sharingReference = .ok (some (.function,
      ⟨0, "a/B", ⟨2, Opcode.ldc, 8, "h"⟩, ⟨4, Opcode.ldc, 10, "h(ILa/B;)[La/B;"⟩⟩)) := by
    decide +kernel
  obtain ⟨position, -, name, signature⟩ := (relabelReference_members small merged run).1 "a.B"
    "a.B[]" "h" "k" "int,a.B" _ latest returns areTypes referred (by decide +kernel) rfl
    (by decide +kernel)
  have renamed : renamedSignature memberTable "k" "int,a.B" "a.B[]" = "k(ILc/D;)[Lc/D;" := by
    decide +kernel
  rw [renamed] at signature
  exact ⟨after, _, position, run, name, signature⟩

end Relabel.Pass
