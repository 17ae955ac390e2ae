import Relabel.Proofs.Pass.ReferenceValues

/-!
# New texts of a callable reference

The name and the signature that a constructor loads are replaced one after the other. If both are
loaded from one string, the second replacement works on what the first one has left. As long as one
of the two loads can be given a string of its own, this does no harm; otherwise both of them load
the signature in the end.
-/

namespace Relabel

namespace Pass

open ClassFile Descriptor

/-! ## The two loads -/

/-- Whether the name and the signature are loaded from one string, by instructions with one-byte
operands, while the pool has no room for a new string that these could refer to. -/
def SharesWithoutRoom (operands : Operands) (name : String) (pool : Pool) : Prop :=
  operands.signature.opcode = Opcode.ldc ∧
    Overwrites operands.name name pool operands.signature.index

instance (operands : Operands) (name : String) (pool : Pool) :
    Decidable (SharesWithoutRoom operands name pool) :=
  inferInstanceAs (Decidable (_ ∧ _))

theorem Recognised.gives {file named after : ClassFile} {superName : String} {operands : Operands}
    {front back : List Instruction} {owner name signature number call : Instruction}
    {new : Callable}
    (form : Recognised file superName operands front owner name signature number call back)
    (bounded : file.pool.size ≤ 65535)
    (nameRun : replaceString operands.constructor operands.name new.name file = (.ok (), named))
    (signatureRun : replaceString operands.constructor operands.signature new.signature named =
      (.ok (), after)) :
    Gives after (.load operands.constructor (front.length + 2)) new.signature ∧
      Gives after (.load operands.constructor (front.length + 1))
        (if SharesWithoutRoom operands new.name file.pool then new.signature else new.name) := by
  obtain ⟨changed, ⟨-, nameLoads, signatureLoads, coded, codedAgain⟩⟩ := form.replacing nameRun
  obtain ⟨-, signatureValue⟩ := loadedString?_eq_some form.signature
  obtain ⟨nameEvolves, -⟩ := replaceString_frame coded nameLoads nameRun
  have namePosition : (front ++ [owner]).length = front.length + 1 := by simp
  have signaturePosition : ((front ++ [owner]) ++ [changed]).length = front.length + 2 := by simp
  have boundedAgain := nameEvolves.bounded bounded
  obtain ⟨nameIndex, atName, namedString, outcome⟩ :=
    replaceString_index bounded coded nameLoads nameRun
  obtain ⟨signatureIndex, atSignature, signatureString, -⟩ :=
    replaceString_index boundedAgain codedAgain signatureLoads signatureRun
  rw [namePosition] at atName outcome
  rw [signaturePosition] at atSignature
  refine ⟨⟨signatureIndex, atSignature, signatureString⟩, nameIndex, ?_⟩
  have different : Site.load operands.constructor (front.length + 1) ≠
      .load operands.constructor ((front ++ [owner]) ++ [changed]).length := by
    rw [signaturePosition]
    simp
  obtain ⟨sameIndex, entries⟩ :=
    replaceString_site boundedAgain codedAgain signatureLoads signatureRun different
  have entry := entries nameIndex atName
  have inFile : Site.index? file (.load operands.constructor (front.length + 2)) =
      some operands.signature.index := by
    rw [Site.index?_load, form.coded]
    simp [signatureLoads.isLoad, signatureLoads.index]
  refine ⟨sameIndex.trans atName, ?_⟩
  -- The signature is put into the string that the name is loaded from.
  have lost : Overwrites operands.signature new.signature named.pool nameIndex ↔
      SharesWithoutRoom operands new.name file.pool := by
    constructor
    · rintro ⟨rfl, isLdc, -⟩
      rcases outcome with ⟨-, others⟩ | ⟨isNew, -⟩
      · exact ⟨isLdc, others _ (by simp) inFile⟩
      · -- The signature was a string of the pool already, which a new entry was not.
        obtain ⟨text, isString, -⟩ := Pool.string_eq_ok_iff.1 signatureValue
        obtain ⟨slot, -⟩ := Pool.get_eq_ok_iff.1 isString
        rw [Pool.getElem?_eq_none_of_size_le isNew] at slot
        cases slot
    · rintro ⟨isLdc, sameString, nameIsLdc, large⟩
      rcases outcome with ⟨rfl, -⟩ | ⟨-, spared⟩
      · -- The pool has only grown since, so that there is no room for the signature either.
        have nameGrown := size_replaceString coded nameLoads nameRun
        have signatureGrown := Pool.size_addText new.signature named.pool
        exact ⟨sameString.symm, isLdc, by omega⟩
      · exact absurd ⟨rfl, nameIsLdc, large⟩ spared
  simp only [lost] at entry
  split
  · next shares =>
    rw [if_pos shares] at entry
    exact entry
  · next spared =>
    rw [if_neg spared] at entry
    obtain ⟨signatureEvolves, -⟩ := replaceString_frame codedAgain signatureLoads signatureRun
    exact entry.string signatureEvolves namedString

theorem Gives.unique {file : ClassFile} {site : Site} {value other : String}
    (first : Gives file site value) (second : Gives file site other) : value = other := by
  obtain ⟨index, found, read⟩ := first
  obtain ⟨_, alsoFound, alsoRead⟩ := second
  cases found.symm.trans alsoFound
  exact Except.ok.inj (read.symm.trans alsoRead)

/-- **The loads of a reference give the new texts.** If the pass reports a change, the class is a
callable reference; the load of the signature gives the new signature afterwards, and the load of
the name gives the new name, unless the two share a string without room for another one. In that
case both give the new signature. -/
theorem relabelReference_texts {table : SymbolTable} {file after : ClassFile} {changes : Changes}
    (bounded : file.pool.size ≤ 65535) (run : relabelReference table file = (.ok changes, after))
    (changed : changes.isChanged = true) :
    ∃ superName kind operands front owner name signature number call back new,
      file.superName = .ok (some superName) ∧
        reference? file = .ok (some (kind, operands)) ∧
        Recognised file superName operands front owner name signature number call back ∧
        Renames table operands.owner kind ⟨operands.name.value, operands.signature.value⟩ new ∧
        Gives after (.load operands.constructor (front.length + 2)) new.signature ∧
        (Gives after (.load operands.constructor (front.length + 1)) new.name ↔
          ¬ SharesWithoutRoom operands new.name file.pool) ∧
        (SharesWithoutRoom operands new.name file.pool →
          Gives after (.load operands.constructor (front.length + 1)) new.signature) := by
  rcases relabelReference_eq_ok run with ⟨-, rfl, -⟩ |
    ⟨operands, new, named, replaced, nameRun, signatureRun, -⟩
  · cases changed
  · obtain ⟨kind, referred, relabelled⟩ := replacement?_eq_some_iff.1 replaced
    obtain ⟨superName, superRun, -, -, recognised⟩ := reference?_eq_some referred
    obtain ⟨front, owner, name, signature, number, call, back, form⟩ :=
      operands?_eq_some recognised
    have renames := renames_of_relabelCallable? relabelled
    obtain ⟨givesSignature, givesName⟩ := form.gives bounded nameRun signatureRun
    refine ⟨superName, kind, operands, front, owner, name, signature, number, call, back, new,
      superRun, referred, form, renames, givesSignature, ⟨?_, ?_⟩, ?_⟩
    · intro gives shares
      rw [if_pos shares] at givesName
      exact renames.signature_ne_name (givesName.unique gives)
    · intro spared
      rwa [if_neg spared] at givesName
    · intro shares
      rwa [if_pos shares] at givesName

/-- The load of the name `f`, which is also a bootstrap argument, gives `x` although the pool has no
room for another string that it could refer to. -/
theorem relabelReference_texts_of_crowdedReference :
    let table : SymbolTable := .ofNames ∅ ((∅ : Names).insert "A.f.I" "x") ∅
    ∃ after position, relabelReference table crowdedReference = (.ok ⟨1⟩, after) ∧
      Gives after (.load 0 position) "x" ∧ Gives after (.load 0 (position + 1)) "getX()I" := by
  intro table
  have oneChange : (relabelReference table crowdedReference).1 = .ok ⟨1⟩ := by decide +kernel
  obtain ⟨after, run⟩ :
      ∃ after, relabelReference table crowdedReference = (.ok ⟨1⟩, after) := by
    rw [← oneChange]
    exact ⟨_, (Prod.eta _).symm⟩
  have bounded : crowdedReference.pool.size ≤ 65535 := by decide +kernel
  have isReference : reference? crowdedReference = .ok (some (.property,
      ⟨0, "A", ⟨2, Opcode.ldc, 8, "f"⟩, ⟨4, Opcode.ldc, 10, "getF()I"⟩⟩)) := by
    decide +kernel
  obtain ⟨_, _, _, front, _, _, _, _, _, _, new, -, referred, -, renames, givesSignature, givesName,
    -⟩ := relabelReference_texts bounded run rfl
  cases isReference.symm.trans referred
  cases renames with
  | @property _ _ descriptor newName behindGet isSignature isFirst named =>
    have cut : Text.splitFirst? ')' "getF()I".toList = some ("getF(".toList, "I".toList) := by
      decide +kernel
    have parts := cut.symm.trans (Text.splitFirst?_eq_some_iff.2 ⟨isSignature, isFirst⟩)
    obtain rfl := String.toList_inj.1 (Prod.mk.inj (Option.some.inj parts)).2
    have isName : newName = "x" := named.trans (by decide +kernel)
    subst isName
    have isGetter : "get" ++ String.ofList (Text.capitalize "x".toList) ++ "()" ++
        table.renameDescriptor "I" = "getX()I" := by decide +kernel
    rw [isGetter] at givesSignature
    refine ⟨after, front.length + 1, run, givesName.2 ?_, givesSignature⟩
    rintro ⟨-, sameString, -⟩
    cases sameString

/-- A function reference whose name and signature are loaded from one string, with more than 255
entries in its pool. -/
def sharedReference : ClassFile where
  minorVersion := 0
  majorVersion := 52
  pool := ⟨List.toArray ([.unusable, .text [65, 36, 49], .classRef 1,
    .text (ModifiedUtf8.encode "kotlin/jvm/internal/FunctionReferenceImpl"), .classRef 3,
    .text [65], .classRef 5, .text [102, 40, 41, 73], .string 7,
    .text [60, 105, 110, 105, 116, 62], .text [40, 41, 86], .nameAndType 9 10,
    .memberRef .method 4 11, .text [120], .text [120, 40, 41, 73],
    .text (ModifiedUtf8.encode "EnclosingMethod"), .text (ModifiedUtf8.encode "Code")] ++
    List.replicate 240 (.integer 0))⟩
  accessFlags := 33
  thisClass := 2
  superClass := 4
  interfaces := []
  fields := []
  methods := [⟨0, 9, 10, [⟨16, .code
    ⟨4, 1, [0x12, 6, 0x12, 8, 0x12, 8, 0x03, 0xB7, 0, 12, 0xB1], [], []⟩⟩]⟩]
  attributes := [⟨15, .enclosingMethod 6 0⟩]

/-- The name `f()I` becomes the new signature instead of the new name `x`. -/
theorem shared_name_overwritten :
    let table : SymbolTable := .ofNames ∅ ∅ ((∅ : Names).insert "A.f()I()I" "x")
    ∃ after, relabelReference table sharedReference = (.ok ⟨1⟩, after) ∧
      relabelFunction? table "A" ⟨"f()I", "f()I"⟩ = some ⟨"x", "x()I"⟩ ∧
      Gives after (.load 0 1) "x()I" ∧ Gives after (.load 0 2) "x()I" ∧
      ¬ Gives after (.load 0 1) "x" := by
  intro table
  have oneChange : (relabelReference table sharedReference).1 = .ok ⟨1⟩ := by decide +kernel
  obtain ⟨after, run, nameIndex, signatureIndex, value⟩ :
      ∃ after, relabelReference table sharedReference = (.ok ⟨1⟩, after) ∧
        Site.index? after (.load 0 1) = some 8 ∧ Site.index? after (.load 0 2) = some 8 ∧
        after.pool.string 8 = .ok "x()I" := by
    refine ⟨(relabelReference table sharedReference).2, ?_, by decide +kernel⟩
    rw [← oneChange]
    exact (Prod.eta _).symm
  have givesSignature : Gives after (.load 0 1) "x()I" := ⟨8, nameIndex, value⟩
  refine ⟨after, run, by decide +kernel, givesSignature, ⟨8, signatureIndex, value⟩, ?_⟩
  intro givesName
  exact absurd (givesSignature.unique givesName) (by decide)

end Pass

end Relabel
