import Relabel.Proofs.Pass.Rewriting

/-!
# Relabelled class files are settled

After the string pass no string at a site holds an instruction, and this is so in the bytes that are
written as well. The sites of a class are the first constant value of each field and the loads in
the first code of each method; what other constant values and codes refer to is left alone.
-/

namespace Relabel

namespace Pass

open ClassFile

/-- A string at a site is settled by the string pass. -/
theorem relabelStrings_settled {reserve : Nat} {table : SymbolTable} {goal : Goal}
    {file after : ClassFile} {changes : Changes} (bounded : file.pool.size ≤ 65535)
    (run : relabelStrings reserve table goal file = (.ok changes, after)) {index : UInt16}
    (atSite : ∃ site : Site, site.index? after = some index)
    (isString : IsStringIndex after.pool index) : IsSettled after.pool index := by
  obtain ⟨sites, redirected, middle, collected, done, grows, afterEq, -⟩ :=
    relabelStrings_eq_ok bounded run
  have atSite : ∃ site : Site, site.index? file = some index := by
    obtain ⟨site, found⟩ := atSite
    rw [afterEq] at found
    exact ⟨site, found⟩
  obtain ⟨constant, found⟩ := (exists_stringSites_iff.1 ⟨sites, collected⟩).1 index atSite
  -- An entry that is no string at first never becomes one.
  have wasString : constant.isString := by
    by_contra notString
    rw [Bool.not_eq_true] at notString
    have now := (done.evolves.trans grows.evolves).get found notString
    obtain ⟨text, isString⟩ := isString
    rw [now] at isString
    cases isString
    cases notString
  have wasStringIndex := (isStringIndex_iff found).2 wasString
  have member := ((stringSites_eq_ok collected).2 index).2 ⟨atSite, wasStringIndex⟩
  obtain ⟨text, wasText⟩ := wasStringIndex
  exact (done.settled member wasText).later grows.evolves grows.get

/-- A class whose strings have been relabelled is left alone by the string pass, whatever the
reserve. -/
theorem relabelStrings_again {reserve : Nat} {table : SymbolTable} {goal : Goal}
    {file after : ClassFile} {changes : Changes} (bounded : file.pool.size ≤ 65535)
    (run : relabelStrings reserve table goal file = (.ok changes, after)) (again : Nat) :
    relabelStrings again table goal after = (.ok {}, after) := by
  have frame := relabelStrings_frame run file.pool
  obtain ⟨middle, owner, sites, redirected, parts, -⟩ := exists_stringsRun run
  obtain ⟨usable, whole⟩ := exists_stringSites_iff.1 ⟨sites, parts.collected⟩
  have named : after.name = .ok owner := by
    have same : after.thisClass = file.thisClass := by rw [frame.rest]
    rw [ClassFile.name, same]
    exact frame.pool.className parts.named
  -- The sites are the same ones, and their entries are usable still.
  have sameSites (site : Site) : site.index? after = site.index? file := by
    rw [frame.rest, frame.methodsEq]
    cases site <;> rfl
  have nowUsable : ∀ index, (∃ site : Site, site.index? after = some index) →
      IsUsable after.pool index := by
    intro index atSite
    simp only [sameSites] at atSite
    obtain ⟨constant, found⟩ := usable index atSite
    cases isString : constant.isString with
    | false => exact ⟨constant, frame.pool.get found isString⟩
    | true =>
      cases constant <;> cases isString
      obtain ⟨other, now⟩ := frame.pool.string (Pool.get_eq_ok_iff.1 found).1
      exact ⟨.string other, Pool.get_eq_ok_iff.2 ⟨now, nofun⟩⟩
  obtain ⟨sitesAgain, collected⟩ := exists_stringSites_iff.2 ⟨nowUsable, frame.methodsEq ▸ whole⟩
  apply relabelStrings_of_isSettled named collected
  intro index member
  obtain ⟨atSite, isString⟩ := ((stringSites_eq_ok collected).2 index).1 member
  exact relabelStrings_settled bounded run atSite isString

/-- Bytes are given just if there is a change. -/
theorem relabelBytes_eq_ok {reserve : Nat} {table : SymbolTable} {goal : Goal} {bytes : Bytes}
    {written? : Option Bytes} (run : relabelBytes reserve table goal bytes = .ok written?) :
    ∃ file changes after, parse bytes = .ok file ∧
      relabel reserve table goal file = (.ok changes, after) ∧
      ((changes.isChanged = false ∧ written? = none) ∨
        (changes.isChanged ∧ ∃ written, written? = some written ∧ after.toBytes = .ok written)) := by
  unfold relabelBytes at run
  split at run
  · cases run
  · next file parsed =>
    split at run
    · cases run
    · next changes after relabelled =>
      refine ⟨file, changes, after, parsed, relabelled, ?_⟩
      split at run
      · next changed =>
        cases isWritten : after.toBytes with
        | error fault =>
          rw [isWritten] at run
          cases run
        | ok result =>
          rw [isWritten] at run
          cases run
          exact .inr ⟨changed, result, rfl, rfl⟩
      · next unchanged =>
        cases run
        exact .inl ⟨by simpa using unchanged, rfl⟩

theorem relabelBytes_eq_some {reserve : Nat} {table : SymbolTable} {goal : Goal}
    {bytes written : Bytes}
    (run : relabelBytes reserve table goal bytes = .ok (some written)) :
    ∃ file changes after, parse bytes = .ok file ∧
      relabel reserve table goal file = (.ok changes, after) ∧ after.toBytes = .ok written := by
  obtain ⟨file, changes, after, parsed, relabelled, ⟨-, none⟩ | ⟨-, _, some, isWritten⟩⟩ :=
    relabelBytes_eq_ok run
  · cases none
  · cases some
    exact ⟨file, changes, after, parsed, relabelled, isWritten⟩

/-- **Relabelled strings hold no instruction.** In the bytes that relabelling gives, no string that
decodes at a site holds an instruction, and for developers relabelling them changes nothing, without
any reserve. -/
theorem relabelBytes_settled {reserve : Nat} {table : SymbolTable} {goal : Goal}
    {bytes written : Bytes}
    (run : relabelBytes reserve table goal bytes = .ok (some written)) :
    ∃ file, parse written = .ok file ∧
      (∀ (site : Site) index value, site.index? file = some index →
        file.pool.string index = .ok value → Lookup.find value.toList = none) ∧
      (goal = .developer → ∀ again, relabelBytes again table goal written = .ok none) := by
  obtain ⟨old, changes, file, parsed, relabelled, isWritten⟩ := relabelBytes_eq_some run
  obtain ⟨strings, relabelling, -⟩ := relabel_eq_ok relabelled
  have before := beforeStrings_frame relabelled
  have bounded : (beforeStrings table goal old).pool.size ≤ 65535 :=
    before.pool.bounded (size_pool_of_parse parsed)
  -- What has been written is parsed as the class file that the string pass has left.
  have reparsed : parse written = .ok file := by
    obtain ⟨other, isOther, reparsed⟩ := (frame_of_relabel relabelled).reparse parsed
    rw [isWritten] at isOther
    cases isOther
    exact reparsed
  refine ⟨file, reparsed, ?_, ?_⟩
  · intro site index value found read
    -- The entry that is read is the one that the pass has settled, and it has that value.
    obtain ⟨text, isString, decoded⟩ := Pool.string_eq_ok_iff.1 read
    obtain ⟨other, value?, isOther, settled, holdsNone⟩ :=
      relabelStrings_settled bounded relabelling ⟨site, found⟩ ⟨text, isString⟩
    rw [isString] at isOther
    cases isOther
    rw [Pool.text?_eq_some_iff.2 decoded] at settled
    cases settled
    exact holdsNone value rfl
  · intro isDeveloper again
    subst isDeveloper
    have unchanged : relabel again table .developer file = (.ok {}, file) :=
      relabelStrings_again bounded relabelling again
    simp [relabelBytes, reparsed, unchanged, Changes.isChanged]

/-- A class with two constant values of one field and two codes of one method. Both constant values
and a load in the second code refer to the text `SRC(a.B)`. -/
def doubledClassBytes : Bytes :=
  [0xCA, 0xFE, 0xBA, 0xBE, 0, 0, 0, 52, 0, 9, 1, 0, 1, 65, 7, 0, 1, 1, 0, 8, 83, 82, 67, 40, 97, 46,
    66, 41, 8, 0, 3, 8, 0, 3, 8, 0, 3, 1, 0, 13, 67, 111, 110, 115, 116, 97, 110, 116, 86, 97, 108,
    117, 101, 1, 0, 4, 67, 111, 100, 101, 0, 33, 0, 2, 0, 0, 0, 0, 0, 1, 0, 0, 0, 1, 0, 1, 0, 2, 0,
    7, 0, 0, 0, 2, 0, 4, 0, 7, 0, 0, 0, 2, 0, 5, 0, 1, 0, 0, 0, 1, 0, 1, 0, 2, 0, 8, 0, 0, 0, 13, 0,
    1, 0, 1, 0, 0, 0, 1, 0xB1, 0, 0, 0, 0, 0, 8, 0, 0, 0, 14, 0, 1, 0, 1, 0, 0, 0, 2, 0x12, 6, 0, 0,
    0, 0, 0, 0]

/-- The class with the first constant value relabelled. -/
def doubledClassWritten : Bytes :=
  [0xCA, 0xFE, 0xBA, 0xBE, 0, 0, 0, 52, 0, 10, 1, 0, 1, 65, 7, 0, 1, 1, 0, 8, 83, 82, 67, 40, 97,
    46, 66, 41, 8, 0, 9, 8, 0, 3, 8, 0, 3, 1, 0, 13, 67, 111, 110, 115, 116, 97, 110, 116, 86, 97,
    108, 117, 101, 1, 0, 4, 67, 111, 100, 101, 1, 0, 3, 97, 46, 66, 0, 33, 0, 2, 0, 0, 0, 0, 0, 1,
    0, 0, 0, 1, 0, 1, 0, 2, 0, 7, 0, 0, 0, 2, 0, 4, 0, 7, 0, 0, 0, 2, 0, 5, 0, 1, 0, 0, 0, 1, 0, 1,
    0, 2, 0, 8, 0, 0, 0, 13, 0, 1, 0, 1, 0, 0, 0, 1, 0xB1, 0, 0, 0, 0, 0, 8, 0, 0, 0, 14, 0, 1, 0,
    1, 0, 0, 0, 2, 0x12, 6, 0, 0, 0, 0, 0, 0]

theorem relabelBytes_doubledClass :
    relabelBytes 0 (.ofNames ∅ ∅ ∅) .developer doubledClassBytes =
      .ok (some doubledClassWritten) := by
  decide +kernel

theorem relabelBytes_settled_of_doubledClass :
    ∃ written, relabelBytes 0 (.ofNames ∅ ∅ ∅) .developer doubledClassBytes = .ok (some written) ∧
      relabelBytes 0 (.ofNames ∅ ∅ ∅) .developer written = .ok none := by
  obtain ⟨file, -, -, again⟩ := relabelBytes_settled relabelBytes_doubledClass
  exact ⟨doubledClassWritten, relabelBytes_doubledClass, again rfl 0⟩

/-- The field of `doubledClassWritten`. -/
def doubledField : Member := ⟨0, 1, 1, [⟨7, .constantValue 4⟩, ⟨7, .constantValue 5⟩]⟩

/-- The second code of the method of `doubledClassWritten`. -/
def secondCode : Code := ⟨1, 1, [0x12, 6], [], []⟩

/-- The method of `doubledClassWritten`. -/
def doubledMethod : Member :=
  ⟨0, 1, 1, [⟨8, .code ⟨1, 1, [0xB1], [], []⟩⟩, ⟨8, .code secondCode⟩]⟩

/-- What `doubledClassWritten` is parsed as. -/
def doubledClass : ClassFile where
  minorVersion := 0
  majorVersion := 52
  pool := ⟨#[.unusable, .text [65], .classRef 1, .text [83, 82, 67, 40, 97, 46, 66, 41], .string 9,
    .string 3, .string 3, .text (ModifiedUtf8.encode "ConstantValue"),
    .text (ModifiedUtf8.encode "Code"), .text [97, 46, 66]]⟩
  accessFlags := 33
  thisClass := 2
  superClass := 0
  interfaces := []
  fields := [doubledField]
  methods := [doubledMethod]
  attributes := []

/-- A second constant value and a second code keep their instructions. -/
theorem second_code_not_relabelled :
    ∃ written file, relabelBytes 0 (.ofNames ∅ ∅ ∅) .developer doubledClassBytes =
        .ok (some written) ∧ parse written = .ok file ∧
      (∃ field ∈ file.fields, ∃ entry ∈ field.attributes, ∃ index value,
        entry.body = .constantValue index ∧ file.pool.string index = .ok value ∧
          (Lookup.find value.toList).isSome) ∧
      ∃ method ∈ file.methods, ∃ entry ∈ method.attributes, ∃ code index value,
        entry.body = .code code ∧ Loads code index ∧ file.pool.string index = .ok value ∧
          (Lookup.find value.toList).isSome := by
  have parsed : parse doubledClassWritten = .ok doubledClass := by decide +kernel
  have holds : (Lookup.find "SRC(a.B)".toList).isSome := by decide +kernel
  have inField : ⟨7, .constantValue 5⟩ ∈ doubledField.attributes := by simp [doubledField]
  have inMethod : ⟨8, .code secondCode⟩ ∈ doubledMethod.attributes := by simp [doubledMethod]
  have readFive : doubledClass.pool.string 5 = .ok "SRC(a.B)" := by decide +kernel
  have readSix : doubledClass.pool.string 6 = .ok "SRC(a.B)" := by decide +kernel
  have loads : Loads secondCode 6 := ⟨⟨0, 0x12, [6]⟩, by decide +kernel, rfl, rfl⟩
  refine ⟨doubledClassWritten, doubledClass, relabelBytes_doubledClass, parsed, ?_, ?_⟩
  · exact ⟨doubledField, List.mem_singleton_self _, _, inField, 5, _, rfl, readFive, holds⟩
  · exact ⟨doubledMethod, List.mem_singleton_self _, _, inMethod, secondCode, 6, _, rfl, loads,
      readSix, holds⟩

end Pass

end Relabel
