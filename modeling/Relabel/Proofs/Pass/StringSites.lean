import Relabel.Pass.Strings
import Relabel.Proofs.ClassFile.PoolEdits

/-!
# Sites of strings

The strings to relabel are collected in ascending order. Each string entry that a site refers to is
among them, once, however many sites share it.
-/

namespace Relabel

/-! ## Repetitions in sorted lists -/

theorem eraseRepsBy_loop_eq {α : Type} [BEq α] (a : α) (rest found : List α) :
    List.eraseRepsBy.loop (· == ·) a rest found = found.reverse ++ (a :: rest).eraseReps := by
  induction rest generalizing a found with
  | nil => simp [List.eraseReps, List.eraseRepsBy, List.eraseRepsBy.loop]
  | cons b rest ih =>
    simp only [List.eraseReps, List.eraseRepsBy, List.eraseRepsBy.loop]
    cases a == b with
    | true => exact ih a found
    | false =>
      simp only
      rw [ih b (a :: found), ih b [a]]
      simp

theorem eraseReps_cons_cons {α : Type} [BEq α] (a b : α) (rest : List α) :
    (a :: b :: rest).eraseReps =
      if a == b then (a :: rest).eraseReps else a :: (b :: rest).eraseReps := by
  simp only [List.eraseReps, List.eraseRepsBy, List.eraseRepsBy.loop]
  cases a == b with
  | true => rfl
  | false => exact eraseRepsBy_loop_eq b rest [a]

theorem mem_eraseReps {values : List UInt16} {a : UInt16} :
    a ∈ values.eraseReps ↔ a ∈ values := by
  induction values with
  | nil => simp [List.eraseReps, List.eraseRepsBy]
  | cons b rest ih =>
    cases rest with
    | nil => simp [List.eraseReps, List.eraseRepsBy, List.eraseRepsBy.loop]
    | cons c rest =>
      rw [eraseReps_cons_cons]
      by_cases same : b = c
      · subst same
        rw [if_pos (by simp), ih]
        simp
      · rw [if_neg (by simpa using same), List.mem_cons, ih, ← List.mem_cons]

/-- No value of a sorted list is left twice. -/
theorem nodup_eraseReps {values : List UInt16} (sorted : values.Pairwise (· ≤ ·)) :
    values.eraseReps.Nodup := by
  induction values with
  | nil => simp [List.eraseReps, List.eraseRepsBy]
  | cons b rest ih =>
    obtain ⟨least, restSorted⟩ := List.pairwise_cons.1 sorted
    cases rest with
    | nil => simp [List.eraseReps, List.eraseRepsBy, List.eraseRepsBy.loop]
    | cons c rest =>
      rw [eraseReps_cons_cons]
      by_cases same : b = c
      · subst same
        rw [if_pos (by simp)]
        exact ih restSorted
      · rw [if_neg (by simpa using same), List.nodup_cons, mem_eraseReps]
        refine ⟨fun again => same ?_, ih restSorted⟩
        -- If the least value came again, the one in between would be equal to it.
        have upTo : b ≤ c := least c (by simp)
        have downTo : c ≤ b := by
          rcases List.mem_cons.1 again with rfl | later
          · exact UInt16.le_refl _
          · exact (List.pairwise_cons.1 restSorted).1 b later
        exact UInt16.le_antisymm upTo downTo

namespace Pass

open ClassFile (Fault Pool Code)

/-! ## Sites -/

/-- A place of a class file that refers to a constant: the constant value of a field, or a load
instruction in the first code of a method. -/
inductive Site
  | field (position : Nat)
  | load (method instruction : Nat)

/-- The index at a site. -/
def Site.index? (file : ClassFile) : Site → Option UInt16
  | .field position => file.fields[position]?.bind (·.constantValue?)
  | .load method instruction => do
    let code ← file.methods[method]?.bind (·.code?)
    let i ← (ClassFile.Bytecode.decode code.bytes).instructions[instruction]?
    if i.isLoad then i.constantIndex? else none

/-! ## Collecting -/

/-- Whether the entry with an index is a string. -/
def IsStringIndex (pool : Pool) (index : UInt16) : Prop :=
  ∃ text, pool.get index = .ok (.string text)

theorem addStringIndex_eq_ok_iff {pool : Pool} {found result : List UInt16} {index : UInt16} :
    addStringIndex pool found index = .ok result ↔
      ∃ constant, pool.get index = .ok constant ∧
        result = if constant.isString then index :: found else found := by
  rw [addStringIndex, Editing.except_bind_eq_ok]
  refine exists_congr fun constant => and_congr_right fun _ => ?_
  exact ⟨fun same => (Except.ok.inj same).symm, fun same => congrArg Except.ok same.symm⟩

theorem isStringIndex_iff {pool : Pool} {index : UInt16} {constant : ClassFile.Constant}
    (found : pool.get index = .ok constant) : IsStringIndex pool index ↔ constant.isString := by
  rw [IsStringIndex, found]
  cases constant <;> simp [ClassFile.Constant.isString]

theorem mem_of_foldlM_addStringIndex {pool : Pool} {indexes found result : List UInt16}
    (run : indexes.foldlM (addStringIndex pool) found = .ok result) (index : UInt16) :
    index ∈ result ↔ index ∈ found ∨ index ∈ indexes ∧ IsStringIndex pool index := by
  induction indexes generalizing found with
  | nil =>
    cases run
    simp
  | cons first rest ih =>
    rw [List.foldlM_cons, Editing.except_bind_eq_ok] at run
    obtain ⟨middle, head, tail⟩ := run
    obtain ⟨constant, isEntry, rfl⟩ := addStringIndex_eq_ok_iff.1 head
    have isString := isStringIndex_iff isEntry
    rw [ih tail, List.mem_cons]
    -- The first index is put in front of what was found just if its entry is a string.
    split
    · next yes =>
      rw [List.mem_cons]
      constructor
      · rintro ((rfl | old) | ⟨later, string⟩)
        · exact .inr ⟨.inl rfl, isString.2 yes⟩
        · exact .inl old
        · exact .inr ⟨.inr later, string⟩
      · rintro (old | ⟨rfl | later, string⟩)
        · exact .inl (.inr old)
        · exact .inl (.inl rfl)
        · exact .inr ⟨later, string⟩
    · next no =>
      constructor
      · rintro (old | ⟨later, string⟩)
        · exact .inl old
        · exact .inr ⟨.inr later, string⟩
      · rintro (old | ⟨rfl | later, string⟩)
        · exact .inl old
        · exact absurd (isString.1 string) no
        · exact .inr ⟨later, string⟩

/-- Whether a code loads the constant with an index. -/
def Loads (code : Code) (index : UInt16) : Prop :=
  ∃ i ∈ (ClassFile.Bytecode.decode code.bytes).instructions, i.isLoad ∧ i.constantIndex? = some index

theorem mem_of_addLoadedStrings {pool : Pool} {code : Code} {found result : List UInt16}
    (run : addLoadedStrings pool found code = .ok result) :
    (ClassFile.Bytecode.decode code.bytes).fault = none ∧
      ∀ index, index ∈ result ↔ index ∈ found ∨ Loads code index ∧ IsStringIndex pool index := by
  simp only [addLoadedStrings, Editing.except_bind_eq_ok] at run
  obtain ⟨middle, collected, checked⟩ := run
  cases whole : (ClassFile.Bytecode.decode code.bytes).fault with
  | some fault =>
    rw [whole] at checked
    cases checked
  | none =>
    rw [whole] at checked
    cases checked
    refine ⟨rfl, fun index => ?_⟩
    rw [mem_of_foldlM_addStringIndex collected, List.mem_filterMap]
    simp only [List.mem_filter, Loads, and_assoc]

theorem mem_of_foldlM_addLoadedStrings {pool : Pool} {codes : List Code}
    {found result : List UInt16}
    (run : codes.foldlM (addLoadedStrings pool) found = .ok result) :
    (∀ code ∈ codes, (ClassFile.Bytecode.decode code.bytes).fault = none) ∧
      ∀ index, index ∈ result ↔
        index ∈ found ∨ (∃ code ∈ codes, Loads code index) ∧ IsStringIndex pool index := by
  induction codes generalizing found with
  | nil =>
    cases run
    simp
  | cons code rest ih =>
    rw [List.foldlM_cons, Editing.except_bind_eq_ok] at run
    obtain ⟨middle, head, tail⟩ := run
    obtain ⟨whole, here⟩ := mem_of_addLoadedStrings head
    obtain ⟨others, later⟩ := ih tail
    refine ⟨List.forall_mem_cons.2 ⟨whole, others⟩, fun index => ?_⟩
    have either : (∃ other ∈ code :: rest, Loads other index) ↔
        Loads code index ∨ ∃ other ∈ rest, Loads other index := by simp
    rw [later, here, either, or_and_right, or_assoc]

/-- An index is at a site just if it is the constant value of a field or loaded by a code. -/
theorem exists_site_iff {file : ClassFile} {index : UInt16} :
    (∃ site : Site, site.index? file = some index) ↔
      index ∈ file.fields.filterMap (·.constantValue?) ∨
        ∃ code ∈ file.methods.filterMap (·.code?), Loads code index := by
  constructor
  · rintro ⟨position | ⟨method, instruction⟩, found⟩
    · obtain ⟨field, isField, isValue⟩ := Option.bind_eq_some_iff.1 found
      exact .inl (List.mem_filterMap.2 ⟨field, List.mem_of_getElem? isField, isValue⟩)
    · simp only [Site.index?, Option.bind_eq_bind, Option.bind_eq_some_iff] at found
      obtain ⟨code, ⟨method, isMethod, isCode⟩, i, isInstruction, found⟩ := found
      split at found
      · next isLoad =>
        exact .inr ⟨code, List.mem_filterMap.2 ⟨method, List.mem_of_getElem? isMethod, isCode⟩,
          i, List.mem_of_getElem? isInstruction, isLoad, found⟩
      · cases found
  · rintro (inFields | ⟨code, inCodes, i, isInstruction, isLoad, isIndex⟩)
    · obtain ⟨field, isField, isValue⟩ := List.mem_filterMap.1 inFields
      obtain ⟨position, found⟩ := List.mem_iff_getElem?.1 isField
      exact ⟨.field position, by simp [Site.index?, found, isValue]⟩
    · obtain ⟨method, isMethod, isCode⟩ := List.mem_filterMap.1 inCodes
      obtain ⟨position, found⟩ := List.mem_iff_getElem?.1 isMethod
      obtain ⟨instruction, foundInstruction⟩ := List.mem_iff_getElem?.1 isInstruction
      exact ⟨.load position instruction, by
        simp [Site.index?, found, isCode, foundInstruction, isLoad, isIndex]⟩

/-- The strings that are collected are those at the sites, each once. -/
theorem stringSites_eq_ok {file : ClassFile} {sites : List UInt16}
    (run : stringSites file = .ok sites) :
    sites.Nodup ∧
      ∀ index, index ∈ sites ↔
        (∃ site : Site, site.index? file = some index) ∧ IsStringIndex file.pool index := by
  simp only [stringSites, Editing.except_bind_eq_ok] at run
  obtain ⟨inFields, fieldsRun, found, codesRun, sorted⟩ := run
  cases sorted
  -- Sorting puts equal indexes next to each other, where they are removed.
  have ordered : (found.mergeSort (· ≤ ·)).Pairwise (· ≤ ·) := by
    have sorted : (found.mergeSort (· ≤ ·)).Pairwise fun a b => decide (a ≤ b) :=
      List.pairwise_mergeSort (by simpa using fun _ _ _ => UInt16.le_trans)
        (by simpa using UInt16.le_total) found
    simpa using sorted
  refine ⟨nodup_eraseReps ordered, fun index => ?_⟩
  have fromFields := mem_of_foldlM_addStringIndex fieldsRun index
  have fromCodes := (mem_of_foldlM_addLoadedStrings codesRun).2 index
  rw [mem_eraseReps, List.mem_mergeSort, fromCodes, fromFields, exists_site_iff, or_and_right]
  simp

/-! ## When collecting succeeds -/

/-- A fold succeeds if each of its steps does, whatever the state is that it starts from. -/
theorem exists_foldlM_iff {ε σ α : Type} {f : σ → α → Except ε σ} {good : α → Prop}
    (step : ∀ state value, (∃ result, f state value = .ok result) ↔ good value) (values : List α)
    (start : σ) :
    (∃ result, values.foldlM f start = .ok result) ↔ ∀ value ∈ values, good value := by
  induction values generalizing start with
  | nil => exact ⟨fun _ => nofun, fun _ => ⟨start, rfl⟩⟩
  | cons value rest ih =>
    simp only [List.foldlM_cons, Editing.except_bind_eq_ok, List.forall_mem_cons]
    constructor
    · rintro ⟨result, middle, head, tail⟩
      exact ⟨(step start value).1 ⟨middle, head⟩, (ih middle).1 ⟨result, tail⟩⟩
    · rintro ⟨here, others⟩
      obtain ⟨middle, head⟩ := (step start value).2 here
      obtain ⟨result, tail⟩ := (ih middle).2 others
      exact ⟨result, middle, head, tail⟩

/-- Whether an index is that of a usable entry. -/
def IsUsable (pool : Pool) (index : UInt16) : Prop :=
  ∃ constant, pool.get index = .ok constant

theorem exists_addStringIndex_iff (pool : Pool) (found : List UInt16) (index : UInt16) :
    (∃ result, addStringIndex pool found index = .ok result) ↔ IsUsable pool index := by
  simp only [addStringIndex_eq_ok_iff, IsUsable]
  exact ⟨fun ⟨_, constant, isEntry, _⟩ => ⟨constant, isEntry⟩,
    fun ⟨constant, isEntry⟩ => ⟨_, constant, isEntry, rfl⟩⟩

theorem exists_addLoadedStrings_iff (pool : Pool) (found : List UInt16) (code : Code) :
    (∃ result, addLoadedStrings pool found code = .ok result) ↔
      (ClassFile.Bytecode.decode code.bytes).fault = none ∧
        ∀ index, Loads code index → IsUsable pool index := by
  have loads : (∀ index, Loads code index → IsUsable pool index) ↔
      ∀ index ∈ ((ClassFile.Bytecode.decode code.bytes).instructions.filter (·.isLoad)).filterMap
        (·.constantIndex?), IsUsable pool index := by
    simp only [Loads, List.mem_filterMap, List.mem_filter, and_assoc]
  rw [loads, ← exists_foldlM_iff (exists_addStringIndex_iff pool) _ found]
  simp only [addLoadedStrings, Editing.except_bind_eq_ok]
  cases (ClassFile.Bytecode.decode code.bytes).fault with
  | none =>
    exact ⟨fun ⟨_, result, collected, _⟩ => ⟨rfl, result, collected⟩,
      fun ⟨_, result, collected⟩ => ⟨result, result, collected, rfl⟩⟩
  | some fault =>
    constructor
    · rintro ⟨_, _, _, thrown⟩
      cases thrown
    · rintro ⟨⟨⟩, _⟩

/-- Collecting succeeds just if all sites have usable entries and all codes are whole. -/
theorem exists_stringSites_iff {file : ClassFile} :
    (∃ sites, stringSites file = .ok sites) ↔
      (∀ index, (∃ site : Site, site.index? file = some index) → IsUsable file.pool index) ∧
        ∀ code ∈ file.methods.filterMap (·.code?),
          (ClassFile.Bytecode.decode code.bytes).fault = none := by
  simp only [exists_site_iff]
  constructor
  · rintro ⟨sites, run⟩
    simp only [stringSites, Editing.except_bind_eq_ok] at run
    obtain ⟨inFields, fieldsRun, found, codesRun, -⟩ := run
    have fieldsUsable :=
      (exists_foldlM_iff (exists_addStringIndex_iff file.pool) _ _).1 ⟨_, fieldsRun⟩
    have codesUsable :=
      (exists_foldlM_iff (exists_addLoadedStrings_iff file.pool) _ _).1 ⟨_, codesRun⟩
    refine ⟨?_, fun code member => (codesUsable code member).1⟩
    rintro index (inField | ⟨code, member, loads⟩)
    · exact fieldsUsable index inField
    · exact (codesUsable code member).2 index loads
  · rintro ⟨usable, whole⟩
    have fieldsUsable : ∀ index ∈ file.fields.filterMap (·.constantValue?),
        IsUsable file.pool index :=
      fun index member => usable index (.inl member)
    have codesUsable : ∀ code ∈ file.methods.filterMap (·.code?),
        (ClassFile.Bytecode.decode code.bytes).fault = none ∧
          ∀ index, Loads code index → IsUsable file.pool index :=
      fun code member =>
        ⟨whole code member, fun index loads => usable index (.inr ⟨code, member, loads⟩)⟩
    -- The fields are collected first, and the codes go on from what they give.
    obtain ⟨inFields, fieldsRun⟩ :=
      (exists_foldlM_iff (exists_addStringIndex_iff file.pool) _ []).2 fieldsUsable
    obtain ⟨found, codesRun⟩ :=
      (exists_foldlM_iff (exists_addLoadedStrings_iff file.pool) _ inFields).2 codesUsable
    simp only [stringSites, Editing.except_bind_eq_ok]
    exact ⟨_, inFields, fieldsRun, found, codesRun, rfl⟩

end Pass

end Relabel
