import Relabel.Proofs.Pass.All

/-!
# Values of strings

After all passes, every site loads what its string has been processed to. The string pass counts the
strings that held an instruction, each once, however many sites share it.
-/

namespace Relabel.Pass

open ClassFile (Pool)

/-- Without a change of references, what comes before the string pass only adds to the pool, and
changes nothing but annotations. -/
theorem beforeStrings_of_unchanged {reserve : Nat} {table : SymbolTable} {goal : Goal}
    {file after : ClassFile} {changes : Changes}
    (unchanged : goal = .production → ∀ references,
      (relabelReference table file).1 = .ok references → references.isChanged = false)
    (run : relabel reserve table goal file = (.ok changes, after)) :
    Pool.Grows file.pool (beforeStrings table goal file).pool ∧
      ∃ pool attributes, beforeStrings table goal file = { file with pool, attributes } := by
  obtain ⟨strings, -, earlier⟩ := relabel_eq_ok run
  cases goal with
  | developer => exact ⟨.refl _, file.pool, file.attributes, rfl⟩
  | production =>
    obtain ⟨references, metadata, referenced, referring, described, -⟩ := earlier
    have same := relabelReference_unchanged referring
      (unchanged rfl references (by rw [referring]))
    subst same
    obtain ⟨grows, beforeEq, -⟩ := relabelMetadata_eq_ok described
    exact ⟨grows, _, _, beforeEq⟩

/-- If no reference changes, a site whose string decoded refers to the processed text afterwards, or
to the same text if there was no instruction in it; other strings keep their bytes. The changes of
the string pass are the strings at sites that held an instruction. -/
theorem relabel_string_values {reserve : Nat} {table : SymbolTable} {goal : Goal}
    {file after : ClassFile} {changes : Changes} (bounded : file.pool.size ≤ 65535)
    (unchanged : goal = .production → ∀ references,
      (relabelReference table file).1 = .ok references → references.isChanged = false)
    (run : relabel reserve table goal file = (.ok changes, after)) :
    (∀ (site : Site) index text, site.index? file = some index →
        file.pool.get index = .ok (.string text) →
        site.index? after = some index ∧
          (∀ value, file.pool.text text = .ok value →
            ∃ result, Lookup.process reserve table goal value = .ok result ∧
              (result = none ↔ Lookup.find value.toList = none) ∧
              after.pool.string index = .ok (result.getD value)) ∧
          ∀ bytes, file.pool.get text = .ok (.text bytes) → ModifiedUtf8.decode bytes = none →
            ∃ target, after.pool.get index = .ok (.string target) ∧
              after.pool.get target = .ok (.text bytes)) ∧
      ∃ (strings : Changes) (entries : List UInt16),
        relabelStrings reserve table goal (beforeStrings table goal file) = (.ok strings, after) ∧
        strings.count = entries.length ∧ entries.Nodup ∧
        ∀ index, index ∈ entries ↔ (∃ site : Site, site.index? file = some index) ∧
          holdsInstruction (beforeStrings table goal file).pool index := by
  obtain ⟨grows, pool, attributes, beforeEq⟩ := beforeStrings_of_unchanged unchanged run
  obtain ⟨strings, relabelling, -⟩ := relabel_eq_ok run
  obtain ⟨sites, redirected, middle, collected, done, detached, afterEq, -, counted⟩ :=
    relabelStrings_eq_ok (grows.bounded bounded) relabelling
  obtain ⟨distinct, members⟩ := stringSites_eq_ok collected
  -- Sites are in fields and methods, which all of the passes leave as they are.
  have sameSites (site : Site) : site.index? (beforeStrings table goal file) = site.index? file := by
    rw [beforeEq]
    rfl
  have relabelled {site : Site} {index text : UInt16} (found : site.index? file = some index)
      (isString : file.pool.get index = .ok (.string text)) :
      Relabelled reserve table goal file.pool after.pool index text := by
    have beforeString := grows.get isString
    have member : index ∈ sites :=
      (members index).2 ⟨⟨site, (sameSites site).trans found⟩, text, beforeString⟩
    exact ((done.relabelled member beforeString).later detached.evolves detached.get).earlier
      grows.evolves
  refine ⟨fun site index text found isString => ⟨?_, fun value read => ?_,
    fun bytes => (relabelled found isString).undecoded⟩, strings,
    sites.filter (holdsInstruction (beforeStrings table goal file).pool), relabelling, ?_,
    distinct.filter _, fun index => ?_⟩
  · rw [afterEq]
    exact (sameSites site).trans found
  · obtain ⟨result, processed, string⟩ := (relabelled found isString).decoded read
    have holds := Lookup.process_isSome processed
    refine ⟨result, processed, ?_, string⟩
    rw [← Option.not_isSome_iff_eq_none, ← Option.not_isSome_iff_eq_none, holds]
  · rw [counted, ← List.length_map (f := (·.string)), done.strings, List.length_reverse]
  · rw [List.mem_filter, members, and_assoc]
    simp only [sameSites]
    refine and_congr_right fun _ => ⟨And.right, fun holds => ⟨?_, holds⟩⟩
    obtain ⟨text, value, isString, -⟩ := holdsInstruction_iff.1 holds
    exact ⟨text, isString⟩

/-- Two strings that share a text, one of them shared by a field and a load, are both relabelled. -/
theorem relabel_string_values_of_shared_text :
    let file : ClassFile :=
      { minorVersion := 0, majorVersion := 52,
        pool := ⟨#[.unusable, .text [65], .classRef 1, .text [83, 82, 67, 40, 97, 46, 66, 41],
          .string 3, .string 3]⟩,
        accessFlags := 33, thisClass := 2, superClass := 0, interfaces := [],
        fields := [⟨0, 1, 1, [⟨1, .constantValue 4⟩]⟩],
        methods := [⟨0, 1, 1, [⟨1, .code ⟨1, 1, [0x12, 4, 0x12, 5], [], []⟩⟩]⟩],
        attributes := [] }
    let after := (relabel 0 (.ofNames ∅ ∅ ∅) .developer file).2
    (relabel 0 (.ofNames ∅ ∅ ∅) .developer file).1 = .ok ⟨2⟩ ∧
      ∃ result, Lookup.process 0 (.ofNames ∅ ∅ ∅) .developer "SRC(a.B)" = .ok result ∧
        after.pool.string 5 = .ok (result.getD "SRC(a.B)") := by
  intro file after
  have changes : (relabel 0 (.ofNames ∅ ∅ ∅) .developer file).1 = .ok ⟨2⟩ := by cbv
  have run : relabel 0 (.ofNames ∅ ∅ ∅) .developer file = (.ok ⟨2⟩, after) :=
    Prod.ext changes rfl
  have bounded : file.pool.size ≤ 65535 := by decide
  have unchanged : Goal.developer = Goal.production → ∀ references,
      (relabelReference (.ofNames ∅ ∅ ∅) file).1 = .ok references →
        references.isChanged = false := by
    intro isProduction
    cases isProduction
  obtain ⟨values, -⟩ := relabel_string_values bounded unchanged run
  obtain ⟨-, decoded, -⟩ := values (.load 0 1) 5 3 (by decide +kernel) (by decide +kernel)
  obtain ⟨result, processed, -, string⟩ := decoded "SRC(a.B)" (by decide +kernel)
  exact ⟨changes, result, processed, string⟩

end Relabel.Pass
