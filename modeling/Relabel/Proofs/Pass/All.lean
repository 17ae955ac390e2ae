import Relabel.Pass.All
import Relabel.Proofs.Pass.Metadata
import Relabel.Proofs.Pass.Reference
import Relabel.Proofs.Pass.Strings

/-!
# The order of the passes

The string pass comes last. For production, references and metadata are relabelled before it.
-/

namespace Relabel.Pass

open ClassFile (Pool)

/-- The class file that the string pass starts with. -/
def beforeStrings (table : SymbolTable) (goal : Goal) (file : ClassFile) : ClassFile :=
  match goal with
  | .developer => file
  | .production => (relabelMetadata table (relabelReference table file).2).2

/-- The string pass comes last, and only references and metadata are relabelled before it. -/
theorem relabel_eq_ok {reserve : Nat} {table : SymbolTable} {goal : Goal}
    {file after : ClassFile} {changes : Changes}
    (run : relabel reserve table goal file = (.ok changes, after)) :
    ∃ strings,
      relabelStrings reserve table goal (beforeStrings table goal file) = (.ok strings, after) ∧
      match goal with
      | .developer => changes = strings
      | .production => ∃ references metadata referenced,
          relabelReference table file = (.ok references, referenced) ∧
          relabelMetadata table referenced = (.ok metadata, beforeStrings table goal file) ∧
          changes = (references.merge metadata).merge strings := by
  cases goal with
  | developer => exact ⟨changes, run, rfl⟩
  | production =>
    simp only [relabel, Editing.bind_eq_ok, Edit.ofFile_eq_ok, Editing.pure_eq_ok] at run
    obtain ⟨references, referenced, referring, metadata, middle, described, strings, _, relabelling,
      rfl, rfl⟩ := run
    have before : beforeStrings table .production file = middle := by
      rw [beforeStrings, referring, described]
    rw [before]
    exact ⟨strings, relabelling, references, metadata, referenced, referring, described, rfl⟩

end Relabel.Pass
