import Relabel.Pass.Metadata
import Relabel.Pass.Reference
import Relabel.Pass.Strings

/-!
# Relabelling a class file

For production, callable references and metadata are relabelled before the strings. For developers
only the strings are.
-/

namespace Relabel.Pass

def relabel (reserve : Nat) (table : SymbolTable) (goal : Goal) : Edit Changes := do
  match goal with
  | .developer => relabelStrings reserve table goal
  | .production =>
    let references ← Edit.ofFile (relabelReference table)
    let metadata ← Edit.ofFile (relabelMetadata table)
    let strings ← relabelStrings reserve table goal
    return (references.merge metadata).merge strings

/-- The bytes of a relabelled class file, or nothing if there is no change. -/
def relabelBytes (reserve : Nat) (table : SymbolTable) (goal : Goal) (bytes : Bytes) :
    Except Error (Option Bytes) :=
  match ClassFile.parse bytes with
  | .error fault => .error (.file fault)
  | .ok file =>
    match relabel reserve table goal file with
    | (.error error, _) => .error error
    | (.ok changes, file) =>
      if changes.isChanged then
        match file.toBytes with
        | .ok bytes => .ok (some bytes)
        | .error fault => .error (.file fault)
      else .ok none

end Relabel.Pass
