import Relabel.Project.Action
import Relabel.SymbolTable.Json
import Relabel.SymbolTable.Merge

/-!
# Cached symbol tables

The symbol table of two mapping files is kept in a third file, which is written when it is missing
and read instead of the mapping files from then on.
-/

namespace Relabel.Project

/-- The symbol table of two mapping files. If there is a file at `cache`, the table is read from
it; otherwise it is built and written there. -/
def loadTable (debug compact cache : Path) : FileAction SymbolTable := do
  match (← get).read? cache with
  | some content =>
    match SymbolTable.ofJson content with
    | .ok table => return table
    | .error cause => throw (.cache cache cause)
  | none =>
    let debugSource ← readFile debug
    let compactSource ← readFile compact
    match Mapping.debugTables debugSource with
    | .error cause => throw (.mapping debug cause)
    | .ok tables =>
      match Mapping.compactTable compactSource with
      | .error cause => throw (.mapping compact cause)
      | .ok classes =>
        let table := SymbolTable.merge tables classes
        createFolder cache.parent
        writeFile cache (Utf8.encode table.toJson)
        return table

end Relabel.Project
