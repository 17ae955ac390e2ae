import Relabel.Mapping.Tables
import Relabel.SymbolTable.Basic

/-!
# Merging two mappings

The debug mapping leads from readable to obfuscated names, and the compact mapping renames some of
the obfuscated classes once more. A nested class that the compact mapping does not list follows the
innermost of its outer classes that is listed.
-/

namespace Relabel

/-- The ways to cut a name before a `$`, longest front first, behind those already `found`; `seen`
is the text before the current place, last character first. -/
def nestedCutsFrom (seen : List Char) (found : List (List Char × List Char)) :
    List Char → List (List Char × List Char)
  | [] => found
  | c :: rest =>
    nestedCutsFrom (c :: seen) (if c = '$' then (seen.reverse, c :: rest) :: found else found) rest

/-- The ways to cut a name before a `$`, longest front first. -/
def nestedCuts (name : List Char) : List (List Char × List Char) := nestedCutsFrom [] [] name

namespace Names

/-- The name of a nested class after its innermost outer class that the map knows, with the rest
of the name behind it. -/
def nested? (classes : Names) (name : String) : Option String :=
  (nestedCuts name.toList).findSome? fun (outer, inner) =>
    classes[String.ofList outer]?.map (· ++ String.ofList inner)

/-- The name that a map gives to a class: its own entry, else that of its outer classes, else the
name itself. -/
def resolve (classes : Names) (name : String) : String :=
  match classes[name]? with
  | some mapped => mapped
  | none => (classes.nested? name).getD name

end Names

namespace SymbolTable

/-- The table of a debug mapping whose classes are renamed by a compact mapping. -/
def merge (debug : Mapping.DebugTables) (compact : Names) : SymbolTable :=
  ofNames (debug.classes.map fun _ obfuscated => compact.resolve obfuscated)
    debug.fields debug.methods

/-- The table of two mapping files. The debug mapping is read first. -/
def ofMappings (debug compact : Bytes) : Except Mapping.Error SymbolTable := do
  let debug ← Mapping.debugTables debug
  let compact ← Mapping.compactTable compact
  return merge debug compact

end SymbolTable

end Relabel
