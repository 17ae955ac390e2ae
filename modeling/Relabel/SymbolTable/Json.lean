import Relabel.Json.Printer
import Relabel.Json.Shape
import Relabel.SymbolTable.Basic

/-!
# Symbol tables in JSON

A table is written as an object of three maps, `classMappings`, `fieldMappings` and
`methodMappings`. All three are needed to read it back; other members are passed over.
-/

namespace Relabel.SymbolTable

/-- The maps of a table that have been read. -/
structure Sections where
  classes : Option Names := none
  fields : Option Names := none
  methods : Option Names := none

/-- Reads a member of a table from behind its key. -/
def Sections.member (found : Sections) (key : String) (input : Bytes) :
    Except Json.Fault (Sections × Bytes) :=
  if key = "classMappings" then
    (Json.field found.classes Json.names input).map fun (classes, rest) =>
      ({ found with classes }, rest)
  else if key = "fieldMappings" then
    (Json.field found.fields Json.names input).map fun (fields, rest) =>
      ({ found with fields }, rest)
  else if key = "methodMappings" then
    (Json.field found.methods Json.names input).map fun (methods, rest) =>
      ({ found with methods }, rest)
  else Json.unknown found input

/-- The table with these sections, if none is missing. -/
def Sections.table? (found : Sections) : Option SymbolTable := do
  return ofNames (← found.classes) (← found.fields) (← found.methods)

def read (input : Bytes) : Except Json.Fault (SymbolTable × Bytes) :=
  match Json.skipBlanks input with
  | 91 :: rest => do
    let (classes, rest) ← Json.required Json.names true rest
    let (fields, rest) ← Json.required Json.names false rest
    let (methods, rest) ← Json.required Json.names false rest
    return (ofNames classes fields methods, ← Json.endList rest)
  | 123 :: rest => do
    let (sections, rest) ← Json.members Sections.member {} rest
    match sections.table? with
    | some table => return (table, rest)
    | none => .error .mismatch
  | rest => .error (Json.wrongShape rest)

def ofJson (text : Bytes) : Except Json.Fault SymbolTable := Json.whole read text

def toJson (table : SymbolTable) : String :=
  String.ofList (Json.printObject
    [Json.printMember "classMappings" (Json.printNames table.classes),
      Json.printMember "fieldMappings" (Json.printNames table.fields),
      Json.printMember "methodMappings" (Json.printNames table.methods)])

end Relabel.SymbolTable
