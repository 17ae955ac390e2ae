import Relabel.Descriptor
import Relabel.Mapping.CompactRecord
import Relabel.Mapping.DebugRecord
import Relabel.Names

/-!
# Tables of mapping files

The records of a mapping file are collected into name maps; a later record replaces an earlier one
with the same key. Class names are in internal form. Fields are keyed by `class.name.descriptor`,
methods by `class.name(parameters)result`. Constructors, static initialisers and methods of a
foreign class are no entries.
-/

namespace Relabel.Mapping

def internal (name : String) : String := String.ofList (Descriptor.internalName name.toList)

def fieldKey (owner name type : String) : String :=
  owner ++ "." ++ name ++ "." ++ String.ofList (Descriptor.ofType type.toList)

def methodKey (owner name arguments type : String) : String :=
  owner ++ "." ++ name ++ "(" ++ String.ofList (Descriptor.ofArguments arguments.toList) ++ ")"
    ++ String.ofList (Descriptor.ofType type.toList)

/-- The maps of a debug mapping, from readable to obfuscated names. -/
structure DebugTables where
  classes : Names := ∅
  fields : Names := ∅
  methods : Names := ∅

/-- What has been read of a debug mapping: its tables, and the class that members belong to. -/
structure DebugState where
  tables : DebugTables := {}
  owner : Option String := none

/-- Adds a record. A member without a class is a fault; constructors and static initialisers are
never looked at. -/
def DebugState.add (state : DebugState) : DebugRecord → Except Fault DebugState
  | .comment _ => .ok state
  | .classHeader readable obfuscated =>
    let tables := state.tables
    .ok { tables := { tables with
            classes := tables.classes.insert (internal readable) (internal obfuscated) }
          owner := some (internal readable) }
  | .field type name obfuscated =>
    match state.owner with
    | none => .error .missingClass
    | some owner =>
      let tables := state.tables
      .ok { state with tables := { tables with
              fields := tables.fields.insert (fieldKey owner name type) obfuscated } }
  | .method type name obfuscated arguments foreign =>
    if name = "<init>" ∨ name = "<clinit>" then .ok state
    else
      match state.owner with
      | none => .error .missingClass
      | some owner =>
        if foreign.isSome then .ok state
        else
          let tables := state.tables
          .ok { state with tables := { tables with
                  methods := tables.methods.insert (methodKey owner name arguments type)
                    obfuscated } }

/-- Adds the records of lines up to the first fault. -/
def DebugState.addLines (state : DebugState) :
    List (Line × Except Fault DebugRecord) → Except Error DebugState
  | [] => .ok state
  | (line, .error fault) :: _ => .error ⟨line, fault⟩
  | (line, .ok record) :: rest =>
    match state.add record with
    | .error fault => .error ⟨line, fault⟩
    | .ok state => state.addLines rest

/-- The tables of a debug mapping, or its first fault. -/
def debugTables (source : Bytes) : Except Error DebugTables :=
  (DebugState.addLines {} (debugRecords source)).map DebugState.tables

/-- Adds the entries of lines up to the first fault. -/
def addCompactLines (classes : Names) :
    List (Line × Except Fault CompactRecord) → Except Error Names
  | [] => .ok classes
  | (line, .error fault) :: _ => .error ⟨line, fault⟩
  | (_, .ok (.comment _)) :: rest => addCompactLines classes rest
  | (_, .ok (.entry obfuscated readable)) :: rest =>
    addCompactLines (classes.insert obfuscated readable) rest

/-- The map of a compact mapping, from obfuscated to readable class names, or its first fault. -/
def compactTable (source : Bytes) : Except Error Names :=
  addCompactLines ∅ (compactRecords source)

end Relabel.Mapping
