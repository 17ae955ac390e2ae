import Mathlib
import Relabel.Proofs.ClassFile.Editing
import Relabel.Proofs.Mapping.Spelling
import Relabel.Proofs.Names
import Relabel.SymbolTable.Merge

/-!
# Records and the entries that they make

A member of a debug mapping belongs to the class whose header stands last before it. With the owners
written next to the records, each record makes at most one entry of a table whatever stands around
it, and the tables of a mapping are the entries of its records in their order. What a key leads to
is then settled by the last record that has it.
-/

namespace Relabel

namespace Mapping

/-! ## Keys -/

theorem fieldKey_toList (owner name type : String) :
    (fieldKey owner name type).toList =
      owner.toList ++ '.' :: (name.toList ++ '.' :: Descriptor.ofType type.toList) := by
  simp [fieldKey]

theorem methodKey_toList (owner name arguments type : String) :
    (methodKey owner name arguments type).toList =
      owner.toList ++ '.' :: (name.toList ++ '(' :: (Descriptor.ofArguments arguments.toList ++
        ')' :: Descriptor.ofType type.toList)) := by
  simp [methodKey]

theorem internal_toList (name : String) :
    (internal name).toList = Descriptor.internalName name.toList := by
  simp [internal]

/-! ## Names in records -/

/-- What the grammar says of the names in a record: none is empty, and an opening parenthesis ends
the name of a member. -/
def DebugRecord.IsNamed : DebugRecord → Prop
  | .comment _ => True
  | .classHeader readable _ => readable ≠ ""
  | .field _ name _ => name ≠ "" ∧ '(' ∉ name.toList
  | .method _ name _ _ owner => owner = none → name ≠ "" ∧ '(' ∉ name.toList

theorem DebugRecord.parse_isNamed {line : Bytes} {record : DebugRecord}
    (parsed : parse line = .ok record) : record.IsNamed := by
  obtain ⟨text, -, read⟩ := parse_eq_ok_iff_ofText?.1 parsed
  cases ofText?_eq_some_iff.1 read with
  | comment => trivial
  | classHeader isReadable => simpa [IsNamed] using isReadable.nonempty
  | member spells =>
    cases spells with
    | field _ _ isName =>
      exact ⟨by simpa using isName.nonempty, fun member => by simpa using isName.plain '(' member⟩
    | @method _ _ _ _ owner _ _ _ _ _ isName =>
      rintro rfl
      rw [qualified] at isName
      exact ⟨by simpa using isName.nonempty, fun member => by simpa using isName.plain '(' member⟩

/-! ## Records with their owners -/

/-- The class whose header a record is. -/
def DebugRecord.opens? : DebugRecord → Option String
  | .classHeader readable _ => some readable
  | _ => none

/-- A record with the readable name of the class that it belongs to. A header belongs to its own
class. -/
abbrev OwnedRecord := Option String × DebugRecord

/-- Records with their owners, where members before the first header belong to the class that is
given. -/
def withOwners (owner : Option String) : List DebugRecord → List OwnedRecord
  | [] => []
  | record :: rest =>
    (record.opens?.or owner, record) :: withOwners (record.opens?.or owner) rest

/-- The records of a debug mapping that can be read, with their owners. -/
def ownedRecords (source : Bytes) : List OwnedRecord :=
  withOwners none ((debugRecords source).filterMap fun line => line.2.toOption)

/-- The class that a record names, as an entry. -/
def classEntry? : OwnedRecord → Option (String × String)
  | (_, .classHeader readable obfuscated) => some (internal readable, internal obfuscated)
  | _ => none

def fieldEntry? : OwnedRecord → Option (String × String)
  | (some owner, .field type name obfuscated) =>
    some (fieldKey (internal owner) name type, obfuscated)
  | _ => none

/-- The method that a record names, as an entry. -/
def methodEntry? : OwnedRecord → Option (String × String)
  | (some owner, .method type name obfuscated arguments none) =>
    if name = "<init>" ∨ name = "<clinit>" then none
    else some (methodKey (internal owner) name arguments type, obfuscated)
  | _ => none

/-- An owner is the class given at the start, or one that a header names. -/
theorem mem_withOwners {records : List DebugRecord} {start : Option String} {owner : String}
    {record : DebugRecord} (member : (some owner, record) ∈ withOwners start records) :
    record ∈ records ∧ (start = some owner ∨ ∃ header ∈ records, header.opens? = some owner) := by
  induction records generalizing start with
  | nil => cases member
  | cons first rest ih =>
    have ofOwner (owns : some owner = first.opens?.or start) :
        start = some owner ∨ ∃ header ∈ first :: rest, header.opens? = some owner := by
      cases opens : first.opens? with
      | none =>
        rw [opens] at owns
        exact .inl owns.symm
      | some name =>
        rw [opens] at owns
        exact .inr ⟨first, List.mem_cons_self, opens.trans owns.symm⟩
    rcases List.mem_cons.1 member with same | later
    · obtain ⟨owns, rfl⟩ := Prod.mk.inj same
      exact ⟨List.mem_cons_self, ofOwner owns⟩
    · obtain ⟨isRecord, owns | ⟨header, isHeader, opens⟩⟩ := ih later
      · exact ⟨List.mem_cons_of_mem _ isRecord, ofOwner owns.symm⟩
      · refine ⟨List.mem_cons_of_mem _ isRecord, .inr ⟨header, ?_, opens⟩⟩
        exact List.mem_cons_of_mem _ isHeader

/-- A record that has been read is that of a line. -/
theorem exists_parse_of_mem {source : Bytes} {record : DebugRecord}
    (read : record ∈ (debugRecords source).filterMap fun line => line.2.toOption) :
    ∃ line, DebugRecord.parse line = .ok record := by
  obtain ⟨⟨line, result⟩, isLine, isRecord⟩ := List.mem_filterMap.1 read
  obtain ⟨_, -, same⟩ := List.mem_map.1 isLine
  cases same
  cases parsed : DebugRecord.parse line.bytes with
  | error fault =>
    rw [parsed] at isRecord
    cases isRecord
  | ok found =>
    rw [parsed] at isRecord
    cases isRecord
    exact ⟨line.bytes, parsed⟩

/-- Records are named as the grammar says, and so are their owners. -/
theorem isNamed_of_mem_ownedRecords {source : Bytes} {owner : String} {record : DebugRecord}
    (member : (some owner, record) ∈ ownedRecords source) : owner ≠ "" ∧ record.IsNamed := by
  have named {other : DebugRecord} (read : other ∈ (debugRecords source).filterMap
      fun line => line.2.toOption) : other.IsNamed := by
    obtain ⟨line, parsed⟩ := exists_parse_of_mem read
    exact DebugRecord.parse_isNamed parsed
  obtain ⟨isRecord, impossible | ⟨header, isHeader, opens⟩⟩ := mem_withOwners member
  · cases impossible
  · refine ⟨?_, named isRecord⟩
    have isNamed := named isHeader
    cases header <;> cases opens
    exact isNamed

/-! ## Entries in order -/

/-- Entries added to a map one after the other. -/
def addEntries (names : Names) (entries : List (String × String)) : Names :=
  entries.foldl (fun names entry => names.insert entry.1 entry.2) names

/-- A record of a mapping that makes an entry whose key no later record has. -/
structure IsLatest (entryOf? : OwnedRecord → Option (String × String)) (source : Bytes)
    (record : OwnedRecord) (key name : String) : Prop where
  makes : entryOf? record = some (key, name)
  isLast : ∃ before later, ownedRecords source = before ++ record :: later ∧
    key ∉ (later.filterMap entryOf?).map Prod.fst

theorem IsLatest.mem {entryOf? : OwnedRecord → Option (String × String)} {source : Bytes}
    {record : OwnedRecord} {key name : String} (latest : IsLatest entryOf? source record key name) :
    record ∈ ownedRecords source := by
  obtain ⟨before, later, split, -⟩ := latest.isLast
  simp [split]

theorem IsLatest.getElem? {entryOf? : OwnedRecord → Option (String × String)} {source : Bytes}
    {record : OwnedRecord} {key name : String} (latest : IsLatest entryOf? source record key name) :
    (Names.ofEntries ((ownedRecords source).filterMap entryOf?))[key]? = some name := by
  obtain ⟨before, later, split, absent⟩ := latest.isLast
  have noLater : (later.filterMap entryOf?).filter (·.1 = key) = [] := by
    rw [List.filter_eq_nil_iff]
    intro entry member same
    exact absent (of_decide_eq_true same ▸ List.mem_map_of_mem member)
  rw [Names.getElem?_ofEntries, split, List.filterMap_append, List.filterMap_cons, latest.makes]
  simp [noLater]

/-- The tables with the entries of records added to them. -/
def DebugTables.addRecords (tables : DebugTables) (records : List OwnedRecord) : DebugTables where
  classes := addEntries tables.classes (records.filterMap classEntry?)
  fields := addEntries tables.fields (records.filterMap fieldEntry?)
  methods := addEntries tables.methods (records.filterMap methodEntry?)

theorem DebugTables.addRecords_append (tables : DebugTables) (first second : List OwnedRecord) :
    tables.addRecords (first ++ second) = (tables.addRecords first).addRecords second := by
  simp [addRecords, addEntries]

theorem DebugTables.addRecords_of_noEntry {record : OwnedRecord} (tables : DebugTables)
    (noClass : classEntry? record = none) (noField : fieldEntry? record = none)
    (noMethod : methodEntry? record = none) : tables.addRecords [record] = tables := by
  simp [addRecords, addEntries, noClass, noField, noMethod]

/-- One record adds its entry. -/
theorem DebugState.add_eq_ok {state after : DebugState} {record : DebugRecord}
    {owner : Option String} (owns : state.owner = owner.map internal)
    (added : state.add record = .ok after) :
    after.tables = state.tables.addRecords [(record.opens?.or owner, record)] ∧
      after.owner = (record.opens?.or owner).map internal := by
  obtain ⟨tables, stateOwner⟩ := state
  cases owns
  cases record with
  | comment text =>
    cases added
    refine ⟨(DebugTables.addRecords_of_noEntry tables rfl ?_ ?_).symm, rfl⟩ <;> cases owner <;> rfl
  | classHeader readable obfuscated =>
    cases added
    exact ⟨rfl, rfl⟩
  | field type name obfuscated =>
    cases owner with
    | none => cases added
    | some owner =>
      cases added
      exact ⟨rfl, rfl⟩
  | method type name obfuscated arguments foreign =>
    by_cases isInitializer : name = "<init>" ∨ name = "<clinit>"
    · simp only [DebugState.add, if_pos isInitializer] at added
      cases added
      refine ⟨(DebugTables.addRecords_of_noEntry tables rfl ?_ ?_).symm, rfl⟩
      · cases owner <;> rfl
      · cases owner with
        | none => rfl
        | some owner =>
          cases foreign with
          | none => exact if_pos isInitializer
          | some other => rfl
    · simp only [DebugState.add, if_neg isInitializer] at added
      cases owner with
      | none => cases added
      | some owner =>
        cases foreign with
        | some other =>
          cases added
          exact ⟨(DebugTables.addRecords_of_noEntry tables rfl rfl rfl).symm, rfl⟩
        | none =>
          have isEntry : methodEntry? (some owner, .method type name obfuscated arguments none) =
              some (methodKey (internal owner) name arguments type, obfuscated) :=
            if_neg isInitializer
          cases added
          refine ⟨?_, rfl⟩
          simp only [DebugTables.addRecords, DebugRecord.opens?, Option.none_or,
            List.filterMap_cons, isEntry]
          rfl

theorem DebugState.addLines_eq_ok {lines : List (Line × Except Fault DebugRecord)}
    {owner : Option String} {state after : DebugState} (owns : state.owner = owner.map internal)
    (added : state.addLines lines = .ok after) :
    after.tables = state.tables.addRecords
      (withOwners owner (lines.filterMap fun line => line.2.toOption)) := by
  -- The owner that the state keeps is the one that the records so far leave behind.
  induction lines generalizing state owner with
  | nil =>
    cases added
    rfl
  | cons line rest ih =>
    obtain ⟨line, result⟩ := line
    cases result with
    | error fault => cases added
    | ok record =>
      rw [DebugState.addLines] at added
      split at added
      · cases added
      · next middle step =>
        obtain ⟨tables, owns⟩ := DebugState.add_eq_ok owns step
        rw [ih owns added, tables, ← DebugTables.addRecords_append]
        rfl

/-- The tables of a mapping are the entries of its records. -/
theorem debugTables_eq_ok {source : Bytes} {tables : DebugTables}
    (read : debugTables source = .ok tables) :
    tables.classes = .ofEntries ((ownedRecords source).filterMap classEntry?) ∧
      tables.fields = .ofEntries ((ownedRecords source).filterMap fieldEntry?) ∧
      tables.methods = .ofEntries ((ownedRecords source).filterMap methodEntry?) := by
  unfold debugTables at read
  cases added : DebugState.addLines {} (debugRecords source) with
  | error fault =>
    rw [added] at read
    cases read
  | ok state =>
    rw [added] at read
    cases read
    have noOwner : ({} : DebugState).owner = Option.map internal none := rfl
    rw [DebugState.addLines_eq_ok noOwner added]
    exact ⟨rfl, rfl, rfl⟩

end Mapping

/-! ## Merged tables -/

namespace SymbolTable

open Mapping

variable {debug compact : Bytes} {table : SymbolTable} {record : OwnedRecord} {key name : String}

theorem ofMappings_eq_ok (merged : ofMappings debug compact = .ok table) :
    ∃ tables classes, debugTables debug = .ok tables ∧ compactTable compact = .ok classes ∧
      table = merge tables classes := by
  unfold ofMappings at merged
  obtain ⟨tables, isTables, merged⟩ := Editing.except_bind_eq_ok.1 merged
  obtain ⟨classes, isClasses, merged⟩ := Editing.except_bind_eq_ok.1 merged
  cases merged
  exact ⟨tables, classes, isTables, isClasses, rfl⟩

theorem field?_of_isLatest (merged : ofMappings debug compact = .ok table)
    (latest : IsLatest fieldEntry? debug record key name) : table.field? key = some name := by
  obtain ⟨tables, classes, isTables, -, rfl⟩ := ofMappings_eq_ok merged
  show tables.fields[key]? = some name
  rw [(debugTables_eq_ok isTables).2.1]
  exact latest.getElem?

theorem method?_of_isLatest (merged : ofMappings debug compact = .ok table)
    (latest : IsLatest methodEntry? debug record key name) : table.method? key = some name := by
  obtain ⟨tables, classes, isTables, -, rfl⟩ := ofMappings_eq_ok merged
  show tables.methods[key]? = some name
  rw [(debugTables_eq_ok isTables).2.2]
  exact latest.getElem?

/-- A class is renamed as the compact mapping resolves the name that the debug mapping has for
it. -/
theorem class?_of_isLatest (merged : ofMappings debug compact = .ok table)
    (latest : IsLatest classEntry? debug record key name) :
    ∃ classes, compactTable compact = .ok classes ∧
      table.class? key = some (classes.resolve name) := by
  obtain ⟨tables, classes, isTables, isClasses, rfl⟩ := ofMappings_eq_ok merged
  refine ⟨classes, isClasses, ?_⟩
  show (tables.classes.map fun _ obfuscated => classes.resolve obfuscated)[key]? = _
  rw [Std.ExtTreeMap.getElem?_map, (debugTables_eq_ok isTables).1, latest.getElem?]
  rfl

/-- Each class with a header has a name. -/
theorem exists_class? (merged : ofMappings debug compact = .ok table) {readable : String}
    {obfuscated : String} {owner : Option String}
    (member : (owner, .classHeader readable obfuscated) ∈ ownedRecords debug) :
    ∃ name, table.class? (internal readable) = some name := by
  obtain ⟨tables, classes, isTables, -, rfl⟩ := ofMappings_eq_ok merged
  have isEntry : (internal readable, internal obfuscated) ∈
      (ownedRecords debug).filterMap classEntry? := List.mem_filterMap.2 ⟨_, member, rfl⟩
  obtain ⟨name, found⟩ := Names.exists_getElem?_ofEntries isEntry
  refine ⟨classes.resolve name, ?_⟩
  show (tables.classes.map fun _ obfuscated => classes.resolve obfuscated)[internal readable]? = _
  rw [Std.ExtTreeMap.getElem?_map, (debugTables_eq_ok isTables).1]
  exact congrArg (Option.map _) found

end SymbolTable

end Relabel
