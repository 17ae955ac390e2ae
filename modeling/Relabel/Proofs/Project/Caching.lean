import Mathlib
import Relabel.Project.Cache
import Relabel.Proofs.Mapping.Records
import Relabel.Proofs.Project.FileTree
import Relabel.Proofs.SymbolTable.RoundTrip

/-!
# Cached tables

The first time, a table is built from its mapping files and written to the cache; from then on it is
read from there. Both ways give the same table, since a table that is written as JSON is read back,
and the mapping files do not matter any more. The cache is written only when nothing can go wrong
with the mapping files any more, so that faulty ones leave no cache behind.
-/

namespace Relabel.Project

variable {debug compact cache : Path} {tree : FileTree} {debugSource compactSource : Bytes}

theorem get_files_apply (tree : FileTree) : (get : FileAction _) tree = (.ok tree, tree) := rfl

/-- A table that is in the cache is read from it. -/
theorem loadTable_of_cached {content : Bytes} {table : SymbolTable}
    (cached : tree.read? cache = some content) (restored : SymbolTable.ofJson content = .ok table) :
    loadTable debug compact cache tree = (.ok table, tree) := by
  simp only [loadTable, Editing.bind_eq, get_files_apply, cached, restored]
  rfl

section

variable (absent : tree.read? cache = none)
include absent

theorem loadTable_of_unreadDebug (unread : tree.read? debug = none) :
    loadTable debug compact cache tree = (.error (.access debug), tree) := by
  simp only [loadTable, Editing.bind_eq, get_files_apply, absent, readFile, unread]

theorem loadTable_of_unreadCompact (readDebug : tree.read? debug = some debugSource)
    (unread : tree.read? compact = none) :
    loadTable debug compact cache tree = (.error (.access compact), tree) := by
  simp only [loadTable, Editing.bind_eq, get_files_apply, absent, readFile, readDebug, unread]

theorem loadTable_of_malformedDebug {error : Mapping.Error}
    (readDebug : tree.read? debug = some debugSource)
    (readCompact : tree.read? compact = some compactSource)
    (malformed : Mapping.debugTables debugSource = .error error) :
    loadTable debug compact cache tree = (.error (.mapping debug error), tree) := by
  simp only [loadTable, Editing.bind_eq, get_files_apply, absent, readFile, readDebug, readCompact,
    malformed]
  rfl

theorem loadTable_of_malformedCompact {tables : Mapping.DebugTables} {error : Mapping.Error}
    (readDebug : tree.read? debug = some debugSource)
    (readCompact : tree.read? compact = some compactSource)
    (parsed : Mapping.debugTables debugSource = .ok tables)
    (malformed : Mapping.compactTable compactSource = .error error) :
    loadTable debug compact cache tree = (.error (.mapping compact error), tree) := by
  simp only [loadTable, Editing.bind_eq, get_files_apply, absent, readFile, readDebug, readCompact,
    parsed, malformed]
  rfl

/-- Tables that can be built are written. -/
theorem loadTable_of_parsed {tables : Mapping.DebugTables} {classes : Names}
    {grown after : FileTree} (readDebug : tree.read? debug = some debugSource)
    (readCompact : tree.read? compact = some compactSource)
    (parsed : Mapping.debugTables debugSource = .ok tables)
    (parsedCompact : Mapping.compactTable compactSource = .ok classes)
    (created : tree.createFolder cache.parent = (grown, true))
    (written : grown.write? cache (Utf8.encode (SymbolTable.merge tables classes).toJson) =
      some after) :
    loadTable debug compact cache tree = (.ok (SymbolTable.merge tables classes), after) := by
  simp only [loadTable, Editing.bind_eq, get_files_apply, absent, readFile, readDebug, readCompact,
    parsed, parsedCompact, createFolder, created, writeFile, written]
  rfl

end

/-- A file can be created and written at a path, whatever is to be written. -/
def CanCreate (tree : FileTree) (path : Path) : Prop :=
  ∃ grown, tree.createFolder path.parent = (grown, true) ∧
    ∀ content, (grown.write? path content).isSome

/-- A mapping file is there, and it is well-formed. -/
def IsSound {α : Type} (parse : Bytes → Except Mapping.Error α) (tree : FileTree) (path : Path) :
    Prop :=
  ∃ source value, tree.read? path = some source ∧ parse source = .ok value

/-- The table of two sound mapping files is returned and kept in the cache. -/
theorem loadTable_of_ofMappings {table : SymbolTable} (absent : tree.read? cache = none)
    (canCreate : CanCreate tree cache) (readDebug : tree.read? debug = some debugSource)
    (readCompact : tree.read? compact = some compactSource)
    (merged : SymbolTable.ofMappings debugSource compactSource = .ok table) :
    ∃ after, loadTable debug compact cache tree = (.ok table, after) ∧
      after.read? cache = some (Utf8.encode table.toJson) := by
  obtain ⟨tables, classes, parsed, parsedCompact, rfl⟩ := SymbolTable.ofMappings_eq_ok merged
  obtain ⟨grown, created, writable⟩ := canCreate
  obtain ⟨after, written⟩ := Option.isSome_iff_exists.1 (writable
    (Utf8.encode (SymbolTable.merge tables classes).toJson))
  exact ⟨after, loadTable_of_parsed absent readDebug readCompact parsed parsedCompact created
    written, FileTree.read?_of_write? written⟩

/-- If one of the mapping files is not sound, the files stay as they are. -/
theorem loadTable_of_unsound (absent : tree.read? cache = none)
    (unsound : ¬ IsSound Mapping.debugTables tree debug ∨
      ¬ IsSound Mapping.compactTable tree compact) :
    ∃ error, loadTable debug compact cache tree = (.error error, tree) := by
  cases readDebug : tree.read? debug with
  | none => exact ⟨_, loadTable_of_unreadDebug absent readDebug⟩
  | some debugSource =>
    cases readCompact : tree.read? compact with
    | none => exact ⟨_, loadTable_of_unreadCompact absent readDebug readCompact⟩
    | some compactSource =>
      -- Both files are there, so one of them is malformed.
      cases parsed : Mapping.debugTables debugSource with
      | error error =>
        exact ⟨_, loadTable_of_malformedDebug absent readDebug readCompact parsed⟩
      | ok tables =>
        cases parsedCompact : Mapping.compactTable compactSource with
        | error error =>
          exact ⟨_, loadTable_of_malformedCompact absent readDebug readCompact parsed
            parsedCompact⟩
        | ok classes =>
          have debugSound : IsSound Mapping.debugTables tree debug :=
            ⟨debugSource, tables, readDebug, parsed⟩
          have compactSound : IsSound Mapping.compactTable tree compact :=
            ⟨compactSource, classes, readCompact, parsedCompact⟩
          exact (unsound.elim (absurd debugSound) (absurd compactSound))

/-- **The cache stands for its mapping files.** Where there is no cache yet and one can be written,
loading gives the table of the two mapping files if both are sound, and from then on, as long as
the cache is left as it is, loading gives this table and changes nothing, whatever has become of
all other files. If one of the mapping files is missing or malformed, loading fails, and there is no
cache afterwards either. -/
theorem loadTable_cached (debug compact : Path) (absent : tree.read? cache = none)
    (canCreate : CanCreate tree cache) :
    (∀ debugSource compactSource table, tree.read? debug = some debugSource →
        tree.read? compact = some compactSource →
        SymbolTable.ofMappings debugSource compactSource = .ok table →
        ∃ after, loadTable debug compact cache tree = (.ok table, after) ∧
          ∀ (later : FileTree) (otherDebug otherCompact : Path),
            later.read? cache = after.read? cache →
            loadTable otherDebug otherCompact cache later = (.ok table, later)) ∧
      (¬ IsSound Mapping.debugTables tree debug ∨ ¬ IsSound Mapping.compactTable tree compact →
        ∃ error after, loadTable debug compact cache tree = (.error error, after) ∧
          after = tree ∧ after.read? cache = none) := by
  constructor
  · intro debugSource compactSource table readDebug readCompact merged
    obtain ⟨after, loaded, cached⟩ :=
      loadTable_of_ofMappings absent canCreate readDebug readCompact merged
    refine ⟨after, loaded, fun later otherDebug otherCompact left => ?_⟩
    exact loadTable_of_cached (left.trans cached) (SymbolTable.ofJson_encode table)
  · intro unsound
    obtain ⟨error, failed⟩ := loadTable_of_unsound absent unsound
    exact ⟨error, tree, failed, rfl, absent⟩

/-- Two mapping files, and no folder for a cache. -/
def mappingTree : FileTree :=
  ⟨((∅ : Std.ExtTreeMap Location Entry).insert ["debug"] (.file (Utf8.encode "A -> x:\n"))).insert
    ["compact"] (.file (Utf8.encode "x y\n"))⟩

def mappingTable : SymbolTable := .ofNames ((∅ : Names).insert "A" "y") ∅ ∅

/-- The cache is read when the mapping files have been removed. -/
theorem loadTable_cached_of_removed_mappings :
    ∃ after, loadTable ⟨"debug"⟩ ⟨"compact"⟩ ⟨"cache/table"⟩ mappingTree =
        (.ok mappingTable, after) ∧
      loadTable ⟨"debug"⟩ ⟨"compact"⟩ ⟨"cache/table"⟩
          ((after.remove ["debug"]).remove ["compact"]) =
        (.ok mappingTable, (after.remove ["debug"]).remove ["compact"]) := by
  have canCreate : CanCreate mappingTree ⟨"cache/table"⟩ := ⟨_, rfl, fun _ => rfl⟩
  have merged : SymbolTable.ofMappings (Utf8.encode "A -> x:\n") (Utf8.encode "x y\n") =
      .ok mappingTable := by
    rfl
  obtain ⟨after, loaded, again⟩ := (loadTable_cached ⟨"debug"⟩ ⟨"compact"⟩ rfl canCreate).1 _ _ _
    rfl rfl merged
  refine ⟨after, loaded, again _ _ _ ?_⟩
  obtain rfl : (loadTable ⟨"debug"⟩ ⟨"compact"⟩ ⟨"cache/table"⟩ mappingTree).2 = after :=
    congrArg Prod.snd loaded
  decide +kernel

end Relabel.Project
