import Mathlib
import Relabel.Proofs.Mapping.Faults

/-!
# Joining debug mappings

When two debug mappings are joined by a line feed, the lines of the second one come behind those of
the first with greater numbers and are otherwise the same. If the second one opens with a class
header, then no member of it gets to a class of the first, so that it adds just the tables that it
has on its own. Parts of a mapping whose keys differ may then stand in any order.
-/

namespace Relabel.Mapping

/-! ## Lines -/

/-- The line as it is numbered behind others. -/
def Line.moved (offset : Nat) (line : Line) : Line := { line with number := line.number + offset }

theorem segmentsFrom_append (read : Bytes) (found : List Bytes) (first second : Bytes) :
    segmentsFrom read found (first ++ 10 :: second) =
      segmentsFrom read found first ++ segments second := by
  induction first generalizing read found with
  | nil =>
    simp only [List.nil_append, segmentsFrom, if_true]
    exact segmentsFrom_eq [] _ second
  | cons byte rest ih =>
    simp only [List.cons_append, segmentsFrom]
    split
    · exact ih [] _
    · exact ih (byte :: read) found

theorem segments_append (first second : Bytes) :
    segments (first ++ 10 :: second) = segments first ++ segments second :=
  segmentsFrom_append [] [] first second

theorem length_segmentsFrom (read : Bytes) (found : List Bytes) (rest : Bytes) :
    (segmentsFrom read found rest).length = found.length + 1 + rest.count 10 := by
  induction rest generalizing read found with
  | nil => simp [segmentsFrom]
  | cons byte rest ih =>
    rw [segmentsFrom]
    split
    · next isFeed =>
      rw [ih, List.length_cons, isFeed, List.count_cons_self]
      omega
    · next noFeed => rw [ih, List.count_cons_of_ne noFeed]

theorem length_segments (source : Bytes) : (segments source).length = source.count 10 + 1 := by
  rw [segments, length_segmentsFrom]
  simp [Nat.add_comm]

/-- The lines of the second source come behind those of the first. -/
theorem lines_append (first second : Bytes) :
    lines (first ++ 10 :: second) =
      lines first ++ (lines second).map (Line.moved (first.count 10 + 1)) := by
  have numbers : (segments second).zipIdx (1 + (first.count 10 + 1)) =
      ((segments second).zipIdx 1).map fun numbered =>
        (numbered.1, numbered.2 + (first.count 10 + 1)) := by
    rw [List.zipIdx_eq_map_add, List.zipIdx_eq_map_add (i := 1), List.map_map]
    congr 1
    funext numbered
    simp only [Function.comp_apply, Prod.mk.injEq, true_and]
    omega
  simp only [lines, segments_append, List.zipIdx_append, length_segments, numbers,
    List.map_append, List.filter_append, List.map_map, List.filter_map]
  rfl

theorem debugRecords_eq (source : Bytes) : debugRecords source = (lines source).map readLine := rfl

/-- The entry of a line as it is numbered behind others. -/
def movedEntry (offset : Nat) (entry : Line × Except Fault DebugRecord) :
    Line × Except Fault DebugRecord :=
  (entry.1.moved offset, entry.2)

theorem debugRecords_append (first second : Bytes) :
    debugRecords (first ++ 10 :: second) =
      debugRecords first ++ (debugRecords second).map (movedEntry (first.count 10 + 1)) := by
  simp only [debugRecords_eq, lines_append, List.map_append, List.map_map]
  rfl

/-- The error of a line as it is numbered behind others. -/
def Error.moved (offset : Nat) (error : Error) : Error :=
  { error with line := error.line.moved offset }

/-- Where lines stand in a source decides about nothing but the number of the line at fault. -/
theorem DebugState.addLines_moved (offset : Nat) (state : DebugState)
    (entries : List (Line × Except Fault DebugRecord)) :
    state.addLines (entries.map (movedEntry offset)) =
      (state.addLines entries).mapError (Error.moved offset) := by
  fun_induction addLines state entries with
  | case1 => rfl
  | case2 => rfl
  | case3 state line record rest fault refused =>
    simp only [List.map_cons, movedEntry, addLines, refused]
    rfl
  | case4 state line record rest after added ih =>
    simp only [List.map_cons, movedEntry, addLines, added]
    exact ih

/-! ## Unions -/

/-- The entries of two maps, where those of the second one count. -/
theorem union_insert (old new : Names) (key name : String) :
    (old ∪ new).insert key name = old ∪ new.insert key name := by
  apply Std.ExtTreeMap.ext_getElem?
  intro other
  simp only [Std.ExtTreeMap.getElem?_insert, Std.ExtTreeMap.getElem?_union]
  split <;> rfl

/-- The entries of two tables, where those of the second one count. -/
def DebugTables.union (old new : DebugTables) : DebugTables where
  classes := old.classes ∪ new.classes
  fields := old.fields ∪ new.fields
  methods := old.methods ∪ new.methods

theorem DebugTables.union_empty (tables : DebugTables) : tables.union {} = tables := by
  have same (names : Names) : names ∪ (∅ : Names) = names := by
    apply Std.ExtTreeMap.ext_getElem?
    simp [Std.ExtTreeMap.getElem?_union]
  simp only [union, same]

theorem DebugTables.union_assoc (first second third : DebugTables) :
    (first.union second).union third = first.union (second.union third) := by
  have same (left middle right : Names) : left ∪ middle ∪ right = left ∪ (middle ∪ right) := by
    apply Std.ExtTreeMap.ext_getElem?
    simp [Std.ExtTreeMap.getElem?_union, Option.or_assoc]
  simp only [union, same]

/-- The state with more tables below its own. -/
def DebugState.above (state : DebugState) (tables : DebugTables) : DebugState :=
  { state with tables := tables.union state.tables }

theorem DebugState.add_above (tables : DebugTables) (state : DebugState) (record : DebugRecord) :
    (state.above tables).add record = (state.add record).map (·.above tables) := by
  obtain ⟨own, owner⟩ := state
  cases record with
  | comment text => rfl
  | classHeader readable obfuscated =>
    simp only [add, above, DebugTables.union, union_insert]
    rfl
  | field type name obfuscated =>
    cases owner with
    | none => rfl
    | some owner =>
      simp only [add, above, DebugTables.union, union_insert]
      rfl
  | method type name obfuscated arguments foreign =>
    by_cases isInitializer : name = "<init>" ∨ name = "<clinit>"
    · simp only [add, if_pos isInitializer]
      rfl
    · simp only [add, above, if_neg isInitializer]
      cases owner with
      | none => rfl
      | some owner =>
        cases foreign with
        | some other => rfl
        | none =>
          simp only [DebugTables.union, union_insert]
          rfl

/-- Tables that are there already do not change what is added to them. -/
theorem DebugState.addLines_above (tables : DebugTables) (state : DebugState)
    (entries : List (Line × Except Fault DebugRecord)) :
    (state.above tables).addLines entries = (state.addLines entries).map (·.above tables) := by
  fun_induction addLines state entries with
  | case1 => rfl
  | case2 => rfl
  | case3 state line record rest fault refused =>
    rw [addLines, add_above, refused]
    rfl
  | case4 state line record rest after added ih =>
    rw [addLines, add_above, added]
    exact ih

/-! ## Headers in front -/

/-- Whether the line of an entry is a comment. -/
def isComment : Except Fault DebugRecord → Bool
  | .ok (.comment _) => true
  | _ => false

/-- The first record that is not a comment is a class header, if there is any. -/
def OpenWithHeader (entries : List (Line × Except Fault DebugRecord)) : Prop :=
  ∀ line record, entries.find? (fun entry => !isComment entry.2) = some (line, .ok record) →
    record.opens?.isSome

/-- The first record of a source that is not a comment is a class header, if there is any. -/
def OpensWithHeader (source : Bytes) : Prop := OpenWithHeader (debugRecords source)

theorem opensWithHeader_of_found {source : Bytes} {line : Line} {readable obfuscated : String}
    (found : (debugRecords source).find? (fun entry => !isComment entry.2) =
      some (line, .ok (.classHeader readable obfuscated))) : OpensWithHeader source := by
  intro other record again
  rw [found] at again
  cases again
  rfl

/-- A class that stands before a header does not matter behind it. -/
theorem DebugState.addLines_of_opensWithHeader {entries : List (Line × Except Fault DebugRecord)}
    (opens : OpenWithHeader entries) (tables : DebugTables) (owner : Option String) :
    (addLines ⟨tables, owner⟩ entries).map DebugState.tables =
      (addLines ⟨tables, none⟩ entries).map DebugState.tables := by
  induction entries with
  | nil => rfl
  | cons entry rest ih =>
    obtain ⟨line, result⟩ := entry
    cases result with
    | error fault => rfl
    | ok record =>
      cases record with
      | comment text => exact ih opens
      | classHeader readable obfuscated => rfl
      | field type name obfuscated => exact absurd (opens line _ rfl) nofun
      | method type name obfuscated arguments foreign => exact absurd (opens line _ rfl) nofun

/-- A source behind another one adds its own tables, or fails as it does on its own. -/
theorem debugTables_append {first second : Bytes} {tables : DebugTables}
    (read : debugTables first = .ok tables) (opens : OpensWithHeader second) :
    debugTables (first ++ 10 :: second) =
      ((debugTables second).map tables.union).mapError (Error.moved (first.count 10 + 1)) := by
  cases added : DebugState.addLines {} (debugRecords first) with
  | error error =>
    rw [debugTables, added] at read
    cases read
  | ok state =>
    rw [debugTables, added] at read
    obtain rfl : state.tables = tables := Except.ok.inj read
    have bottom : (⟨state.tables, none⟩ : DebugState) = ({} : DebugState).above state.tables := by
      rw [DebugState.above, DebugTables.union_empty]
    -- The class that the first source leaves behind is dropped, and its tables are put below.
    have rest := DebugState.addLines_of_opensWithHeader opens state.tables state.owner
    rw [bottom, DebugState.addLines_above] at rest
    rw [debugTables, debugRecords_append, DebugState.addLines_append, added, Except.bind,
      DebugState.addLines_moved, debugTables]
    generalize DebugState.addLines {} (debugRecords second) = behind at rest ⊢
    generalize state.addLines (debugRecords second) = whole at rest ⊢
    have moved := congrArg (Except.mapError (Error.moved (first.count 10 + 1))) rest
    cases whole <;> cases behind <;> exact moved

theorem opensWithHeader_append {first second : Bytes} (opensFirst : OpensWithHeader first)
    (opensSecond : OpensWithHeader second) : OpensWithHeader (first ++ 10 :: second) := by
  intro line record found
  rw [debugRecords_append, List.find?_append, Option.or_eq_some_iff] at found
  rcases found with found | ⟨-, found⟩
  · exact opensFirst line record found
  · rw [List.find?_map, Option.map_eq_some_iff] at found
    obtain ⟨⟨original, result⟩, found, moved⟩ := found
    cases moved
    exact opensSecond original record found

/-! ## Blocks -/

/-- A part of a debug mapping that starts with a class of its own. -/
structure Block where
  source : Bytes
  tables : DebugTables
  read : debugTables source = .ok tables
  opens : OpensWithHeader source

/-- The source that consists of some blocks, each with a line feed behind it. -/
def sourceOf (blocks : List Block) : Bytes := blocks.flatMap fun block => block.source ++ [10]

/-- The entries of all blocks, where those of later blocks count. -/
def unionOf (blocks : List Block) : DebugTables :=
  blocks.foldr (fun block rest => block.tables.union rest) {}

/-- No key has an entry in both of two tables. -/
structure DebugTables.Disjoint (left right : DebugTables) : Prop where
  classes : ∀ key, key ∈ left.classes → key ∉ right.classes
  fields : ∀ key, key ∈ left.fields → key ∉ right.fields
  methods : ∀ key, key ∈ left.methods → key ∉ right.methods

theorem DebugTables.Disjoint.symm {left right : DebugTables} (disjoint : left.Disjoint right) :
    right.Disjoint left where
  classes key isRight isLeft := disjoint.classes key isLeft isRight
  fields key isRight isLeft := disjoint.fields key isLeft isRight
  methods key isRight isLeft := disjoint.methods key isLeft isRight

theorem DebugTables.Disjoint.union_comm {left right : DebugTables}
    (disjoint : left.Disjoint right) : left.union right = right.union left := by
  have same {left right : Names} (disjoint : ∀ key, key ∈ left → key ∉ right) :
      left ∪ right = right ∪ left := by
    apply Std.ExtTreeMap.ext_getElem?
    intro key
    rw [Std.ExtTreeMap.getElem?_union, Std.ExtTreeMap.getElem?_union]
    by_cases isLeft : key ∈ left
    · rw [Std.ExtTreeMap.getElem?_eq_none (disjoint key isLeft), Option.none_or, Option.or_none]
    · rw [Std.ExtTreeMap.getElem?_eq_none isLeft, Option.none_or, Option.or_none]
  simp only [union, same disjoint.classes, same disjoint.fields, same disjoint.methods]

/-- The tables of a source that consists of blocks. -/
theorem debugTables_sourceOf (blocks : List Block) :
    debugTables (sourceOf blocks) = .ok (unionOf blocks) ∧ OpensWithHeader (sourceOf blocks) := by
  induction blocks with
  | nil => exact ⟨rfl, nofun⟩
  | cons block rest ih =>
    obtain ⟨read, opens⟩ := ih
    have source_eq : sourceOf (block :: rest) = block.source ++ 10 :: sourceOf rest := by
      simp [sourceOf]
    rw [source_eq]
    refine ⟨?_, opensWithHeader_append block.opens opens⟩
    rw [debugTables_append block.read opens, read]
    rfl

theorem unionOf_append (front back : List Block) :
    unionOf (front ++ back) = (unionOf front).union (unionOf back) := by
  induction front with
  | nil =>
    have same (names : Names) : (∅ : Names) ∪ names = names := by
      apply Std.ExtTreeMap.ext_getElem?
      simp [Std.ExtTreeMap.getElem?_union]
    simp [unionOf, DebugTables.union, same]
  | cons block front ih =>
    have step (rest : List Block) :
        unionOf (block :: rest) = block.tables.union (unionOf rest) := rfl
    rw [List.cons_append, step, step, ih, DebugTables.union_assoc]

theorem unionOf_perm {blocks order : List Block} (perm : blocks.Perm order)
    (distinct : blocks.Pairwise fun block other => block.tables.Disjoint other.tables) :
    unionOf blocks = unionOf order := by
  have commute (block other : Block) (isBlock : block ∈ blocks) (isOther : other ∈ blocks) :
      block.tables.union other.tables = other.tables.union block.tables := by
    by_cases same : block = other
    · rw [same]
    · have symmetric : Std.Symm fun block other : Block => block.tables.Disjoint other.tables :=
        ⟨fun _ _ disjoint => disjoint.symm⟩
      exact (distinct.forall isBlock isOther same).union_comm
  apply perm.foldr_eq'
  intro block isBlock other isOther rest
  rw [← DebugTables.union_assoc, ← DebugTables.union_assoc, commute other block isOther isBlock]

/-! ## Joined mappings -/

/-- **Debug mappings can be joined.** A source that opens with a class header adds its tables to
those of the source before it, and its entries count where both have one; if it fails, it fails
behind the other source with the same fault and the same bytes, at a line that is counted on. So
parts without common keys can be put in any other order and be spread over two files: the tables of
the files make up the same union. -/
theorem debugTables_joined :
    (∀ (first second : Bytes) (tables : DebugTables), debugTables first = .ok tables →
      OpensWithHeader second →
        (∀ others, debugTables second = .ok others →
          debugTables (first ++ 10 :: second) = .ok (tables.union others)) ∧
        ∀ error, debugTables second = .error error →
          debugTables (first ++ 10 :: second) =
            .error ⟨⟨error.line.number + 1 + first.count 10, error.line.bytes⟩, error.fault⟩) ∧
      ∀ blocks front back : List Block, blocks.Perm (front ++ back) →
        blocks.Pairwise (fun block other => block.tables.Disjoint other.tables) →
        ∃ frontTables backTables, debugTables (sourceOf front) = .ok frontTables ∧
          debugTables (sourceOf back) = .ok backTables ∧
          debugTables (sourceOf (front ++ back)) = .ok (frontTables.union backTables) ∧
          debugTables (sourceOf blocks) = .ok (frontTables.union backTables) := by
  constructor
  · intro first second tables read opens
    have joined := debugTables_append read opens
    constructor
    · intro others readOthers
      rw [joined, readOthers]
      rfl
    · intro error refused
      have counted : error.line.number + 1 + first.count 10 =
          error.line.number + (first.count 10 + 1) := by omega
      rw [joined, refused, counted]
      rfl
  · intro blocks front back perm distinct
    have union := unionOf_append front back
    refine ⟨unionOf front, unionOf back, (debugTables_sourceOf front).1,
      (debugTables_sourceOf back).1, ?_, ?_⟩
    · rw [(debugTables_sourceOf _).1, union]
    · rw [(debugTables_sourceOf _).1, unionOf_perm perm distinct, union]

/-- A class with a field. -/
def blockOfA : Block where
  source := Utf8.encode "A -> a:\r\n    int x -> b\r"
  tables :=
    { classes := (∅ : Names).insert "A" "a", fields := (∅ : Names).insert "A.x.I" "b" }
  read := rfl
  opens := opensWithHeader_of_found rfl

/-- A class behind a comment and a blank line. -/
def blockOfB : Block where
  source := Utf8.encode "# c\n\nB -> b:\n"
  tables := { classes := (∅ : Names).insert "B" "b" }
  read := rfl
  opens := opensWithHeader_of_found rfl

theorem debugTables_joined_of_two_classes :
    debugTables (blockOfA.source ++ 10 :: Utf8.encode "# c\n\nB -> b:\n    bad") =
        .error ⟨⟨6, Utf8.encode "    bad"⟩, .malformed .debug⟩ ∧
      debugTables (sourceOf [blockOfB, blockOfA]) = debugTables (sourceOf [blockOfA, blockOfB]) := by
  have refused : debugTables (Utf8.encode "# c\n\nB -> b:\n    bad") =
      .error ⟨⟨4, Utf8.encode "    bad"⟩, .malformed .debug⟩ := by rfl
  have opens : OpensWithHeader (Utf8.encode "# c\n\nB -> b:\n    bad") :=
    opensWithHeader_of_found rfl
  have disjoint : blockOfB.tables.Disjoint blockOfA.tables := by
    constructor <;> simp [blockOfA, blockOfB]
  have swapped := debugTables_joined.2 [blockOfB, blockOfA] [blockOfA] [blockOfB]
    (.swap blockOfA blockOfB []) (.cons (by simpa using disjoint) (List.pairwise_singleton _ _))
  obtain ⟨_, _, -, -, joined, swapped⟩ := swapped
  refine ⟨?_, swapped.trans joined.symm⟩
  exact (debugTables_joined.1 _ _ blockOfA.tables blockOfA.read opens).2 _ refused

end Relabel.Mapping
