import Mathlib
import Relabel.Proofs.Mapping.Lines
import Relabel.Proofs.Mapping.Records

/-!
# The first fault of a debug mapping

A line of a debug mapping is at fault if it is no record, or if it is a member and no earlier line
is a class header. A mapping without faults gives tables, and any other one its first fault. Lines
with constructors and static initialisers are the exception: they are skipped before it is asked for
their class, so that they are no faults in front of all headers either.
-/

namespace Relabel.Mapping

/-! ## Faults of lines -/

/-- Whether a record is that of a field or a method. -/
def DebugRecord.isMember : DebugRecord → Bool
  | .field .. | .method .. => true
  | .comment _ | .classHeader .. => false

/-- Whether a record is that of a constructor or a static initialiser. -/
def DebugRecord.isInitializer : DebugRecord → Bool
  | .method _ name _ _ _ => name = "<init>" || name = "<clinit>"
  | _ => false

/-- Whether a record is a fault if there is no class for it. -/
def DebugRecord.needsClass (record : DebugRecord) : Bool := record.isMember && !record.isInitializer

/-- No line before this one is a class header. -/
def IsBeforeHeaders (source : Bytes) (line : Line) : Prop :=
  ∀ earlier record, IsLineOf source earlier → earlier.number < line.number →
    DebugRecord.parse earlier.bytes = .ok record → record.opens? = none

/-- What is wrong with a line, where members are the records that `isMember` says. -/
inductive IsFault (isMember : DebugRecord → Bool) (source : Bytes) (line : Line) : Fault → Prop
  | unread {fault : Fault} (unread : DebugRecord.parse line.bytes = .error fault) :
      IsFault isMember source line fault
  | missingClass {record : DebugRecord} (read : DebugRecord.parse line.bytes = .ok record)
      (member : isMember record = true) (ownerless : IsBeforeHeaders source line) :
      IsFault isMember source line .missingClass

/-- A line of a source is at fault, and no line before it is. -/
structure IsFirstFault (isMember : DebugRecord → Bool) (source : Bytes) (error : Error) :
    Prop where
  isLine : IsLineOf source error.line
  isFault : IsFault isMember source error.line error.fault
  isFirst : ∀ line fault, IsLineOf source line → line.number < error.line.number →
    ¬ IsFault isMember source line fault

/-- No line of a source is at fault. -/
def IsFaultless (isMember : DebugRecord → Bool) (source : Bytes) : Prop :=
  ∀ line fault, IsLineOf source line → ¬ IsFault isMember source line fault

section

variable {isMember : DebugRecord → Bool} {source : Bytes}

theorem IsFault.unique {line : Line} {fault other : Fault}
    (first : IsFault isMember source line fault) (second : IsFault isMember source line other) :
    fault = other := by
  cases first with
  | unread unread =>
    cases second with
    | unread again => exact Except.error.inj (unread.symm.trans again)
    | missingClass read => cases unread.symm.trans read
  | missingClass read =>
    cases second with
    | unread unread => cases unread.symm.trans read
    | missingClass => rfl

theorem IsFirstFault.unique {error other : Error} (first : IsFirstFault isMember source error)
    (second : IsFirstFault isMember source other) : error = other := by
  have sameLine : error.line = other.line := by
    apply first.isLine.eq_of_number second.isLine
    rcases Nat.lt_trichotomy error.line.number other.line.number with less | same | greater
    · exact absurd first.isFault (second.isFirst _ _ first.isLine less)
    · exact same
    · exact absurd second.isFault (first.isFirst _ _ second.isLine greater)
  obtain ⟨line, fault⟩ := error
  obtain ⟨_, otherFault⟩ := other
  cases sameLine
  have sameFault : fault = otherFault := first.isFault.unique second.isFault
  rw [sameFault]

end

/-! ## States -/

/-- A record is refused just when it needs a class and there is none. -/
theorem DebugState.add_eq_error_iff {state : DebugState} {record : DebugRecord} {fault : Fault} :
    state.add record = .error fault ↔
      fault = .missingClass ∧ record.needsClass = true ∧ state.owner = none := by
  obtain ⟨tables, owner⟩ := state
  cases record with
  | comment text => simp [add, DebugRecord.needsClass, DebugRecord.isMember]
  | classHeader readable obfuscated => simp [add, DebugRecord.needsClass, DebugRecord.isMember]
  | field type name obfuscated =>
    have needs : (DebugRecord.field type name obfuscated).needsClass = true := rfl
    cases owner <;> simp [add, needs, eq_comm]
  | method type name obfuscated arguments foreign =>
    by_cases isInitializer : name = "<init>" ∨ name = "<clinit>"
    · have free : (DebugRecord.method type name obfuscated arguments foreign).needsClass = false := by
        simpa [DebugRecord.needsClass, DebugRecord.isMember, DebugRecord.isInitializer,
          or_iff_not_imp_left] using isInitializer
      simp [add, isInitializer, free]
    · have needs : (DebugRecord.method type name obfuscated arguments foreign).needsClass = true := by
        simpa [DebugRecord.needsClass, DebugRecord.isMember, DebugRecord.isInitializer] using
          isInitializer
      simp only [add, if_neg isInitializer, needs]
      cases owner <;> cases foreign <;> simp [eq_comm]

/-- There is no class as long as there has been no header. -/
theorem DebugState.owner_eq_none_iff {state after : DebugState} {record : DebugRecord}
    (added : state.add record = .ok after) :
    after.owner = none ↔ state.owner = none ∧ record.opens? = none := by
  obtain ⟨tables, owner⟩ := state
  cases record with
  | comment text =>
    cases added
    simp [DebugRecord.opens?]
  | classHeader readable obfuscated =>
    cases added
    simp [DebugRecord.opens?]
  | field type name obfuscated =>
    cases owner <;> cases added
    simp
  | method type name obfuscated arguments foreign =>
    simp only [add] at added
    split at added
    · cases added
      simp [DebugRecord.opens?]
    · cases owner <;> cases foreign <;> cases added <;> simp

/-- Lines are added one part after the other. -/
theorem DebugState.addLines_append (state : DebugState)
    (front back : List (Line × Except Fault DebugRecord)) :
    state.addLines (front ++ back) = (state.addLines front).bind fun middle =>
      middle.addLines back := by
  fun_induction addLines state front with
  | case1 => rfl
  | case2 => rfl
  | case3 state line record rest fault refused => simp [addLines, refused, Except.bind]
  | case4 state line record rest middle added ih => simp [addLines, added, ih]

/-- There is no class behind lines without headers. -/
theorem DebugState.addLines_owner_eq_none_iff {state after : DebugState}
    {front : List (Line × Except Fault DebugRecord)} (added : state.addLines front = .ok after) :
    after.owner = none ↔
      state.owner = none ∧ ∀ line record, (line, .ok record) ∈ front → record.opens? = none := by
  fun_induction addLines state front with
  | case1 state =>
    cases added
    simp
  | case2 => cases added
  | case3 => cases added
  | case4 state line record rest middle step ih =>
    rw [ih added, owner_eq_none_iff step, and_assoc]
    simp [or_imp, forall_and]

/-- Lines that are refused have been added up to the one that is at fault. -/
theorem DebugState.exists_of_addLines_eq_error {state : DebugState} {error : Error}
    {entries : List (Line × Except Fault DebugRecord)}
    (refused : state.addLines entries = .error error) :
    ∃ front result back middle, entries = front ++ (error.line, result) :: back ∧
      state.addLines front = .ok middle ∧
      middle.addLines [(error.line, result)] = .error error := by
  fun_induction addLines state entries with
  | case1 => cases refused
  | case2 state line fault rest =>
    cases refused
    exact ⟨[], .error fault, rest, state, rfl, rfl, rfl⟩
  | case3 state line record rest fault step =>
    cases refused
    exact ⟨[], .ok record, rest, state, rfl, rfl, by simp [addLines, step]⟩
  | case4 state line record rest after step ih =>
    obtain ⟨front, result, back, middle, rfl, added, here⟩ := ih refused
    exact ⟨(line, .ok record) :: front, result, back, middle, rfl, by simp [addLines, step, added],
      here⟩

/-! ## Faults of sources -/

/-- A line with its record. -/
def readLine (line : Line) : Line × Except Fault DebugRecord :=
  (line, DebugRecord.parse line.bytes)

section

variable {source : Bytes} {front back : List Line} {line : Line} {middle : DebugState}

/-- Behind the lines before it, a line has no class if it stands before all headers. -/
theorem owner_eq_none_iff_isBeforeHeaders (split : lines source = front ++ line :: back)
    (added : DebugState.addLines {} (front.map readLine) = .ok middle) :
    middle.owner = none ↔ IsBeforeHeaders source line := by
  rw [DebugState.addLines_owner_eq_none_iff added]
  constructor
  · rintro ⟨-, noHeader⟩ earlier record isLine less read
    have isBefore := (mem_before_iff split).2 ⟨isLine, less⟩
    exact noHeader earlier record (read ▸ List.mem_map_of_mem isBefore)
  · refine fun ownerless => ⟨rfl, fun earlier record isEntry => ?_⟩
    obtain ⟨other, isBefore, same⟩ := List.mem_map.1 isEntry
    obtain ⟨rfl, read⟩ := Prod.mk.inj same
    obtain ⟨isLine, less⟩ := (mem_before_iff split).1 isBefore
    exact ownerless other record isLine less read

/-- A line is at fault just when it is refused behind the lines before it. -/
theorem isFault_iff_refused (split : lines source = front ++ line :: back)
    (added : DebugState.addLines {} (front.map readLine) = .ok middle) {fault : Fault} :
    IsFault DebugRecord.needsClass source line fault ↔
      middle.addLines [readLine line] = .error ⟨line, fault⟩ := by
  have ownerless := owner_eq_none_iff_isBeforeHeaders split added
  cases read : DebugRecord.parse line.bytes with
  | error found =>
    have refused : middle.addLines [readLine line] = .error ⟨line, found⟩ := by
      simp [readLine, read, DebugState.addLines]
    constructor
    · intro isFault
      rw [refused, isFault.unique (.unread read)]
    · intro again
      cases refused.symm.trans again
      exact .unread read
  | ok record =>
    have refused : middle.addLines [readLine line] = .error ⟨line, fault⟩ ↔
        middle.add record = .error fault := by
      simp only [readLine, read, DebugState.addLines]
      cases middle.add record <;> simp
    rw [refused, DebugState.add_eq_error_iff, ownerless]
    constructor
    · rintro (unread | ⟨again, needs, ownerless⟩)
      · rw [read] at unread
        cases unread
      · cases read.symm.trans again
        exact ⟨rfl, needs, ownerless⟩
    · rintro ⟨rfl, needs, ownerless⟩
      exact .missingClass read needs ownerless

/-- Lines that have been added are without faults. -/
theorem not_isFault_of_added {state : DebugState} (split : lines source = front ++ back)
    (added : DebugState.addLines {} (front.map readLine) = .ok state) (isLine : line ∈ front)
    (fault : Fault) : ¬ IsFault DebugRecord.needsClass source line fault := by
  obtain ⟨before, after, rfl⟩ := List.append_of_mem isLine
  rw [List.append_assoc, List.cons_append] at split
  rw [List.map_append, List.map_cons, ← List.singleton_append, DebugState.addLines_append] at added
  cases reached : DebugState.addLines {} (before.map readLine) with
  | error error =>
    rw [reached] at added
    cases added
  | ok middle =>
    rw [isFault_iff_refused split reached]
    intro refused
    rw [reached, Except.bind, DebugState.addLines_append, refused] at added
    cases added

end

theorem debugTables_eq (source : Bytes) :
    debugTables source =
      (DebugState.addLines {} ((lines source).map readLine)).map DebugState.tables := rfl

theorem isFaultless_of_debugTables {source : Bytes} {tables : DebugTables}
    (read : debugTables source = .ok tables) : IsFaultless DebugRecord.needsClass source := by
  intro line fault isLine
  rw [debugTables_eq] at read
  cases added : DebugState.addLines {} ((lines source).map readLine) with
  | error error =>
    rw [added] at read
    cases read
  | ok state =>
    exact not_isFault_of_added (List.append_nil _).symm added (mem_lines_iff.2 isLine) fault

theorem isFirstFault_of_debugTables {source : Bytes} {error : Error}
    (refused : debugTables source = .error error) :
    IsFirstFault DebugRecord.needsClass source error := by
  rw [debugTables_eq] at refused
  cases added : DebugState.addLines {} ((lines source).map readLine) with
  | ok state =>
    rw [added] at refused
    cases refused
  | error found =>
    rw [added] at refused
    obtain rfl : found = error := Except.error.inj refused
    obtain ⟨before, result, after, middle, same, reached, here⟩ :=
      DebugState.exists_of_addLines_eq_error added
    obtain ⟨front, others, split, rfl, rest⟩ := List.map_eq_append_iff.1 same
    obtain ⟨line, back, rfl, isEntry, rfl⟩ := List.map_eq_cons_iff.1 rest
    obtain ⟨isLine, rfl⟩ := Prod.mk.inj isEntry
    subst isLine
    constructor
    · exact mem_lines_iff.1 (split ▸ List.mem_append_right _ List.mem_cons_self)
    · exact (isFault_iff_refused split reached).2 here
    · intro line fault isLine less
      exact not_isFault_of_added split reached ((mem_before_iff split).2 ⟨isLine, less⟩) fault

/-! ## Reports -/

/-- What is said of a source is its first fault, where members are the records that `isMember`
says, and there are tables if it has none. -/
def ReportsFaults (isMember : DebugRecord → Bool) (source : Bytes) : Prop :=
  ((∃ tables, debugTables source = .ok tables) ↔ IsFaultless isMember source) ∧
    ∀ error, debugTables source = .error error ↔ IsFirstFault isMember source error

theorem reportsFaults_needsClass (source : Bytes) :
    ReportsFaults DebugRecord.needsClass source := by
  cases read : debugTables source with
  | ok tables =>
    have faultless := isFaultless_of_debugTables read
    constructor
    · simp [read, faultless]
    · intro error
      constructor
      · intro refused
        rw [read] at refused
        cases refused
      · exact fun first => absurd first.isFault (faultless _ _ first.isLine)
  | error found =>
    have first := isFirstFault_of_debugTables read
    constructor
    · constructor
      · rintro ⟨tables, other⟩
        rw [read] at other
        cases other
      · exact fun faultless => absurd first.isFault (faultless _ _ first.isLine)
    · intro error
      rw [read]
      constructor
      · rintro ⟨⟩
        exact first
      · exact fun other => congrArg _ (first.unique other)

/-- The line of a constructor or a static initialiser. -/
def IsInitializerLine (line : Line) : Prop :=
  ∃ record, DebugRecord.parse line.bytes = .ok record ∧ record.isInitializer = true

section

variable {source : Bytes}

/-- The faults that are looked for are the others than those of initialisers. -/
theorem isFault_needsClass_iff {line : Line} {fault : Fault} :
    IsFault DebugRecord.needsClass source line fault ↔
      IsFault DebugRecord.isMember source line fault ∧ ¬ IsInitializerLine line := by
  constructor
  · rintro (unread | ⟨read, needs, ownerless⟩)
    · refine ⟨.unread unread, ?_⟩
      rintro ⟨record, read, -⟩
      cases unread.symm.trans read
    · rw [DebugRecord.needsClass, Bool.and_eq_true, Bool.not_eq_true'] at needs
      refine ⟨.missingClass read needs.1 ownerless, ?_⟩
      rintro ⟨record, again, isInitializer⟩
      cases read.symm.trans again
      cases needs.2.symm.trans isInitializer
  · rintro ⟨unread | ⟨read, member, ownerless⟩, notInitializer⟩
    · exact .unread unread
    · refine .missingClass read ?_ ownerless
      rw [DebugRecord.needsClass, Bool.and_eq_true, Bool.not_eq_true', member]
      exact ⟨rfl, Bool.eq_false_iff.2 fun isInitializer =>
        notInitializer ⟨_, read, isInitializer⟩⟩

/-- A source with a fault has a first one. -/
theorem exists_isFirstFault {isMember : DebugRecord → Bool} {line : Line} {fault : Fault}
    (isLine : IsLineOf source line) (isFault : IsFault isMember source line fault) :
    ∃ error, IsFirstFault isMember source error := by
  -- The induction is on the number of the line: a fault before it has a smaller one.
  induction number : line.number using Nat.strong_induction_on generalizing line fault with
  | h _ ih =>
    by_cases isFirst : ∀ other found, IsLineOf source other → other.number < line.number →
        ¬ IsFault isMember source other found
    · exact ⟨⟨line, fault⟩, isLine, isFault, isFirst⟩
    · push Not at isFirst
      obtain ⟨other, found, isOther, less, isFault⟩ := isFirst
      exact ih other.number (number ▸ less) isOther isFault rfl

theorem IsFirstFault.needsClass {error : Error}
    (first : IsFirstFault DebugRecord.isMember source error)
    (notInitializer : ¬ IsInitializerLine error.line) :
    IsFirstFault DebugRecord.needsClass source error where
  isLine := first.isLine
  isFault := isFault_needsClass_iff.2 ⟨first.isFault, notInitializer⟩
  isFirst line fault isLine less isFault :=
    first.isFirst line fault isLine less (isFault_needsClass_iff.1 isFault).1

end

/-- **The first fault is reported.** A debug mapping gives tables just when every line that is not
blank is a record and no field or method comes before the first class header, and otherwise the
fault of the first line for which this fails, with the number and the bytes of this line. Only
constructors and static initialisers are no faults: all members count just when the first fault
would not be one of theirs. -/
theorem debugTables_reports (source : Bytes) :
    ReportsFaults DebugRecord.needsClass source ∧
      (ReportsFaults DebugRecord.isMember source ↔
        ∀ error, IsFirstFault DebugRecord.isMember source error →
          ¬ IsInitializerLine error.line) := by
  obtain ⟨tables, errors⟩ := reportsFaults_needsClass source
  refine ⟨⟨tables, errors⟩, ?_, fun noInitializer => ⟨?_, fun error => ?_⟩⟩
  · intro reports error first
    have isFirst := (errors error).1 ((reports.2 error).2 first)
    exact (isFault_needsClass_iff.1 isFirst.isFault).2
  · rw [tables]
    constructor
    · intro faultless line fault isLine isFault
      obtain ⟨error, first⟩ := exists_isFirstFault isLine isFault
      exact faultless _ _ first.isLine (first.needsClass (noInitializer error first)).isFault
    · exact fun faultless line fault isLine isFault =>
        faultless line fault isLine (isFault_needsClass_iff.1 isFault).1
  · rw [errors]
    constructor
    · intro first
      obtain ⟨other, otherFirst⟩ := exists_isFirstFault first.isLine
        (isFault_needsClass_iff.1 first.isFault).1
      rwa [first.unique (otherFirst.needsClass (noInitializer other otherFirst))]
    · exact fun first => first.needsClass (noInitializer error first)

example : debugTables (Utf8.encode "# one\r\n \r\n    int x -> y\r\r\nA -> b:\n") =
    .error ⟨⟨3, Utf8.encode "    int x -> y\r"⟩, .missingClass⟩ := by
  rfl

/-- A constructor without a class is skipped. -/
theorem initializer_before_headers_skipped :
    let source := Utf8.encode "    void <init>() -> <init>\n"
    let line : Line := ⟨1, Utf8.encode "    void <init>() -> <init>"⟩
    (∃ tables, debugTables source = .ok tables) ∧
      IsFirstFault DebugRecord.isMember source ⟨line, .missingClass⟩ ∧
      ¬ ReportsFaults DebugRecord.isMember source := by
  intro source line
  have read : ∃ tables, debugTables source = .ok tables := ⟨_, rfl⟩
  have only : lines source = [line] := by decide +kernel
  have noneBefore {earlier : Line} (isLine : IsLineOf source earlier) :
      ¬ earlier.number < line.number := by
    rw [← mem_lines_iff, only, List.mem_singleton] at isLine
    rw [isLine]
    exact lt_irrefl _
  have isMethod : DebugRecord.parse line.bytes =
      .ok (.method "void" "<init>" "<init>" "" none) := by decide +kernel
  have first : IsFirstFault DebugRecord.isMember source ⟨line, .missingClass⟩ :=
    { isLine := mem_lines_iff.1 (only ▸ List.mem_singleton_self line)
      isFault := .missingClass isMethod rfl fun _ _ isLine less _ => absurd less (noneBefore isLine)
      isFirst := fun _ _ isLine less => absurd less (noneBefore isLine) }
  refine ⟨read, first, fun reports => ?_⟩
  obtain ⟨tables, read⟩ := read
  cases read.symm.trans ((reports.2 _).2 first)

end Relabel.Mapping
