import Mathlib
import Relabel.Lookup.Process
import Relabel.Proofs.Descriptors
import Relabel.Proofs.Lookup.Finding
import Relabel.Proofs.Mapping.Records

/-!
# Looking up the keys of a mapping

The keys that the records of a mapping make are the keys that an instruction in the advanced mode
spells. The instruction ends where the key does, since the parentheses of a method key are balanced,
and its class and member name are cut off where the key has joined them. A member name may hold a
closing parenthesis, though, which ends the instruction too early.
-/

namespace Relabel.Lookup

open Mapping Descriptor

/-! ## Instructions by themselves -/

/-- Whether a text has no parentheses. -/
def HasNoParentheses (text : List Char) : Prop := '(' ∉ text ∧ ')' ∉ text

theorem find_eq_none {text : List Char} (noParenthesis : '(' ∉ text) : find text = none := by
  cases found : find text with
  | none => rfl
  | some result =>
    obtain ⟨front, kind, slashes, rest, rfl, -, -⟩ := findFrom_eq_some found
    refine absurd ?_ noParenthesis
    simp [parenthesis_mem_opening]

/-- Text without parentheses neither opens nor closes anything. -/
theorem closeFrom_append {front : List Char} (plain : HasNoParentheses front) (read : List Char)
    (depth : Nat) (rest : List Char) :
    closeFrom read depth (front ++ rest) = closeFrom (front.reverse ++ read) depth rest := by
  obtain ⟨noOpening, noClosing⟩ := plain
  induction front generalizing read with
  | nil => rfl
  | cons c front ih =>
    rw [List.mem_cons, not_or] at noOpening noClosing
    rw [List.cons_append, closeFrom.eq_def]
    simp only
    rw [if_neg (Ne.symm noOpening.1), if_neg (Ne.symm noClosing.1), ih _ noOpening.2 noClosing.2]
    simp

theorem findFrom_opening (seen : List Char) (kind : Kind) (slashes : Bool) (rest : List Char) :
    findFrom seen (opening kind slashes ++ rest) = some (atOpener seen kind slashes rest) := by
  have opens : opener? (opening kind slashes ++ rest) = some (kind, slashes, rest) :=
    opener?_eq_some_iff.2 rfl
  rw [opening] at opens ⊢
  rw [List.cons_append] at opens ⊢
  rw [findFrom, opens]

/-- An instruction by itself is found as a whole if its own parenthesis is the first to close. -/
theorem find_spell {i : Instruction}
    (closes : closeFrom [] 0 (i.body ++ [')']) = some (i.body, [])) :
    find i.spell = some (.ok ⟨[], i, []⟩) := by
  obtain ⟨mode, kind, slashes, body⟩ := i
  rw [Instruction.spell_eq, find]
  cases mode with
  | simple =>
    rw [Mode.mark, List.nil_append, findFrom_opening]
    simp [atOpener, closes]
  | advanced =>
    -- The mark in front of the opening parenthesis is passed over.
    have notOpener (text : List Char) : opener? ('A' :: text) = none := rfl
    rw [Mode.mark, List.singleton_append, findFrom, notOpener]
    simp only
    rw [findFrom_opening]
    simp [atOpener, closes]

/-- An instruction by itself becomes what it resolves to, unless that opens another one. -/
theorem process_spell {reserve : Nat} {table : SymbolTable} {goal : Goal} {text name : String}
    {i : Instruction} (spells : text.toList = i.spell)
    (closes : closeFrom [] 0 (i.body ++ [')']) = some (i.body, []))
    (resolved : i.resolve table goal = .ok name.toList) (noParenthesis : '(' ∉ name.toList) :
    process reserve table goal text = .ok (some name) := by
  have found := find_spell closes
  have first : step table goal i.spell = some (.ok name.toList) := by
    simp [step, found, resolved, Except.map]
  have second : step table goal name.toList = none := by
    rw [step, find_eq_none noParenthesis]
    rfl
  have settled (budget : Nat) : settle table goal (budget + 1) i.spell = .ok name.toList := by
    rw [settle, first]
    simp only
    rw [settle, second]
  -- The parenthesis of the opener pays for one replacement. Behind it nothing is found.
  obtain ⟨budget, enough⟩ : ∃ budget, i.spell.count '(' + reserve = budget + 1 := by
    have opens : '(' ∈ i.spell := by
      rw [Instruction.spell_eq]
      exact List.mem_append_right _ (List.mem_append_left _ (parenthesis_mem_opening _ _))
    have counted := List.count_pos_iff.2 opens
    exact Nat.exists_eq_add_one_of_ne_zero (by omega)
  rw [process, processChars, spells, found, enough, settled]
  simp [Except.map]

/-- An instruction by itself fails as its resolution does. -/
theorem process_spell_error {reserve : Nat} {table : SymbolTable} {goal : Goal} {text : String}
    {error : Error} {i : Instruction} (spells : text.toList = i.spell)
    (closes : closeFrom [] 0 (i.body ++ [')']) = some (i.body, []))
    (failed : i.resolve table goal = .error error) :
    process reserve table goal text = .error error := by
  have found := find_spell closes
  have first : step table goal i.spell = some (.error error) := by
    simp [step, found, failed, Except.map]
  rw [process, processChars, spells, found, settle, first]
  rfl

/-! ## Keys -/

theorem HasNoParentheses.append {front back : List Char} (first : HasNoParentheses front)
    (second : HasNoParentheses back) : HasNoParentheses (front ++ back) :=
  ⟨by simp [first.1, second.1], by simp [first.2, second.2]⟩

theorem HasNoParentheses.cons {c : Char} {text : List Char} (notOpening : '(' ≠ c)
    (notClosing : ')' ≠ c) (plain : HasNoParentheses text) : HasNoParentheses (c :: text) :=
  ⟨by simp [notOpening, plain.1], by simp [notClosing, plain.2]⟩

/-- What is made of a text and the symbols of descriptors has no parentheses either. -/
theorem HasNoParentheses.of_mem {text made : List Char} (plain : HasNoParentheses text)
    (members : ∀ c ∈ made, c ∈ text ∨ c ∈ symbols) : HasNoParentheses made := by
  have absent {parenthesis : Char} (notInText : parenthesis ∉ text)
      (noSymbol : parenthesis ∉ symbols) : parenthesis ∉ made := by
    intro member
    cases members parenthesis member with
    | inl inText => exact notInText inText
    | inr isSymbol => exact noSymbol isSymbol
  exact ⟨absent plain.1 (by decide), absent plain.2 (by decide)⟩

theorem HasNoParentheses.internalName {name : List Char} (plain : HasNoParentheses name) :
    HasNoParentheses (internalName name) := by
  apply plain.of_mem
  intro c member
  cases mem_internalName member with
  | inl inName => exact .inl inName
  | inr isSlash =>
    rw [isSlash]
    exact .inr (by decide)

theorem HasNoParentheses.ofType {type : List Char} (plain : HasNoParentheses type) :
    HasNoParentheses (ofType type) :=
  plain.of_mem fun _ member => mem_ofType member

theorem HasNoParentheses.ofArguments {arguments : List Char} (plain : HasNoParentheses arguments) :
    HasNoParentheses (ofArguments arguments) :=
  plain.of_mem fun _ member => mem_ofArguments member

/-- A text without parentheses is closed behind its end. -/
theorem closeFrom_plain {body : List Char} (plain : HasNoParentheses body) :
    closeFrom [] 0 (body ++ [')']) = some (body, []) := by
  rw [closeFrom_append plain]
  simp [closeFrom]

/-- The parentheses around parameters are not the end of a key. -/
theorem closeFrom_method {front parameters result : List Char} (plainFront : HasNoParentheses front)
    (plainParameters : HasNoParentheses parameters) (plainResult : HasNoParentheses result) :
    closeFrom [] 0 (front ++ '(' :: (parameters ++ ')' :: result) ++ [')']) =
      some (front ++ '(' :: (parameters ++ ')' :: result), []) := by
  have opened (read rest : List Char) :
      closeFrom read 0 ('(' :: rest) = closeFrom ('(' :: read) 1 rest := by simp [closeFrom]
  have closed (read rest : List Char) :
      closeFrom read 1 (')' :: rest) = closeFrom (')' :: read) 0 rest := by simp [closeFrom]
  simp only [List.append_assoc, List.cons_append]
  rw [closeFrom_append plainFront, opened, closeFrom_append plainParameters, closed,
    closeFrom_append plainResult]
  simp [closeFrom]

/-- The class and the name are cut off a key where they have been joined to it. -/
theorem splitAdvanced?_append {kind : Kind} {owner name : List Char} (noDot : '.' ∉ owner)
    (ownerNonempty : owner ≠ []) (nameNonempty : name ≠ []) (noEnd : kind.nameEnd ∉ name)
    (rest : List Char) :
    splitAdvanced? kind (owner ++ '.' :: (name ++ kind.nameEnd :: rest)) = some (owner, name) := by
  have taken : (name ++ kind.nameEnd :: rest).takeWhile (· ≠ kind.nameEnd) = name := by
    rw [List.takeWhile_append_of_pos (Text.differs_of_notMem noEnd)]
    simp
  rw [splitAdvanced?, Text.splitFirst?_append noDot]
  simp only [Option.bind_eq_bind, Option.bind_some, taken]
  simp [ownerNonempty, nameNonempty]

theorem resolve_developer {kind : Kind} {body owner name : List Char}
    (split : splitAdvanced? kind body = some (owner, name)) (isMember : kind ≠ .type)
    (table : SymbolTable) :
    Instruction.resolve table .developer ⟨.advanced, kind, true, body⟩ = .ok name := by
  cases kind with
  | type => exact absurd rfl isMember
  | method =>
    simp [Instruction.resolve, Instruction.readable, Instruction.member?, split, Except.map]
  | field =>
    simp [Instruction.resolve, Instruction.readable, Instruction.member?, split, Except.map]

/-! ## The names of a mapping -/

section

variable {reserve : Nat} {debug compact : Bytes} {table : SymbolTable}
  {owner type name obfuscated arguments : String}

/-- The key of a method leads to the name of the method in both schemes. -/
theorem process_methodKey (merged : SymbolTable.ofMappings debug compact = .ok table)
    (latest : IsLatest methodEntry? debug
      (some owner, .method type name obfuscated arguments none)
      (methodKey (internal owner) name arguments type) obfuscated)
    (plainOwner : HasNoParentheses owner.toList) (plainType : HasNoParentheses type.toList)
    (plainArguments : HasNoParentheses arguments.toList)
    (noOpening : '(' ∉ obfuscated.toList) (noClosing : ')' ∉ name.toList) :
    let text := "ASRM/(" ++ methodKey (internal owner) name arguments type ++ ")"
    process reserve table .production text = .ok (some obfuscated) ∧
      process reserve table .developer text = .ok (some name) := by
  obtain ⟨ownerNonempty, isNamed⟩ := isNamed_of_mem_ownedRecords latest.mem
  obtain ⟨nameNonempty, nameNoOpening⟩ := isNamed rfl
  have found := SymbolTable.method?_of_isLatest merged latest
  have keyEq := methodKey_toList (internal owner) name arguments type
  rw [internal_toList] at keyEq
  generalize methodKey (internal owner) name arguments type = key at found keyEq ⊢
  have spells : ("ASRM/(" ++ key ++ ")").toList =
      Instruction.spell ⟨.advanced, .method, true, key.toList⟩ := by
    simp [Instruction.spell, Kind.letter]
  have closes : closeFrom [] 0 (key.toList ++ [')']) = some (key.toList, []) := by
    have plainFront : HasNoParentheses (internalName owner.toList ++ '.' :: name.toList) :=
      plainOwner.internalName.append (.cons (by decide) (by decide) ⟨nameNoOpening, noClosing⟩)
    have closed := closeFrom_method plainFront plainArguments.ofArguments plainType.ofType
    simpa [keyEq] using closed
  have split : splitAdvanced? .method key.toList =
      some (internalName owner.toList, name.toList) := by
    rw [keyEq]
    exact splitAdvanced?_append (dot_notMem_internalName _)
      (internalName_ne_nil (by simpa using ownerNonempty)) (by simpa using nameNonempty)
      nameNoOpening _
  constructor
  · refine process_spell spells closes ?_ noOpening
    simp [Instruction.resolve, Instruction.lookup, Instruction.lookup.member,
      Instruction.lookup.found, Instruction.member?, split, found, Except.map]
  · exact process_spell spells closes (resolve_developer split (by decide) table) nameNoOpening

/-- The key of a field leads to the name of the field in both schemes. -/
theorem process_fieldKey (merged : SymbolTable.ofMappings debug compact = .ok table)
    (latest : IsLatest fieldEntry? debug (some owner, .field type name obfuscated)
      (fieldKey (internal owner) name type) obfuscated)
    (plainOwner : HasNoParentheses owner.toList) (plainType : HasNoParentheses type.toList)
    (noOpening : '(' ∉ obfuscated.toList) (noClosing : ')' ∉ name.toList)
    (noDot : '.' ∉ name.toList) :
    let text := "ASRF/(" ++ fieldKey (internal owner) name type ++ ")"
    process reserve table .production text = .ok (some obfuscated) ∧
      process reserve table .developer text = .ok (some name) := by
  obtain ⟨ownerNonempty, nameNonempty, nameNoOpening⟩ := isNamed_of_mem_ownedRecords latest.mem
  have found := SymbolTable.field?_of_isLatest merged latest
  have keyEq := fieldKey_toList (internal owner) name type
  rw [internal_toList] at keyEq
  generalize fieldKey (internal owner) name type = key at found keyEq ⊢
  have spells : ("ASRF/(" ++ key ++ ")").toList =
      Instruction.spell ⟨.advanced, .field, true, key.toList⟩ := by
    simp [Instruction.spell, Kind.letter]
  have closes : closeFrom [] 0 (key.toList ++ [')']) = some (key.toList, []) := by
    rw [keyEq]
    have plainBack : HasNoParentheses ('.' :: ofType type.toList) :=
      .cons (by decide) (by decide) plainType.ofType
    exact closeFrom_plain (plainOwner.internalName.append (.cons (by decide) (by decide)
      (.append ⟨nameNoOpening, noClosing⟩ plainBack)))
  have split : splitAdvanced? .field key.toList =
      some (internalName owner.toList, name.toList) := by
    rw [keyEq]
    exact splitAdvanced?_append (dot_notMem_internalName _)
      (internalName_ne_nil (by simpa using ownerNonempty)) (by simpa using nameNonempty)
      noDot _
  constructor
  · refine process_spell spells closes ?_ noOpening
    simp [Instruction.resolve, Instruction.lookup, Instruction.lookup.member,
      Instruction.lookup.found, Instruction.member?, split, found, Except.map]
  · exact process_spell spells closes (resolve_developer split (by decide) table) nameNoOpening

/-- The name in a class header leads to the name of the class in both schemes. -/
theorem process_className (merged : SymbolTable.ofMappings debug compact = .ok table)
    (header : (some owner, .classHeader owner obfuscated) ∈ ownedRecords debug)
    (plainOwner : HasNoParentheses owner.toList) :
    process reserve table .developer ("SRC/(" ++ owner ++ ")") = .ok (some (internal owner)) ∧
      ∃ mapped, table.class? (internal owner) = some mapped ∧
        ('(' ∉ mapped.toList →
          process reserve table .production ("SRC/(" ++ owner ++ ")") = .ok (some mapped)) := by
  have spells : ("SRC/(" ++ owner ++ ")").toList =
      Instruction.spell ⟨.simple, .type, true, owner.toList⟩ := by
    simp [Instruction.spell, Kind.letter]
  obtain ⟨mapped, found⟩ := SymbolTable.exists_class? merged header
  refine ⟨?_, mapped, found, fun noOpening => ?_⟩
  · refine process_spell spells (closeFrom_plain plainOwner) ?_ ?_
    · simp [Instruction.resolve, Instruction.readable, Instruction.className, internal, Except.map]
    · rw [internal_toList]
      exact plainOwner.internalName.1
  · refine process_spell spells (closeFrom_plain plainOwner) ?_ noOpening
    rw [internal] at found
    simp [Instruction.resolve, Instruction.lookup, Instruction.lookup.found,
      Instruction.className, found, Except.map]

end

/-- **Lookups agree with the mapping.** An instruction with the key of a method or a field, as its
record makes it, gives the obfuscated name in production and the readable one to developers, and one
with the name in a class header gives the merged name of the class and its readable one. Methods and
fields need names without a closing parenthesis. -/
theorem process_keys {reserve : Nat} {debug compact : Bytes} {table : SymbolTable}
    (merged : SymbolTable.ofMappings debug compact = .ok table) :
    (∀ owner type name obfuscated arguments,
      IsLatest methodEntry? debug (some owner, .method type name obfuscated arguments none)
        (methodKey (internal owner) name arguments type) obfuscated →
      HasNoParentheses owner.toList → HasNoParentheses type.toList →
      HasNoParentheses arguments.toList → HasNoParentheses obfuscated.toList →
      ')' ∉ name.toList →
        let text := "ASRM/(" ++ methodKey (internal owner) name arguments type ++ ")"
        process reserve table .production text = .ok (some obfuscated) ∧
          process reserve table .developer text = .ok (some name)) ∧
    (∀ owner type name obfuscated,
      IsLatest fieldEntry? debug (some owner, .field type name obfuscated)
        (fieldKey (internal owner) name type) obfuscated →
      HasNoParentheses owner.toList → HasNoParentheses type.toList →
      HasNoParentheses obfuscated.toList → ')' ∉ name.toList → '.' ∉ name.toList →
        let text := "ASRF/(" ++ fieldKey (internal owner) name type ++ ")"
        process reserve table .production text = .ok (some obfuscated) ∧
          process reserve table .developer text = .ok (some name)) ∧
    (∀ owner obfuscated, (some owner, .classHeader owner obfuscated) ∈ ownedRecords debug →
      HasNoParentheses owner.toList →
        let text := "SRC/(" ++ owner ++ ")"
        process reserve table .developer text = .ok (some (internal owner)) ∧
          ∃ mapped, table.class? (internal owner) = some mapped ∧
            ('(' ∉ mapped.toList → process reserve table .production text = .ok (some mapped)) ∧
            (IsLatest classEntry? debug (some owner, .classHeader owner obfuscated)
                (internal owner) (internal obfuscated) →
              ∃ classes, compactTable compact = .ok classes ∧
                mapped = classes.resolve (internal obfuscated))) := by
  refine ⟨?methods, ?fields, ?classes⟩
  case methods =>
    intro owner type name obfuscated arguments latest plainOwner plainType plainArguments
      plainObfuscated noClosing
    exact process_methodKey merged latest plainOwner plainType plainArguments plainObfuscated.1
      noClosing
  case fields =>
    intro owner type name obfuscated latest plainOwner plainType plainObfuscated noClosing noDot
    exact process_fieldKey merged latest plainOwner plainType plainObfuscated.1 noClosing noDot
  case classes =>
    intro owner obfuscated header plainOwner
    obtain ⟨developer, mapped, found, production⟩ := process_className merged header plainOwner
    refine ⟨developer, mapped, found, production, fun latest => ?_⟩
    obtain ⟨classes, isClasses, resolved⟩ := SymbolTable.class?_of_isLatest merged latest
    exact ⟨classes, isClasses, Option.some.inj (found.symm.trans resolved)⟩

/-- A class with a field and a method. -/
def smallMapping : Bytes := Utf8.encode "a.B -> x:\n    int f -> g\n    a.B[] h(int,a.B) -> k\n"

theorem process_keys_of_smallMapping :
    ∃ table, SymbolTable.ofMappings smallMapping (Utf8.encode "x c/D\n") = .ok table ∧
      process 0 table .production "ASRM/(a/B.h(ILa/B;)[La/B;)" = .ok (some "k") ∧
      process 0 table .developer "ASRF/(a/B.f.I)" = .ok (some "f") ∧
      process 0 table .production "SRC/(a.B)" = .ok (some "c/D") := by
  have isCompact : compactTable (Utf8.encode "x c/D\n") = .ok ((∅ : Names).insert "x" "c/D") := by
    decide +kernel
  have records : ownedRecords smallMapping = [(some "a.B", .classHeader "a.B" "x"),
      (some "a.B", .field "int" "f" "g"),
      (some "a.B", .method "a.B[]" "h" "k" "int,a.B" none)] := by
    decide +kernel
  have isClass : IsLatest classEntry? smallMapping (some "a.B", .classHeader "a.B" "x")
      (internal "a.B") (internal "x") := ⟨rfl, [], _, records, by decide +kernel⟩
  have isField : IsLatest fieldEntry? smallMapping (some "a.B", .field "int" "f" "g")
      (fieldKey (internal "a.B") "f" "int") "g" := ⟨rfl, [_], _, records, by decide +kernel⟩
  have isMethod : IsLatest methodEntry? smallMapping
      (some "a.B", .method "a.B[]" "h" "k" "int,a.B" none)
      (methodKey (internal "a.B") "h" "int,a.B" "a.B[]") "k" :=
    ⟨by decide +kernel, [_, _], _, records, by decide +kernel⟩
  have plain : HasNoParentheses "a.B".toList := ⟨by decide, by decide⟩
  obtain ⟨table, merged⟩ : ∃ table,
      SymbolTable.ofMappings smallMapping (Utf8.encode "x c/D\n") = .ok table := ⟨_, rfl⟩
  obtain ⟨methods, fields, classes⟩ := process_keys merged
  have method := methods "a.B" "a.B[]" "h" "k" "int,a.B" isMethod plain ⟨by decide, by decide⟩
    ⟨by decide, by decide⟩ ⟨by decide, by decide⟩ (by decide)
  have field := fields "a.B" "int" "f" "g" isField plain ⟨by decide, by decide⟩
    ⟨by decide, by decide⟩ (by decide) (by decide)
  obtain ⟨-, mapped, -, production, resolved⟩ := classes "a.B" "x" isClass.mem plain
  have isMapped : mapped = "c/D" := by
    obtain ⟨compact, read, same⟩ := resolved isClass
    rw [isCompact] at read
    cases read
    rw [same]
    decide +kernel
  subst isMapped
  exact ⟨table, merged, method.1, field.2, production (by decide)⟩

/-- A field whose name holds a closing parenthesis. -/
def closingMapping : Bytes := Utf8.encode "A -> x:\n    int a) -> b\n"

def closingTable : SymbolTable :=
  .ofNames ((∅ : Names).insert "A" "x") ((∅ : Names).insert "A.a).I" "b") ∅

/-- The parenthesis in the name closes the instruction before the key is complete. -/
theorem key_cut_at_parenthesis :
    SymbolTable.ofMappings closingMapping [] = .ok closingTable ∧
      IsLatest fieldEntry? closingMapping (some "A", .field "int" "a)" "b")
        (fieldKey (internal "A") "a)" "int") "b" ∧
      HasNoParentheses "A".toList ∧ HasNoParentheses "int".toList ∧ HasNoParentheses "b".toList ∧
      '.' ∉ "a)".toList ∧
      process 0 closingTable .production ("ASRF/(" ++ fieldKey (internal "A") "a)" "int" ++ ")") =
        .error (.unresolved .field "A.a") := by
  have records : ownedRecords closingMapping = [(some "A", .classHeader "A" "x"),
      (some "A", .field "int" "a)" "b")] := by
    decide +kernel
  refine ⟨by decide +kernel, ⟨rfl, [_], _, records, by decide +kernel⟩, ⟨by decide, by decide⟩,
    ⟨by decide, by decide⟩, ⟨by decide, by decide⟩, by decide, by decide +kernel⟩

end Relabel.Lookup
