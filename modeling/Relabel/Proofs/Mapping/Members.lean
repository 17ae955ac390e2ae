import Relabel.Proofs.Mapping.Records
import Relabel.Proofs.ReadableTypes

/-!
# Members and their keys

The tables of a mapping hold a member of a class under a key that joins the class, the name and the
descriptors of its types. All of these can be told from the key. It is cut where the name has been
joined to the signature, since no type has an opening parenthesis and no descriptor a dot. No dot is
left in a class either, and the descriptors of arguments have no closing parenthesis. So different
members have different keys, and none takes the place of another in the tables.
-/

namespace Relabel.Mapping

open Descriptor

/-! ## Members -/

/-- What tells a member of a class apart. A field has no arguments. -/
structure Member where
  owner : String
  name : String
  arguments : Option String
  type : String
  deriving DecidableEq, Repr

namespace Member

def isMethod (m : Member) : Bool := m.arguments.isSome

def key (m : Member) : String :=
  match m.arguments with
  | none => fieldKey (internal m.owner) m.name m.type
  | some arguments => methodKey (internal m.owner) m.name arguments m.type

/-- The member that a record is about, with its obfuscated name, if it has an entry in a table. -/
def ofRecord? : OwnedRecord → Option (Member × String)
  | (some owner, .field type name obfuscated) => some (⟨owner, name, none, type⟩, obfuscated)
  | (some owner, .method type name obfuscated arguments none) =>
    if name = "<init>" ∨ name = "<clinit>" then none
    else some (⟨owner, name, some arguments, type⟩, obfuscated)
  | _ => none

/-- The entry that a member makes. -/
def toEntry (member : Member × String) : String × String := (member.1.key, member.2)

theorem fieldEntry?_eq (record : OwnedRecord) :
    fieldEntry? record = ((ofRecord? record).filter (!·.1.isMethod)).map toEntry := by
  fun_cases ofRecord? record with
  | case1 => rfl
  | case2 | case3 => simp [isMethod, fieldEntry?]
  | case4 record notField =>
    unfold fieldEntry?
    split
    · exact absurd rfl (notField _ _ _ _)
    · rfl

theorem methodEntry?_eq (record : OwnedRecord) :
    methodEntry? record = ((ofRecord? record).filter (·.1.isMethod)).map toEntry := by
  fun_cases ofRecord? record with
  | case1 => rfl
  | case2 owner type name obfuscated arguments isInitializer => exact if_pos isInitializer
  | case3 owner type name obfuscated arguments notInitializer => exact if_neg notInitializer
  | case4 record _ notMethod =>
    unfold methodEntry?
    split
    · exact absurd rfl (notMethod _ _ _ _ _)
    · rfl

end Member

/-- The members in the records of a mapping, with their obfuscated names. -/
def members (source : Bytes) : List (Member × String) :=
  (ownedRecords source).filterMap Member.ofRecord?

/-- The table of methods or that of fields. -/
def DebugTables.ofKind (tables : DebugTables) (methods : Bool) : Names :=
  if methods then tables.methods else tables.fields

theorem ofKind_of_debugTables {source : Bytes} {tables : DebugTables}
    (read : debugTables source = .ok tables) (methods : Bool) :
    tables.ofKind methods =
      .ofEntries (((members source).filter (·.1.isMethod = methods)).map Member.toEntry) := by
  obtain ⟨-, areFields, areMethods⟩ := debugTables_eq_ok read
  rw [members, List.filter_filterMap, List.map_filterMap]
  cases methods with
  | false => simpa [DebugTables.ofKind, Member.fieldEntry?_eq] using areFields
  | true => simpa [DebugTables.ofKind, Member.methodEntry?_eq] using areMethods

/-- The obfuscated names that a mapping gives to the methods, or to the fields, with a key, in their
order. -/
def namesFor (source : Bytes) (methods : Bool) (key : String) : List String :=
  ((members source).filter fun one => one.1.isMethod = methods ∧ one.1.key = key).map Prod.snd

section

variable {source : Bytes} {tables : DebugTables} {methods : Bool} {key obfuscated : String}

/-- A table has the last name for a key. -/
theorem getElem?_ofKind (read : debugTables source = .ok tables) :
    (tables.ofKind methods)[key]? = (namesFor source methods key).getLast? := by
  rw [ofKind_of_debugTables read, Names.getElem?_ofEntries, List.filter_map, List.filter_filter,
    List.map_map, namesFor]
  congr 2
  apply List.filter_congr
  intro one inSource
  show (decide (one.1.key = key) && decide (one.1.isMethod = methods)) = _
  rw [Bool.and_comm, ← Bool.decide_and]

theorem exists_mem_of_getElem?_ofKind (read : debugTables source = .ok tables)
    (found : (tables.ofKind methods)[key]? = some obfuscated) :
    ∃ m, (m, obfuscated) ∈ members source ∧ m.isMethod = methods ∧ m.key = key := by
  rw [getElem?_ofKind read] at found
  simpa [namesFor] using List.mem_of_getLast? found

theorem exists_getElem?_ofKind (read : debugTables source = .ok tables) {m : Member}
    (member : (m, obfuscated) ∈ members source) :
    ∃ name, (tables.ofKind m.isMethod)[m.key]? = some name := by
  rw [ofKind_of_debugTables read]
  exact Names.exists_getElem?_ofEntries
    (List.mem_map_of_mem (f := Member.toEntry) (List.mem_filter.2 ⟨member, by simp⟩))

end

/-! ## Parts of keys -/

namespace Member

/-- The class and the name of a member, under which it is known whatever its types. -/
def path (m : Member) : String := SymbolTable.ownerKey (internal m.owner) m.name

/-- The types of a member: `(parameters)result` for a method, the descriptor of a field. -/
def signature (m : Member) : String :=
  match m.arguments with
  | none => String.ofList (ofType m.type.toList)
  | some arguments =>
    "(" ++ String.ofList (ofArguments arguments.toList) ++ ")" ++
      String.ofList (ofType m.type.toList)

theorem signature_of_method (owner name arguments type : String) :
    (signature ⟨owner, name, some arguments, type⟩).toList =
      '(' :: (ofArguments arguments.toList ++ ')' :: ofType type.toList) := by
  simp [signature]

/-- The character that a key is cut at. -/
def separator (methods : Bool) : Char := if methods then '(' else '.'

/-- What stands between the name and the signature in a key. -/
def joint (methods : Bool) : String := if methods then "" else "."

theorem key_eq (m : Member) : m.key = m.path ++ (joint m.isMethod ++ m.signature) := by
  obtain ⟨owner, name, arguments, type⟩ := m
  cases arguments with
  | none => simp [key, fieldKey, path, joint, isMethod, signature, SymbolTable.ownerKey,
      String.append_assoc]
  | some arguments => simp [key, methodKey, path, joint, isMethod, signature, SymbolTable.ownerKey,
      String.append_assoc]

/-- Whether the types of a member are without opening parentheses. -/
structure IsBare (m : Member) : Prop where
  arguments : ∀ arguments ∈ m.arguments, '(' ∉ arguments.toList
  type : '(' ∉ m.type.toList

theorem isBare_iff {m : Member} :
    m.IsBare ↔ (∀ arguments ∈ m.arguments, '(' ∉ arguments.toList) ∧ '(' ∉ m.type.toList :=
  ⟨fun bare => ⟨bare.arguments, bare.type⟩, fun bare => ⟨bare.1, bare.2⟩⟩

/-- What a key is cut at is the last of its kind. -/
theorem joint_signature {m : Member} (bare : m.IsBare) :
    ∃ rest, (joint m.isMethod ++ m.signature).toList = separator m.isMethod :: rest ∧
      separator m.isMethod ∉ rest := by
  have noSymbol : '(' ∉ symbols := by simp [symbols]
  obtain ⟨owner, name, arguments, type⟩ := m
  cases arguments with
  | none =>
    refine ⟨ofType type.toList, ?_, dot_notMem_ofType _⟩
    simp [joint, separator, signature, isMethod]
  | some arguments =>
    refine ⟨ofArguments arguments.toList ++ ')' :: ofType type.toList, ?_, ?_⟩
    · simp [joint, separator, signature_of_method, isMethod]
    · have inParameters : '(' ∉ ofArguments arguments.toList := fun member =>
        (mem_ofArguments member).elim (bare.arguments arguments rfl) noSymbol
      have inResult : '(' ∉ ofType type.toList := fun member =>
        (mem_ofType member).elim bare.type noSymbol
      simp [separator, isMethod, inParameters, inResult]

/-- A key is cut where the name has been joined to the signature. -/
theorem ownerOf?_key {m : Member} (bare : m.IsBare) :
    Names.ownerOf? (separator m.isMethod) m.key = some m.path := by
  obtain ⟨rest, isRest, isLast⟩ := joint_signature bare
  rw [Names.ownerOf?_eq_some_iff, key_eq, String.toList_append, isRest]
  exact ⟨rest, Text.splitLast?_append isLast _⟩

theorem path_eq_iff {m : Member} {owner name : String} :
    m.path = SymbolTable.ownerKey (internal owner) name ↔
      internal m.owner = internal owner ∧ m.name = name := by
  constructor
  · intro same
    have sameChars := congrArg String.toList same
    simp only [path, SymbolTable.ownerKey, String.toList_append, List.append_assoc,
      internal_toList] at sameChars
    obtain ⟨sameOwner, sameName⟩ := Text.append_cons_inj (dot_notMem_internalName _)
      (dot_notMem_internalName _) sameChars
    exact ⟨congrArg String.ofList sameOwner, String.toList_inj.1 sameName⟩
  · rintro ⟨sameOwner, rfl⟩
    rw [path, sameOwner]

/-- Members of one kind have one key if both parts of it are the same. -/
theorem key_eq_iff {m n : Member} (bare : m.IsBare) (bare' : n.IsBare)
    (sameKind : m.isMethod = n.isMethod) :
    m.key = n.key ↔ m.path = n.path ∧ m.signature = n.signature := by
  constructor
  · intro same
    have samePath : some m.path = some n.path := by
      rw [← ownerOf?_key bare, ← ownerOf?_key bare', sameKind, same]
    obtain samePath := Option.some.inj samePath
    rw [key_eq, key_eq, samePath, sameKind, String.append_right_inj,
      String.append_right_inj] at same
    exact ⟨samePath, same⟩
  · rintro ⟨samePath, sameSignature⟩
    rw [key_eq, key_eq, samePath, sameKind, sameSignature]

/-- Keys with one path are ordered as their signatures are. -/
theorem key_lt_of_signature_lt {m n : Member} (sameKind : m.isMethod = n.isMethod)
    (samePath : m.path = n.path) (less : m.signature < n.signature) : m.key < n.key := by
  simp only [key_eq, samePath, sameKind, String.lt_iff, String.toList_append] at less ⊢
  exact List.append_left_lt (List.append_left_lt less)

/-! ## Different keys -/

/-- What makes the key of a member show all of it: no slash in its class, and well-formed types. -/
structure IsPlain (m : Member) : Prop where
  owner : '/' ∉ m.owner.toList
  arguments : ∀ arguments ∈ m.arguments, IsArgumentList arguments.toList
  type : IsReadable m.type.toList

theorem IsPlain.isBare {m : Member} (plain : m.IsPlain) : m.IsBare where
  arguments arguments isGiven := (plain.arguments arguments isGiven).notMem (by simp)
  type := plain.type.notMem (by simp)

theorem type_inj {type other : String} (readable : IsReadable type.toList)
    (readable' : IsReadable other.toList) (same : ofType type.toList = ofType other.toList) :
    type = other := by
  have sameRun : ofType type.toList ++ [] = ofType other.toList ++ [] := by rw [same]
  exact String.toList_inj.1 (ofType_append_inj readable readable' sameRun).1

/-- The signature of a plain member shows its types. -/
theorem signature_inj {m n : Member} (plain : m.IsPlain) (plain' : n.IsPlain)
    (sameKind : m.isMethod = n.isMethod) (same : m.signature = n.signature) :
    m.arguments = n.arguments ∧ m.type = n.type := by
  obtain ⟨owner, name, arguments, type⟩ := m
  obtain ⟨owner', name', arguments', type'⟩ := n
  have sameChars := congrArg String.toList same
  cases arguments with
  | none =>
    cases arguments' with
    | some arguments' => cases sameKind
    | none =>
      simp only [signature, String.toList_ofList] at sameChars
      exact ⟨rfl, type_inj plain.type plain'.type sameChars⟩
  | some arguments =>
    cases arguments' with
    | none => cases sameKind
    | some arguments' =>
      have areTypes : IsArgumentList arguments.toList := plain.arguments arguments rfl
      have areTypes' : IsArgumentList arguments'.toList := plain'.arguments arguments' rfl
      simp only [signature_of_method, List.cons.injEq, true_and] at sameChars
      obtain ⟨sameArguments, sameType⟩ := Text.append_cons_inj
        (areTypes.notMem_ofArguments (by simp)) (areTypes'.notMem_ofArguments (by simp)) sameChars
      rw [String.toList_inj.1 (ofArguments_inj areTypes areTypes' sameArguments)]
      exact ⟨rfl, type_inj plain.type plain'.type sameType⟩

/-- No two plain fields and no two plain methods have one key. -/
theorem key_inj {m n : Member} (plain : m.IsPlain) (plain' : n.IsPlain)
    (sameKind : m.isMethod = n.isMethod) (sameKey : m.key = n.key) : m = n := by
  obtain ⟨samePath, sameSignature⟩ := (key_eq_iff plain.isBare plain'.isBare sameKind).1 sameKey
  obtain ⟨sameOwner, sameName⟩ := path_eq_iff.1 samePath
  obtain ⟨sameArguments, sameType⟩ := signature_inj plain plain' sameKind sameSignature
  have sameChars : internalName m.owner.toList = internalName n.owner.toList := by
    rw [← internal_toList, sameOwner, internal_toList]
  have sameOwner : m.owner = n.owner :=
    String.toList_inj.1 (internalName_inj plain.owner plain'.owner sameChars)
  cases m
  cases n
  simp_all only

end Member

/-- The obfuscated names that a mapping gives to a member, in their order. -/
def namesOf (source : Bytes) (m : Member) : List String :=
  ((members source).filter (·.1 = m)).map Prod.snd

/-- **No member takes the place of another.** Two fields, or two methods, with one key are the same
when their classes have no slashes and their types are well formed. So if all members of a mapping
are like that, the tables have for any such member the name that the mapping gives to it last, and
none if it gives none. -/
theorem members_kept_apart :
    (∀ m n : Member, m.IsPlain → n.IsPlain → m.isMethod = n.isMethod → m.key = n.key → m = n) ∧
    ∀ (source : Bytes) (tables : DebugTables), debugTables source = .ok tables →
      (∀ one ∈ members source, one.1.IsPlain) → ∀ m : Member, m.IsPlain →
        (tables.ofKind m.isMethod)[m.key]? = (namesOf source m).getLast? := by
  refine ⟨fun m n => Member.key_inj, fun source tables read allPlain m plain => ?_⟩
  -- The entries with the key of a member are just those of the member itself.
  rw [getElem?_ofKind read, namesFor, namesOf]
  congr 2
  apply List.filter_congr
  intro one inSource
  rw [decide_eq_decide]
  constructor
  · exact fun ⟨sameKind, sameKey⟩ => Member.key_inj (allPlain one inSource) plain sameKind sameKey
  · intro same
    rw [same]
    exact ⟨rfl, rfl⟩

/-- Methods that share a name, one of them with the keyword `int` and another with a class `I` for
an argument, and a field of that name. -/
def overloadMapping : Bytes :=
  Utf8.encode "a.B -> x:\n    void f(int) -> k\n    void f(I) -> m\n    I f -> n\n"

theorem members_of_overloadMapping_kept_apart :
    let ofInt : Member := ⟨"a.B", "f", some "int", "void"⟩
    let ofClass : Member := ⟨"a.B", "f", some "I", "void"⟩
    ofInt.key ≠ ofClass.key ∧ ∃ tables, debugTables overloadMapping = .ok tables ∧
      tables.methods[ofInt.key]? = some "k" ∧ tables.methods[ofClass.key]? = some "m" := by
  intro ofInt ofClass
  have found : members overloadMapping =
      [(ofInt, "k"), (ofClass, "m"), (⟨"a.B", "f", none, "I"⟩, "n")] := by decide +kernel
  have isInt : IsReadable "int".toList :=
    ⟨"int".toList, 0, rfl, ⟨by simp, by simp⟩, by simp [Text.isBlank]⟩
  have isClass : IsReadable "I".toList :=
    ⟨"I".toList, 0, rfl, ⟨by simp, by simp⟩, by simp [Text.isBlank]⟩
  have isVoid : IsReadable "void".toList :=
    ⟨"void".toList, 0, rfl, ⟨by simp, by simp⟩, by simp [Text.isBlank]⟩
  have oneArgument {type : String} (readable : IsReadable type.toList) :
      ∀ arguments ∈ some type, IsArgumentList arguments.toList := by
    rintro arguments ⟨⟩
    exact ⟨[type.toList], by simp, by simp [readable]⟩
  have plain : ∀ one ∈ members overloadMapping, one.1.IsPlain := by
    rw [found, List.forall_mem_cons, List.forall_mem_cons, List.forall_mem_singleton]
    exact ⟨⟨by decide, oneArgument isInt, isVoid⟩, ⟨by decide, oneArgument isClass, isVoid⟩,
      ⟨by decide, by simp, isClass⟩⟩
  have plainInt : ofInt.IsPlain := plain (ofInt, "k") (by simp [found])
  have plainClass : ofClass.IsPlain := plain (ofClass, "m") (by simp [found])
  obtain ⟨apart, kept⟩ := members_kept_apart
  obtain ⟨tables, read⟩ : ∃ tables, debugTables overloadMapping = .ok tables := ⟨_, rfl⟩
  refine ⟨fun sameKey => ?_, tables, read, ?_, ?_⟩
  · exact absurd (apart ofInt ofClass plainInt plainClass rfl sameKey) (by decide)
  · refine (kept _ tables read plain ofInt plainInt).trans ?_
    rw [namesOf, found]
    decide +kernel
  · refine (kept _ tables read plain ofClass plainClass).trans ?_
    rw [namesOf, found]
    decide +kernel

end Relabel.Mapping
