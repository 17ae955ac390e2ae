import Relabel.Proofs.Mapping.Members

/-!
# Overloads

Members of a class that share a name are told apart by their signatures only. A key is cut where the
name has been joined to the signature, since no type has an opening parenthesis and no descriptor a
dot; so under the name stand all overloads, in the order of their signatures, and nothing else. The
tables know the overload with the greatest signature by that name alone, and if the mapping names
this one more than once, by its last name.
-/

namespace Relabel

namespace Mapping

/-! ## Overloads -/

/-- The signatures of the methods, or of the fields, that a mapping has for a name in a class, with
their obfuscated names, in the order of the records. -/
def overloads (source : Bytes) (methods : Bool) (owner name : String) : List (String × String) :=
  ((members source).filter fun one =>
    one.1.isMethod = methods ∧ internal one.1.owner = internal owner ∧ one.1.name = name).map
      fun one => (one.1.signature, one.2)

/-- Whether a name is the last one for the signature that is the greatest in the order of bytes. -/
def IsLastOfGreatest (overloads : List (String × String)) (obfuscated : String) : Prop :=
  ∃ signature, ((overloads.filter (·.1 = signature)).map Prod.snd).getLast? = some obfuscated ∧
    ∀ other ∈ overloads, ¬ Utf8.encode signature < Utf8.encode other.1

/-- The name under which a method, or a field, of a class is known whatever its types. -/
def DebugTables.memberOf? (tables : DebugTables) (methods : Bool) (owner name : String) :
    Option String :=
  ((tables.ofKind methods).byOwner
    (Member.separator methods))[SymbolTable.ownerKey (internal owner) name]?

theorem IsLastOfGreatest.ne_nil {overloads : List (String × String)} {obfuscated : String}
    (isLast : IsLastOfGreatest overloads obfuscated) : overloads ≠ [] := by
  rintro rfl
  obtain ⟨signature, isLast, -⟩ := isLast
  cases isLast

theorem IsLastOfGreatest.unique {overloads : List (String × String)} {first second : String}
    (one : IsLastOfGreatest overloads first) (other : IsLastOfGreatest overloads second) :
    first = second := by
  obtain ⟨signature, isLast, isGreatest⟩ := one
  obtain ⟨signature', isLast', isGreatest'⟩ := other
  have isEntry : (signature, first) ∈ overloads := by simpa using List.mem_of_getLast? isLast
  have isEntry' : (signature', second) ∈ overloads := by simpa using List.mem_of_getLast? isLast'
  have notLess := mt Utf8.encode_lt_iff.2 (isGreatest _ isEntry')
  have notLess' := mt Utf8.encode_lt_iff.2 (isGreatest' _ isEntry)
  obtain rfl : signature = signature' := le_antisymm (not_lt.1 notLess') (not_lt.1 notLess)
  rw [isLast'] at isLast
  exact (Option.some.inj isLast).symm

section

variable {source : Bytes} {tables : DebugTables} {methods : Bool}
  {owner name signature obfuscated : String}

theorem mem_overloads_iff :
    (signature, obfuscated) ∈ overloads source methods owner name ↔
      ∃ m, (m, obfuscated) ∈ members source ∧ m.isMethod = methods ∧
        m.path = SymbolTable.ownerKey (internal owner) name ∧ m.signature = signature := by
  simp only [overloads, List.mem_map, List.mem_filter, decide_eq_true_eq, Prod.exists,
    Prod.mk.injEq, Member.path_eq_iff]
  constructor
  · rintro ⟨m, _, ⟨isMember, sameKind, isPath⟩, isSignature, rfl⟩
    exact ⟨m, isMember, sameKind, isPath, isSignature⟩
  · rintro ⟨m, isMember, sameKind, isPath, isSignature⟩
    exact ⟨m, _, ⟨isMember, sameKind, isPath⟩, isSignature, rfl⟩

/-- The names for a key are those of the overloads with its signature. -/
theorem namesFor_key (bare : ∀ one ∈ members source, one.1.IsBare) {m : Member}
    (member : (m, obfuscated) ∈ members source)
    (isPath : m.path = SymbolTable.ownerKey (internal owner) name) :
    namesFor source m.isMethod m.key =
      ((overloads source m.isMethod owner name).filter (·.1 = m.signature)).map Prod.snd := by
  rw [namesFor, overloads, List.filter_map, List.filter_filter, List.map_map]
  congr 1
  apply List.filter_congr
  intro other isMember
  show decide _ = (decide (other.1.signature = m.signature) && decide _)
  rw [← Bool.decide_and, decide_eq_decide, ← Member.path_eq_iff]
  constructor
  · rintro ⟨sameKind, sameKey⟩
    obtain ⟨samePath, sameSignature⟩ :=
      (Member.key_eq_iff (bare other isMember) (bare _ member) sameKind).1 sameKey
    exact ⟨sameSignature, sameKind, samePath.trans isPath⟩
  · rintro ⟨sameSignature, sameKind, isPath'⟩
    exact ⟨sameKind, (Member.key_eq_iff (bare other isMember) (bare _ member) sameKind).2
      ⟨isPath'.trans isPath.symm, sameSignature⟩⟩

/-- A member of a class is unknown just if there are no overloads. -/
theorem memberOf?_eq_none_iff (read : debugTables source = .ok tables)
    (bare : ∀ one ∈ members source, one.1.IsBare) :
    tables.memberOf? methods owner name = none ↔ overloads source methods owner name = [] := by
  rw [DebugTables.memberOf?, Names.byOwner_eq_none_iff, List.eq_nil_iff_forall_not_mem]
  constructor
  · rintro noKey ⟨signature, obfuscated⟩ isOverload
    obtain ⟨m, isMember, rfl, isPath, -⟩ := mem_overloads_iff.1 isOverload
    obtain ⟨name, isEntry⟩ := exists_getElem?_ofKind read isMember
    apply noKey _ _ isEntry
    rw [Member.ownerOf?_key (bare _ isMember), isPath]
  · rintro noOverload key obfuscated isEntry isUnder
    obtain ⟨m, isMember, rfl, rfl⟩ := exists_mem_of_getElem?_ofKind read isEntry
    rw [Member.ownerOf?_key (bare _ isMember), Option.some.injEq] at isUnder
    exact noOverload _ (mem_overloads_iff.2 ⟨m, isMember, rfl, isUnder, rfl⟩)

/-- A member of a class is known by the last name of the overload with the greatest signature. -/
theorem isLastOfGreatest_of_memberOf? (read : debugTables source = .ok tables)
    (bare : ∀ one ∈ members source, one.1.IsBare)
    (found : tables.memberOf? methods owner name = some obfuscated) :
    IsLastOfGreatest (overloads source methods owner name) obfuscated := by
  obtain ⟨key, isEntry, isUnder, isGreatest⟩ := Names.exists_greatest_of_byOwner found
  obtain ⟨m, isMember, rfl, rfl⟩ := exists_mem_of_getElem?_ofKind read isEntry
  rw [Member.ownerOf?_key (bare _ isMember), Option.some.injEq] at isUnder
  rw [getElem?_ofKind read, namesFor_key bare isMember isUnder] at isEntry
  refine ⟨m.signature, isEntry, ?_⟩
  rintro ⟨signature, other⟩ isOverload isLess
  obtain ⟨n, isMember', sameKind, isPath, rfl⟩ := mem_overloads_iff.1 isOverload
  -- A greater signature would have a greater key under the same owner.
  obtain ⟨name', isEntry'⟩ := exists_getElem?_ofKind read isMember'
  have isUnder' := Member.ownerOf?_key (bare _ isMember')
  rw [sameKind] at isEntry' isUnder'
  have notGreater := isGreatest n.key name' isEntry' (by rw [isUnder', isPath])
  have greater := Member.key_lt_of_signature_lt sameKind.symm (isUnder.trans isPath.symm)
    (Utf8.encode_lt_iff.1 isLess)
  exact absurd notGreater (not_le.2 greater)

/-- Tables do not depend on the order of records with different keys. -/
theorem ofKind_eq_of_namesFor {other : Bytes} {tables' : DebugTables}
    (read : debugTables source = .ok tables) (read' : debugTables other = .ok tables')
    (same : ∀ key, namesFor other methods key = namesFor source methods key) :
    tables'.ofKind methods = tables.ofKind methods := by
  apply Std.ExtTreeMap.ext_getElem?
  intro key
  rw [getElem?_ofKind read, getElem?_ofKind read', same]

end

end Mapping

end Relabel
