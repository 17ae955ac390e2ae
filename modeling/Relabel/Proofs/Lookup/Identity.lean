import Mathlib
import Relabel.Proofs.Lookup.Keys
import Relabel.Proofs.Names

/-!
# Tables of the identity

For developers an instruction is resolved by its spelling, and for production by a symbol table. A
table of the identity gives every name as it is written in the key. There the two agree, wherever
the table has a name at all, since the class and the member name that are cut out of an instruction
are the ones that the key has been put together from. The owners of a table cut the key from its
end, and the spelling cuts it from its start, and both meet at the same place.
-/

namespace Relabel

open Lookup

/-! ## Keys of members -/

/-- A key that is put together from a class, a member name and what follows the name. -/
structure IsMemberKey (kind : Kind) (key owner name tail : List Char) : Prop where
  key_eq : key = owner ++ '.' :: (name ++ kind.nameEnd :: tail)
  owner_nonempty : owner ≠ []
  name_nonempty : name ≠ []
  owner_plain : '.' ∉ owner ∧ kind.nameEnd ∉ owner
  name_plain : '.' ∉ name ∧ kind.nameEnd ∉ name
  tail_plain : kind.nameEnd ∉ tail

section

variable {kind : Kind} {key owner name tail : List Char}

/-- From its start a key is cut behind the class and behind the name. -/
theorem IsMemberKey.splitAdvanced? (isKey : IsMemberKey kind key owner name tail) :
    splitAdvanced? kind key = some (owner, name) := by
  rw [isKey.key_eq]
  exact splitAdvanced?_append isKey.owner_plain.1 isKey.owner_nonempty isKey.name_nonempty
    isKey.name_plain.2 tail

/-- From its end a key is cut behind the name as well. -/
theorem IsMemberKey.splitLast? (isKey : IsMemberKey kind key owner name tail) :
    Text.splitLast? kind.nameEnd key = some (owner ++ '.' :: name, tail) := by
  have joined : key = (owner ++ '.' :: name) ++ kind.nameEnd :: tail := by simp [isKey.key_eq]
  rw [joined, Text.splitLast?_append isKey.tail_plain]

/-- Every key of the map has the member name as its value. -/
def Names.NamesMembers (kind : Kind) (names : Names) : Prop :=
  ∀ (key mapped : String), names[key]? = some mapped →
    ∃ owner tail, IsMemberKey kind key.toList owner mapped.toList tail

theorem Names.NamesMembers.of_key {names : Names} {mapped : String}
    (isNamed : names.NamesMembers kind) (found : names[String.ofList key]? = some mapped)
    (split : Lookup.splitAdvanced? kind key = some (owner, name)) : mapped.toList = name := by
  obtain ⟨_, _, isKey⟩ := isNamed _ _ found
  have same := isKey.splitAdvanced?.symm.trans (by rw [String.toList_ofList, split])
  exact (Prod.mk.inj (Option.some.inj same)).2

theorem Names.NamesMembers.of_owner {names : Names} {mapped : String}
    (isNamed : names.NamesMembers kind) (noDot : '.' ∉ owner)
    (found : (names.byOwner kind.nameEnd)[SymbolTable.ownerKey (String.ofList owner)
      (String.ofList name)]? = some mapped) : mapped.toList = name := by
  obtain ⟨key, rest, found, cut⟩ := exists_of_byOwner found
  obtain ⟨keyOwner, tail, isKey⟩ := isNamed _ _ found
  have joined : keyOwner ++ '.' :: mapped.toList = owner ++ '.' :: name := by
    have same := isKey.splitLast?.symm.trans cut
    simpa [SymbolTable.ownerKey] using (Prod.mk.inj (Option.some.inj same)).1
  -- Neither class has a dot, so both texts are cut at their first one.
  have first := Text.splitFirst?_append isKey.owner_plain.1 mapped.toList
  rw [joined, Text.splitFirst?_append noDot] at first
  exact (Prod.mk.inj (Option.some.inj first)).2.symm

end

/-! ## Tables -/

/-- A table that gives every class and every member the name that it has in its key. -/
structure SymbolTable.IsIdentity (table : SymbolTable) : Prop where
  class_eq : ∀ name mapped, table.class? name = some mapped → mapped = name
  field_eq : ∀ key mapped, table.field? key = some mapped →
    ∃ owner descriptor, IsMemberKey .field key.toList owner mapped.toList descriptor
  method_eq : ∀ key mapped, table.method? key = some mapped →
    ∃ owner parameters result,
      IsMemberKey .method key.toList owner mapped.toList (parameters ++ ')' :: result)

theorem SymbolTable.IsIdentity.methods {table : SymbolTable} (identity : table.IsIdentity) :
    table.methods.NamesMembers .method := fun key mapped found =>
  have ⟨owner, parameters, result, isKey⟩ := identity.method_eq key mapped found
  ⟨owner, parameters ++ ')' :: result, isKey⟩

namespace Lookup

variable {table : SymbolTable}

theorem dot_notMem_of_splitSimple? {body owner name : List Char}
    (split : splitSimple? body = some (owner, name)) : '.' ∉ owner := by
  unfold splitSimple? at split
  repeat' split at split
  all_goals cases split
  exact Descriptor.dot_notMem_internalName _

theorem Instruction.lookup.found_eq_ok {i : Instruction} {query name : List Char}
    {mapped? : Option String} (result : found i query mapped? = .ok name) :
    ∃ mapped, mapped? = some mapped ∧ mapped.toList = name := by
  cases mapped? with
  | none => cases result
  | some mapped => exact ⟨mapped, rfl, Except.ok.inj result⟩

/-- A member is read off an instruction as it has been looked up, if the table gives it its name. -/
theorem Instruction.readable_of_member {i : Instruction} {query? : String → String → Option String}
    {found : List Char} (isMember : i.kind ≠ .type)
    (named : ∀ owner name mapped, i.member? = some (owner, name) →
      query? (String.ofList owner) (String.ofList name) = some mapped → mapped.toList = name)
    (looked : lookup.member i query? = .ok found) : i.readable = .ok found := by
  unfold lookup.member at looked
  split at looked
  · next owner name split =>
    obtain ⟨mapped, queried, rfl⟩ := lookup.found_eq_ok looked
    have same := named owner name mapped split queried
    cases kind : i.kind with
    | type => exact absurd kind isMember
    | method => simp [readable, kind, split, same]
    | field => simp [readable, kind, split, same]
  · cases looked

/-- What a table of the identity has for an instruction is what the instruction spells. -/
theorem Instruction.readable_of_lookup (identity : table.IsIdentity) {i : Instruction}
    {found : List Char} (looked : i.lookup table = .ok found) : i.readable = .ok found := by
  obtain ⟨mode, kind, slashes, body⟩ := i
  have fields : table.fields.NamesMembers .field := identity.field_eq
  cases kind with
  | type =>
    obtain ⟨mapped, isMapped, rfl⟩ := lookup.found_eq_ok looked
    obtain rfl := identity.class_eq _ _ isMapped
    simp [readable]
  | method =>
    rw [lookup] at looked
    refine readable_of_member (by simp) (fun owner name mapped split queried => ?_) looked
    cases mode with
    | simple =>
      rw [SymbolTable.methodOf?, table.methodOwners_eq] at queried
      exact identity.methods.of_owner (dot_notMem_of_splitSimple? split) queried
    | advanced => exact identity.methods.of_key queried split
  | field =>
    rw [lookup] at looked
    refine readable_of_member (by simp) (fun owner name mapped split queried => ?_) looked
    cases mode with
    | simple =>
      rw [SymbolTable.fieldOf?, table.fieldOwners_eq] at queried
      exact fields.of_owner (dot_notMem_of_splitSimple? split) queried
    | advanced => exact fields.of_key queried split

theorem Instruction.resolve_developer_of_production (identity : table.IsIdentity) {i : Instruction}
    {name : List Char} (resolved : i.resolve table .production = .ok name) :
    i.resolve table .developer = .ok name := by
  unfold resolve at resolved ⊢
  cases looked : i.lookup table with
  | error error =>
    rw [looked] at resolved
    cases resolved
  | ok found =>
    rw [looked] at resolved
    rw [readable_of_lookup identity looked, resolved]

/-- One replacement for production is the same replacement for developers. -/
theorem step_developer_of_production (identity : table.IsIdentity) {text next : List Char}
    (stepped : step table .production text = some (.ok next)) :
    step table .developer text = some (.ok next) := by
  obtain ⟨result, found, replaced⟩ := Option.map_eq_some_iff.1 stepped
  cases result with
  | error start => cases replaced
  | ok o =>
    cases resolved : o.instruction.resolve table .production with
    | error error =>
      simp only [resolved] at replaced
      cases replaced
    | ok name =>
      simp only [resolved] at replaced
      rw [step, found, Option.map_some]
      simp only [Instruction.resolve_developer_of_production identity resolved, replaced]

theorem settle_developer_of_production (identity : table.IsIdentity) {budget : Nat}
    {text result : List Char} (settled : settle table .production budget text = .ok result) :
    settle table .developer budget text = .ok result := by
  fun_induction settle table .production budget text with
  | case1 budget text nothing =>
    have nothing : step table .developer text = none := by
      simpa [step] using nothing
    rwa [settle, nothing]
  | case2 => cases settled
  | case3 => cases settled
  | case4 text next stepped budget ih =>
    rw [settle, step_developer_of_production identity stepped]
    exact ih settled

/-- **On a table of the identity both goals agree.** A text that is processed for production
without an error becomes the same text for developers, however many replacements that takes, and a
text without instructions is left alone by both. -/
theorem process_developer_of_production (identity : table.IsIdentity) :
    (∀ reserve value result, process reserve table .production value = .ok result →
      process reserve table .developer value = .ok result) ∧
    ∀ budget text result, settle table .production budget text = .ok result →
      settle table .developer budget text = .ok result := by
  refine ⟨fun reserve value result processed => ?_,
    fun _ _ _ => settle_developer_of_production identity⟩
  rw [process, processChars] at processed ⊢
  split at processed
  · rw [if_pos ‹_›]
    cases settled : settle table .production (value.toList.count '(' + reserve) value.toList with
    | error error =>
      rw [settled] at processed
      cases processed
    | ok text =>
      rw [settled] at processed
      rwa [settle_developer_of_production identity settled]
  · rwa [if_neg ‹_›]

/-- Two overloads of a method have one readable name, under the owner as under the whole key. -/
theorem process_of_identity_overloads :
    let table : SymbolTable := .ofNames (.ofEntries [("a/B", "a/B")])
      (.ofEntries [("a/B.g.[I", "g")])
      (.ofEntries [("a/B.f()V", "f"), ("a/B.f(I)V", "f")])
    let value := "SRC(a.B): SRM(a.B f), ASRM(a/B.f(I)V), SRF(a.B g), ASRF/(a/B.g.[I)"
    table.IsIdentity ∧ process 0 table .production value = .ok (some "a.B: f, f, g, g") ∧
      process 0 table .developer value = .ok (some "a.B: f, f, g, g") := by
  intro table value
  have identity : table.IsIdentity := by
    constructor
    · intro name mapped found
      obtain ⟨rfl, rfl⟩ := Prod.mk.inj
        (List.mem_singleton.1 (Names.mem_of_getElem?_ofEntries found))
      rfl
    · intro key mapped found
      obtain ⟨rfl, rfl⟩ := Prod.mk.inj
        (List.mem_singleton.1 (Names.mem_of_getElem?_ofEntries found))
      refine ⟨"a/B".toList, "[I".toList, ?_⟩
      constructor <;> decide
    · intro key mapped found
      rcases List.mem_pair.1 (Names.mem_of_getElem?_ofEntries found) with same | same
      · obtain ⟨rfl, rfl⟩ := Prod.mk.inj same
        refine ⟨"a/B".toList, [], ['V'], ?_⟩
        constructor <;> decide
      · obtain ⟨rfl, rfl⟩ := Prod.mk.inj same
        refine ⟨"a/B".toList, ['I'], ['V'], ?_⟩
        constructor <;> decide
  have produced : process 0 table .production value = .ok (some "a.B: f, f, g, g") := by
    decide +kernel
  exact ⟨identity, produced, (process_developer_of_production identity).1 _ _ _ produced⟩

end Lookup

end Relabel
