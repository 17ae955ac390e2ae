import Relabel.Proofs.Lookup.Keys
import Relabel.Proofs.Mapping.Overloads

/-!
# Looking up members by class and name

An instruction in the simple mode gives the class and the name of a member and leaves its types
open. In production it finds what the tables know by this name, which is the overload with the
greatest signature.
-/

namespace Relabel

namespace Lookup

open Mapping

/-! ## Instructions -/

/-- The kind of an instruction that looks up methods, or fields. -/
def memberKind (methods : Bool) : Kind := if methods then .method else .field

/-- The text of an instruction that looks up a member of a class by its name and keeps slashes. -/
def ownerText (methods : Bool) (owner name : String) : String :=
  (if methods then "SRM/(" else "SRF/(") ++ owner ++ " " ++ name ++ ")"

/-- A text that is not empty and has no spaces and no parentheses. -/
structure IsWord (text : List Char) : Prop where
  nonempty : text ≠ []
  noSpace : ' ' ∉ text
  plain : HasNoParentheses text

section

variable {owner name : String} (isClass : IsWord owner.toList) (isName : IsWord name.toList)

include isClass isName

theorem splitSimple?_words :
    splitSimple? (owner.toList ++ ' ' :: name.toList) =
      some (Descriptor.internalName owner.toList, name.toList) := by
  have noSpace : ∀ word ∈ [owner.toList, name.toList], ' ' ∉ word := by
    simp [isClass.noSpace, isName.noSpace]
  have words := List.splitOn_intercalate ' ' noSpace (List.cons_ne_nil _ _)
  simp only [List.intercalate_cons_cons, List.intercalate_singleton, List.append_assoc,
    List.singleton_append] at words
  simp [splitSimple?, words, isClass.nonempty, isName.nonempty]

/-- An instruction that names the class and the name of a member looks up what stands under both. -/
theorem resolve_member (tables : DebugTables) (compact : Names) (methods : Bool) :
    Instruction.resolve (SymbolTable.merge tables compact) .production
        ⟨.simple, memberKind methods, true, owner.toList ++ ' ' :: name.toList⟩ =
      match tables.memberOf? methods owner name with
      | some obfuscated => .ok obfuscated.toList
      | none => .error (.unresolved (memberKind methods) (owner ++ " " ++ name)) := by
  have split := splitSimple?_words isClass isName
  have quoted : String.ofList (owner.toList ++ ' ' :: name.toList) = owner ++ " " ++ name :=
    String.toList_inj.1 (by simp)
  let i : Instruction := ⟨.simple, memberKind methods, true, owner.toList ++ ' ' :: name.toList⟩
  have lookedUp : i.lookup (SymbolTable.merge tables compact) = Instruction.lookup.found i i.body
      (tables.memberOf? methods owner name) := by
    cases methods <;>
      simp only [i, Instruction.lookup, memberKind, Bool.false_eq_true, if_false, if_true,
        Instruction.lookup.member, Instruction.member?, split, String.ofList_toList] <;>
      rfl
  show (i.lookup (SymbolTable.merge tables compact)).map (fun name => name) = _
  rw [lookedUp]
  cases tables.memberOf? methods owner name with
  | none => simp [Instruction.lookup.found, Except.map, i, quoted]
  | some obfuscated => rfl

/-- The text of such an instruction gives the name that is looked up, unless this name opens another
instruction. -/
theorem process_ownerText_of_member (reserve : Nat) (tables : DebugTables) (compact : Names)
    (methods : Bool) (noOpening : ∀ obfuscated,
      tables.memberOf? methods owner name = some obfuscated → '(' ∉ obfuscated.toList) :
    process reserve (SymbolTable.merge tables compact) .production (ownerText methods owner name) =
      match tables.memberOf? methods owner name with
      | some obfuscated => .ok (some obfuscated)
      | none => .error (.unresolved (memberKind methods) (owner ++ " " ++ name)) := by
  have spells : (ownerText methods owner name).toList = Instruction.spell
      ⟨.simple, memberKind methods, true, owner.toList ++ ' ' :: name.toList⟩ := by
    cases methods <;> simp [ownerText, Instruction.spell, memberKind, Kind.letter]
  have closes := closeFrom_plain (isClass.plain.append
    (isName.plain.cons (c := ' ') (by decide) (by decide)))
  have resolved := resolve_member isClass isName tables compact methods
  cases looked : tables.memberOf? methods owner name with
  | none =>
    rw [looked] at resolved
    exact process_spell_error spells closes resolved
  | some obfuscated =>
    rw [looked] at resolved
    exact process_spell spells closes resolved (noOpening obfuscated looked)

/-- **A lookup by class and name finds the greatest signature.** In production it fails if the
mapping has no member of that kind with the class and the name. Otherwise it gives the last name of
the one whose signature is the greatest in the order of bytes, unless this name opens another
instruction. Only records with one key have to keep their order for that. -/
theorem process_ownerText {reserve : Nat} {debug : Bytes} {tables : DebugTables}
    (read : debugTables debug = .ok tables) (bare : ∀ one ∈ members debug, one.1.IsBare)
    (compact : Names) (methods : Bool) :
    let outcome := process reserve (SymbolTable.merge tables compact) .production
      (ownerText methods owner name)
    let found := overloads debug methods owner name
    (found = [] → outcome = .error (.unresolved (memberKind methods) (owner ++ " " ++ name))) ∧
      (found ≠ [] → ∃ obfuscated, IsLastOfGreatest found obfuscated) ∧
      (∀ obfuscated, IsLastOfGreatest found obfuscated → '(' ∉ obfuscated.toList →
        outcome = .ok (some obfuscated)) ∧
      ∀ (other : Bytes) (tables' : DebugTables), debugTables other = .ok tables' →
        (∀ key, namesFor other methods key = namesFor debug methods key) →
        (∀ obfuscated, IsLastOfGreatest found obfuscated → '(' ∉ obfuscated.toList) →
        process reserve (SymbolTable.merge tables' compact) .production
          (ownerText methods owner name) = outcome := by
  intro outcome found
  have processed := process_ownerText_of_member isClass isName reserve tables compact methods
  have unknown : tables.memberOf? methods owner name = none ↔ found = [] :=
    memberOf?_eq_none_iff read bare
  have lastOf (obfuscated : String)
      (known : tables.memberOf? methods owner name = some obfuscated) :
      IsLastOfGreatest found obfuscated := isLastOfGreatest_of_memberOf? read bare known
  have known (nonempty : found ≠ []) :
      ∃ obfuscated, tables.memberOf? methods owner name = some obfuscated :=
    Option.ne_none_iff_exists'.1 (mt unknown.1 nonempty)
  refine ⟨fun noOverload => ?_, fun nonempty => ?_, fun obfuscated isLast noOpening => ?_,
    fun other tables' read' same noOpening => ?_⟩
  · simp only [unknown.2 noOverload] at processed
    exact processed nofun
  · obtain ⟨obfuscated, isKnown⟩ := known nonempty
    exact ⟨obfuscated, lastOf obfuscated isKnown⟩
  · obtain ⟨last, isKnown⟩ := known isLast.ne_nil
    obtain rfl : last = obfuscated := (lastOf last isKnown).unique isLast
    simp only [isKnown, Option.some.injEq, forall_eq'] at processed
    exact processed noOpening
  · have sameMember :
        tables'.memberOf? methods owner name = tables.memberOf? methods owner name := by
      rw [DebugTables.memberOf?, ofKind_eq_of_namesFor read read' same, DebugTables.memberOf?]
    have noOpening (obfuscated : String)
        (isKnown : tables.memberOf? methods owner name = some obfuscated) :
        '(' ∉ obfuscated.toList := noOpening obfuscated (lastOf obfuscated isKnown)
    have processed' := process_ownerText_of_member isClass isName reserve tables' compact methods
    rw [sameMember] at processed'
    exact (processed' noOpening).trans (processed noOpening).symm

end

/-- A method with two overloads, one of them named twice, and a field of the same name. -/
def runMapping : Bytes := Utf8.encode
  "A -> x:\n    void run(int) -> q\n    void run() -> p\n    int run -> r\n    void run(int) -> s\n"

/-- The overload with an argument has the greater signature, as `I` is behind a parenthesis. -/
theorem process_ownerText_of_runMapping : ∃ tables, debugTables runMapping = .ok tables ∧
    process 0 (SymbolTable.merge tables ∅) .production "SRM/(A run)" = .ok (some "s") ∧
    process 0 (SymbolTable.merge tables ∅) .production "SRF/(A run)" = .ok (some "r") ∧
    process 0 (SymbolTable.merge tables ∅) .production "SRM/(A go)" =
      .error (.unresolved .method "A go") := by
  obtain ⟨tables, read⟩ : ∃ tables, debugTables runMapping = .ok tables := ⟨_, rfl⟩
  have found : members runMapping = [(⟨"A", "run", some "int", "void"⟩, "q"),
      (⟨"A", "run", some "", "void"⟩, "p"), (⟨"A", "run", none, "int"⟩, "r"),
      (⟨"A", "run", some "int", "void"⟩, "s")] := by decide +kernel
  have bare : ∀ one ∈ members runMapping, one.1.IsBare := by simp [found, Member.isBare_iff]
  have isWord {text : String} (nonempty : text ≠ "") (noSpace : ' ' ∉ text.toList)
      (plain : '(' ∉ text.toList ∧ ')' ∉ text.toList) : IsWord text.toList :=
    ⟨by simpa using nonempty, noSpace, plain⟩
  have isClass : IsWord "A".toList := isWord (by decide) (by decide) (by decide)
  have isName : IsWord "run".toList := isWord (by decide) (by decide) (by decide)
  have isMissing : IsWord "go".toList := isWord (by decide) (by decide) (by decide)
  obtain ⟨-, -, ofMethod, -⟩ := process_ownerText isClass isName read bare ∅ true
  obtain ⟨-, -, ofField, -⟩ := process_ownerText isClass isName read bare ∅ false
  obtain ⟨missing, -⟩ := process_ownerText isClass isMissing read bare ∅ true
  refine ⟨tables, read, ofMethod "s" ⟨"(I)V", ?_, ?_⟩ (by decide),
    ofField "r" ⟨"I", ?_, ?_⟩ (by decide), missing ?_⟩
  all_goals
    rw [overloads, found]
    decide +kernel

end Lookup

end Relabel
