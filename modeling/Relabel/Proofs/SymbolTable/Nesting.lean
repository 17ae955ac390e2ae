import Relabel.Proofs.Text.Splitting
import Relabel.SymbolTable.Merge

/-!
# Nested classes

A nested class that a map does not list follows its innermost outer class that is listed. Each `$`
of a name may end an outer class, so that a name has as many outer classes as it has separators;
going from a class to one nested directly in it puts one of them in front of the others. So what a
map makes of a nested class follows from what it makes of the class around it.
-/

namespace Relabel

/-! ## Cuts before a separator -/

/-- What stands behind a name stands behind the inner part of each of its cuts. -/
theorem nestedCutsFrom_append (seen front back : List Char) (found : List (List Char × List Char)) :
    nestedCutsFrom seen (found.map fun (outer, inner) => (outer, inner ++ back)) (front ++ back) =
      nestedCutsFrom (front.reverse ++ seen)
        ((nestedCutsFrom seen found front).map fun (outer, inner) => (outer, inner ++ back)) back := by
  induction front generalizing seen found with
  | nil => rfl
  | cons c rest ih =>
    rw [List.cons_append, nestedCutsFrom, nestedCutsFrom, List.reverse_cons, List.append_assoc,
      List.singleton_append, ← ih]
    split <;> rfl

theorem nestedCutsFrom_of_notMem {seen text : List Char} {found : List (List Char × List Char)}
    (plain : '$' ∉ text) : nestedCutsFrom seen found text = found := by
  induction text generalizing seen with
  | nil => rfl
  | cons c rest ih =>
    obtain ⟨differs, plain⟩ := not_or.1 (mt List.mem_cons.2 plain)
    rw [nestedCutsFrom, if_neg (Ne.symm differs), ih plain]

/-- A class nested directly in another one is first cut in front of its own name. -/
theorem nestedCuts_append (outer : List Char) {inner : List Char} (plain : '$' ∉ inner) :
    nestedCuts (outer ++ '$' :: inner) = (outer, '$' :: inner) ::
      (nestedCuts outer).map fun cut => (cut.1, cut.2 ++ '$' :: inner) := by
  -- The scan goes on behind the outer class, and finds one more cut there.
  have cuts := nestedCutsFrom_append [] outer ('$' :: inner) []
  rw [nestedCuts, nestedCuts]
  rw [List.map_nil, List.append_nil] at cuts
  rw [cuts, nestedCutsFrom, if_pos rfl, nestedCutsFrom_of_notMem plain, List.reverse_reverse]

namespace Names

variable {classes : Names} {outer inner name mapped resolved : String}

/-! ## Outer classes -/

/-- A class whose name is that of another one, continued behind a `$`. -/
def IsNestedIn (name outer : String) : Prop := ∃ inner, name = outer ++ "$" ++ inner

theorem isNestedIn_iff {other : String} :
    IsNestedIn name other ↔ ∃ rest, name.toList = other.toList ++ '$' :: rest := by
  constructor
  · rintro ⟨inner, rfl⟩
    exact ⟨inner.toList, by simp⟩
  · rintro ⟨rest, same⟩
    exact ⟨String.ofList rest, String.toList_inj.1 (by simp [same])⟩

theorem IsNestedIn.length_lt (nests : IsNestedIn name outer) : outer.length < name.length := by
  obtain ⟨inner, rfl⟩ := nests
  have separator : "$".length = 1 := rfl
  rw [String.length_append, String.length_append, separator]
  omega

theorem not_isNestedIn (plain : '$' ∉ name.toList) {other : String} : ¬ IsNestedIn name other := by
  rw [isNestedIn_iff]
  rintro ⟨rest, same⟩
  rw [same] at plain
  exact plain (List.mem_append_right _ List.mem_cons_self)

/-- Besides the class that it is nested directly in, a class has the outer classes of this one. -/
theorem isNestedIn_append (plain : '$' ∉ inner.toList) {other : String} :
    IsNestedIn (outer ++ "$" ++ inner) other ↔ other = outer ∨ IsNestedIn outer other := by
  have parts : (outer ++ "$" ++ inner).toList = outer.toList ++ '$' :: inner.toList := by simp
  simp only [isNestedIn_iff, parts]
  constructor
  · rintro ⟨rest, same⟩
    rcases List.append_eq_append_iff.1 same with
      ⟨_ | ⟨c, between⟩, isOther, behind⟩ | ⟨_ | ⟨c, between⟩, isOuter, behind⟩
    · exact .inl (String.toList_inj.1 (by simpa using isOther))
    · -- The separator behind the outer class would stand in the inner name.
      obtain ⟨-, isInner⟩ := List.cons.inj behind
      rw [isInner] at plain
      exact absurd (List.mem_append_right _ List.mem_cons_self) plain
    · exact .inl (String.toList_inj.1 (by simpa using isOuter.symm))
    · obtain ⟨rfl, -⟩ := List.cons.inj behind
      exact .inr ⟨between, isOuter⟩
  · rintro (rfl | ⟨rest, same⟩)
    · exact ⟨inner.toList, rfl⟩
    · exact ⟨rest ++ '$' :: inner.toList, by simp [same]⟩

/-- Each class is nested directly in another one, or in none. -/
theorem nesting_induction {motive : String → Prop}
    (topLevel : ∀ name, '$' ∉ name.toList → motive name)
    (nested : ∀ outer inner, '$' ∉ inner.toList → motive outer → motive (outer ++ "$" ++ inner))
    (name : String) : motive name := by
  cases cut : Text.splitLast? '$' name.toList with
  | none => exact topLevel name (Text.splitLast?_eq_none_iff.1 cut)
  | some parts =>
    obtain ⟨outer, inner⟩ := parts
    obtain ⟨same, plain⟩ := Text.splitLast?_eq_some_iff.1 cut
    have isName : name = String.ofList outer ++ "$" ++ String.ofList inner :=
      String.toList_inj.1 (by simp [same])
    rw [isName]
    exact nested _ _ (by simpa using plain)
      (nesting_induction topLevel nested (String.ofList outer))
termination_by name.length
decreasing_by
  -- The outer class lacks at least the separator.
  have longer := congrArg List.length same
  rw [String.length_toList, List.length_append, List.length_cons] at longer
  rw [String.length_ofList]
  omega

/-- What a map makes of a class name: its entry, else that of the innermost outer class with the
rest of the name behind it, else the name. -/
inductive Resolves (classes : Names) (name : String) : String → Prop
  | listed {mapped : String} (entry : classes[name]? = some mapped) : Resolves classes name mapped
  | nested {outer inner mapped : String} (unlisted : classes[name]? = none)
      (parts : name = outer ++ "$" ++ inner) (entry : classes[outer]? = some mapped)
      (innermost : ∀ other, IsNestedIn name other → outer.length < other.length →
        classes[other]? = none) :
      Resolves classes name (mapped ++ "$" ++ inner)
  | unknown (unlisted : classes[name]? = none)
      (noOuter : ∀ outer, IsNestedIn name outer → classes[outer]? = none) :
      Resolves classes name name

/-! ## Resolving nested classes -/

theorem nested?_append (plain : '$' ∉ inner.toList) :
    classes.nested? (outer ++ "$" ++ inner) =
      (classes[outer]?.or (classes.nested? outer)).map (· ++ "$" ++ inner) := by
  have parts : (outer ++ "$" ++ inner).toList = outer.toList ++ '$' :: inner.toList := by simp
  have behind (mapped : String) (between : List Char) :
      mapped ++ String.ofList (between ++ '$' :: inner.toList) =
        mapped ++ String.ofList between ++ "$" ++ inner := by
    apply String.toList_inj.1
    simp
  have around : (nestedCuts outer.toList).findSome? (fun cut =>
      classes[String.ofList cut.1]?.map (· ++ String.ofList (cut.2 ++ '$' :: inner.toList))) =
      (classes.nested? outer).map (· ++ "$" ++ inner) := by
    rw [nested?, List.map_findSome?]
    congr 1
    funext cut
    simp only [Function.comp_apply, Option.map_map, behind]
    rfl
  rw [nested?, parts, nestedCuts_append _ plain, List.findSome?_cons, List.findSome?_map]
  cases listed : classes[outer]? with
  | none =>
    simp only [String.ofList_toList, listed, Option.map_none, Option.none_or]
    exact around
  | some mapped =>
    have direct := behind mapped []
    simpa [listed] using direct

theorem resolve_append (plain : '$' ∉ inner.toList) :
    classes.resolve (outer ++ "$" ++ inner) =
      (classes[outer ++ "$" ++ inner]?).getD (classes.resolve outer ++ "$" ++ inner) := by
  rw [resolve, nested?_append plain, resolve]
  cases classes[outer ++ "$" ++ inner]? with
  | some mapped => rfl
  | none =>
    cases classes[outer]? with
    | some mapped => rfl
    | none => cases classes.nested? outer <;> rfl

theorem resolve_of_notMem (plain : '$' ∉ name.toList) :
    classes.resolve name = classes[name]?.getD name := by
  have noCuts : classes.nested? name = none := by
    rw [nested?, nestedCuts, nestedCutsFrom_of_notMem plain, List.findSome?_nil]
  rw [resolve, noCuts]
  cases classes[name]? <;> rfl

theorem Resolves.append (plain : '$' ∉ inner.toList) (around : Resolves classes outer resolved) :
    Resolves classes (outer ++ "$" ++ inner)
      (classes[outer ++ "$" ++ inner]?.getD (resolved ++ "$" ++ inner)) := by
  cases unlisted : classes[outer ++ "$" ++ inner]? with
  | some mapped => exact .listed unlisted
  | none =>
    rw [Option.getD_none]
    -- The class around it is the longest of its outer classes, and has all the others.
    cases around with
    | listed entry =>
      refine .nested unlisted rfl entry fun other nests longer => ?_
      rcases (isNestedIn_append plain).1 nests with rfl | nests
      · exact absurd longer (Nat.lt_irrefl _)
      · exact absurd longer (Nat.lt_asymm nests.length_lt)
    | @nested farther between mapped noEntry parts entry innermost =>
      have regroup (front : String) : front ++ "$" ++ between ++ "$" ++ inner =
          front ++ "$" ++ (between ++ "$" ++ inner) := by simp only [String.append_assoc]
      rw [regroup]
      refine .nested unlisted (parts ▸ regroup farther) entry fun other nests longer => ?_
      rcases (isNestedIn_append plain).1 nests with rfl | nests
      · exact noEntry
      · exact innermost other nests longer
    | unknown noEntry noOuter =>
      refine .unknown unlisted fun other nests => ?_
      rcases (isNestedIn_append plain).1 nests with rfl | nests
      · exact noEntry
      · exact noOuter other nests

theorem resolves_resolve (classes : Names) (name : String) :
    Resolves classes name (classes.resolve name) := by
  induction name using nesting_induction with
  | topLevel name plain =>
    rw [resolve_of_notMem plain]
    cases entry : classes[name]? with
    | some mapped => exact .listed entry
    | none => exact .unknown entry fun outer nests => absurd nests (not_isNestedIn plain)
  | nested outer inner plain ih =>
    rw [resolve_append plain]
    exact ih.append plain

/-- There is only one name that a class resolves to. -/
theorem Resolves.unique {other : String} (one : Resolves classes name resolved)
    (another : Resolves classes name other) : resolved = other := by
  have conflict {mapped : String} (unlisted : classes[name]? = none)
      (entry : classes[name]? = some mapped) : resolved = other := by
    rw [unlisted] at entry
    cases entry
  cases one with
  | listed entry =>
    cases another with
    | listed otherEntry => exact Option.some.inj (entry.symm.trans otherEntry)
    | nested unlisted | unknown unlisted => exact conflict unlisted entry
  | @nested outer inner mapped unlisted parts entry innermost =>
    cases another with
    | listed otherEntry => exact conflict unlisted otherEntry
    | @nested outer' inner' mapped' _ parts' entry' innermost' =>
      -- Neither of the two outer classes is longer than the other.
      have notLonger : ¬ outer.length < outer'.length := fun longer => by
        rw [innermost outer' ⟨inner', parts'⟩ longer] at entry'
        cases entry'
      have notShorter : ¬ outer'.length < outer.length := fun longer => by
        rw [innermost' outer ⟨inner, parts⟩ longer] at entry
        cases entry
      have split : outer.toList ++ '$' :: inner.toList = outer'.toList ++ '$' :: inner'.toList := by
        simpa using congrArg String.toList (parts.symm.trans parts')
      have sameLength : outer.toList.length = outer'.toList.length := by
        rw [String.length_toList, String.length_toList]
        exact Nat.le_antisymm (Nat.not_lt.1 notShorter) (Nat.not_lt.1 notLonger)
      obtain ⟨sameOuter, sameInner⟩ := List.append_inj split sameLength
      obtain rfl := String.toList_inj.1 sameOuter
      obtain rfl := String.toList_inj.1 (List.cons.inj sameInner).2
      rw [Option.some.inj (entry.symm.trans entry')]
    | unknown _ noOuter =>
      rw [noOuter outer ⟨inner, parts⟩] at entry
      cases entry
  | unknown unlisted noOuter =>
    cases another with
    | listed otherEntry => exact conflict unlisted otherEntry
    | @nested outer inner _ _ parts entry =>
      rw [noOuter outer ⟨inner, parts⟩] at entry
      cases entry
    | unknown => rfl

theorem resolve_eq_iff : classes.resolve name = resolved ↔ Resolves classes name resolved := by
  constructor
  · rintro rfl
    exact resolves_resolve classes name
  · exact (resolves_resolve classes name).unique

end Names

namespace SymbolTable

/-- **Nested classes follow the classes around them.** A merged table has the fields and methods of
the debug mapping, and its classes under their readable names; each is renamed to what the compact
mapping makes of its obfuscated name. A class nested directly in another one is renamed by its own
entry, or else as that one, with its own name behind it. -/
theorem merge_resolves (debug : Mapping.DebugTables) (compact : Names) :
    (merge debug compact).fields = debug.fields ∧ (merge debug compact).methods = debug.methods ∧
      (∀ readable : String, (merge debug compact).classes[readable]? =
        debug.classes[readable]?.map compact.resolve) ∧
      (∀ obfuscated resolved, compact.resolve obfuscated = resolved ↔
        compact.Resolves obfuscated resolved) ∧
      ∀ outer inner : String, '$' ∉ inner.toList →
        compact.resolve (outer ++ "$" ++ inner) =
          compact[outer ++ "$" ++ inner]?.getD (compact.resolve outer ++ "$" ++ inner) := by
  refine ⟨rfl, rfl, fun readable => ?_, fun _ _ => Names.resolve_eq_iff, fun _ _ plain =>
    Names.resolve_append plain⟩
  show (debug.classes.map fun _ obfuscated => compact.resolve obfuscated)[readable]? = _
  rw [Std.ExtTreeMap.getElem?_map]

/-- A map of a class and of another one that is nested in it twice. -/
def partlyListed : Names := ((∅ : Names).insert "a" "net/Thing").insert "a$b$" "net/Inner"

/-- The innermost class that is listed has an empty name of its own. -/
theorem merge_partlyListed :
    '$' ∉ "c".toList ∧
      (merge { classes := (∅ : Names).insert "x/Y" "a$b$$c" } partlyListed).classes["x/Y"]? =
        some "net/Inner$c" := by
  have plain : '$' ∉ "c".toList := by simp
  have isObfuscated : ((∅ : Names).insert "x/Y" "a$b$$c")["x/Y"]? = some ("a$b$" ++ "$" ++ "c") :=
    Std.ExtTreeMap.getElem?_insert_self
  obtain ⟨-, -, classes, -, nested⟩ :=
    merge_resolves { classes := (∅ : Names).insert "x/Y" "a$b$$c" } partlyListed
  refine ⟨plain, ?_⟩
  rw [classes, isObfuscated, Option.map_some, nested "a$b$" "c" plain]
  decide +kernel

end SymbolTable

end Relabel
