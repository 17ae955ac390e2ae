import Relabel.Proofs.Text.Splitting
import Relabel.SymbolTable.Basic

/-!
# Entries of name maps

What a map has for a key is the last entry with it in the list that the map was made from, and a map
is made again from the list of its entries. The owners of a map are made from the entries of the map
itself, each under the front of its key.
-/

namespace Relabel

namespace Names

theorem ofEntries_eq_ofList (entries : List (String × String)) :
    ofEntries entries = .ofList entries :=
  Std.ExtTreeMap.ofList_eq_foldl.symm

theorem ofEntries_append (entries : List (String × String)) (entry : String × String) :
    ofEntries (entries ++ [entry]) = (ofEntries entries).insert entry.1 entry.2 := by
  simp [ofEntries]

/-- Of the entries with one key the last one counts. -/
theorem getElem?_ofEntries (entries : List (String × String)) (key : String) :
    (ofEntries entries)[key]? = ((entries.filter (·.1 = key)).map Prod.snd).getLast? := by
  induction entries using List.reverseRecOn with
  | nil => simp [ofEntries]
  | append_singleton entries entry ih =>
    rw [ofEntries_append, Std.ExtTreeMap.getElem?_insert, List.filter_append, List.map_append]
    by_cases same : entry.1 = key
    · simp [same]
    · simp [same, ih]

/-- What a map has for a key is one of the entries that the map was made from. -/
theorem mem_of_getElem?_ofEntries {entries : List (String × String)} {key name : String}
    (found : (ofEntries entries)[key]? = some name) : (key, name) ∈ entries := by
  rw [getElem?_ofEntries] at found
  simpa using List.mem_of_getLast? found

/-- Every key of the entries leads somewhere. -/
theorem exists_getElem?_ofEntries {entries : List (String × String)} {entry : String × String}
    (member : entry ∈ entries) : ∃ name, (ofEntries entries)[entry.1]? = some name := by
  have isName : entry.2 ∈ (entries.filter (·.1 = entry.1)).map Prod.snd :=
    List.mem_map_of_mem (List.mem_filter.2 ⟨member, by simp⟩)
  rw [getElem?_ofEntries]
  exact ⟨_, List.getLast?_eq_some_getLast (List.ne_nil_of_mem isName)⟩

/-- A map is made of its entries. -/
theorem ofEntries_toList (names : Names) : ofEntries names.toList = names := by
  refine Std.ExtTreeMap.ext_getElem? fun key => ?_
  cases found : names[key]? with
  | some name =>
    rw [ofEntries_eq_ofList]
    exact Std.ExtTreeMap.getElem?_ofList_of_mem Std.ReflCmp.compare_self
      names.distinct_keys_toList (Std.ExtTreeMap.mem_toList_iff_getElem?_eq_some.2 found)
  | none =>
    by_contra other
    obtain ⟨name, restored⟩ := Option.ne_none_iff_exists'.1 other
    have inMap := Std.ExtTreeMap.mem_toList_iff_getElem?_eq_some.1
      (mem_of_getElem?_ofEntries restored)
    rw [found] at inMap
    cases inMap

/-! ## Owners -/

/-- An entry under the front of its key. -/
def underOwner (separator : Char) (entry : String × String) : Option (String × String) :=
  (Text.splitLast? separator entry.1.toList).map fun cut => (String.ofList cut.1, entry.2)

theorem byOwner_eq (separator : Char) (names : Names) :
    names.byOwner separator = ofEntries (names.toList.filterMap (underOwner separator)) := by
  rw [byOwner, Std.ExtTreeMap.foldl_eq_foldl_toList, ofEntries, List.foldl_filterMap]
  congr 1
  funext owners entry
  cases cut : Text.splitLast? separator entry.1.toList <;> simp [underOwner, cut]

/-- The owner that a key is listed under. -/
def ownerOf? (separator : Char) (key : String) : Option String :=
  (Text.splitLast? separator key.toList).map fun cut => String.ofList cut.1

theorem ownerOf?_eq_some_iff {separator : Char} {key owner : String} :
    ownerOf? separator key = some owner ↔
      ∃ rest, Text.splitLast? separator key.toList = some (owner.toList, rest) := by
  constructor
  · intro under
    obtain ⟨⟨front, rest⟩, cut, rfl⟩ := Option.map_eq_some_iff.1 under
    exact ⟨rest, by rw [cut, String.toList_ofList]⟩
  · intro ⟨rest, cut⟩
    simp [ownerOf?, cut]

variable {separator : Char} {names : Names} {owner name : String}

/-- The entries under an owner, in the order of their keys. -/
def under (separator : Char) (owner : String) (names : Names) : List (String × String) :=
  names.toList.filter fun entry => ownerOf? separator entry.1 = some owner

theorem mem_under_iff {key : String} :
    (key, name) ∈ names.under separator owner ↔
      names[key]? = some name ∧ ownerOf? separator key = some owner := by
  simp [under, Std.ExtTreeMap.mem_toList_iff_getElem?_eq_some]

theorem getElem?_byOwner :
    (names.byOwner separator)[owner]? = ((names.under separator owner).map Prod.snd).getLast? := by
  rw [byOwner_eq, getElem?_ofEntries, under]
  congr 1
  induction names.toList with
  | nil => rfl
  | cons entry entries ih =>
    cases cut : Text.splitLast? separator entry.1.toList with
    | none => simpa [underOwner, ownerOf?, cut] using ih
    | some parts =>
      by_cases same : String.ofList parts.1 = owner
      · simpa [underOwner, ownerOf?, cut, same] using ih
      · simpa [underOwner, ownerOf?, cut, same] using ih

theorem byOwner_eq_none_iff :
    (names.byOwner separator)[owner]? = none ↔
      ∀ key name, names[key]? = some name → ownerOf? separator key ≠ some owner := by
  rw [getElem?_byOwner, List.getLast?_eq_none_iff, List.map_eq_nil_iff,
    List.eq_nil_iff_forall_not_mem, Prod.forall]
  simp only [mem_under_iff, not_and]

/-- What stands under an owner stands in the map under the greatest key with this owner. -/
theorem exists_greatest_of_byOwner (found : (names.byOwner separator)[owner]? = some name) :
    ∃ key, names[key]? = some name ∧ ownerOf? separator key = some owner ∧
      ∀ other name', names[other]? = some name' → ownerOf? separator other = some owner →
        other ≤ key := by
  rw [getElem?_byOwner, List.getLast?_map, Option.map_eq_some_iff] at found
  obtain ⟨⟨key, name⟩, last, rfl⟩ := found
  obtain ⟨isEntry, isUnder⟩ := mem_under_iff.1 (List.mem_of_getLast? last)
  refine ⟨key, isEntry, isUnder, fun other name' isOther underToo => ?_⟩
  have isMember := mem_under_iff.2 ⟨isOther, underToo⟩
  -- The entries of a map are in the order of their keys, and those under an owner as well.
  have ordered : (names.under separator owner).Pairwise fun one other =>
      compare one.1 other.1 = .lt := Std.ExtTreeMap.ordered_keys_toList.filter _
  obtain ⟨front, split⟩ := List.getLast?_eq_some_iff.1 last
  rw [split] at isMember ordered
  obtain inFront | isLast := List.mem_append.1 isMember
  · have less := (List.pairwise_append.1 ordered).2.2 _ inFront _ (List.mem_singleton_self _)
    exact le_of_lt (compare_lt_iff_lt.1 less)
  · cases List.mem_singleton.1 isLast
    exact le_refl key

/-- What stands under an owner stands in the map under a key that starts with this owner. -/
theorem exists_of_byOwner (found : (names.byOwner separator)[owner]? = some name) :
    ∃ (key : String) (rest : List Char), names[key]? = some name ∧
      Text.splitLast? separator key.toList = some (owner.toList, rest) := by
  obtain ⟨key, isEntry, isUnder, -⟩ := exists_greatest_of_byOwner found
  obtain ⟨rest, cut⟩ := ownerOf?_eq_some_iff.1 isUnder
  exact ⟨key, rest, isEntry, cut⟩

end Names

end Relabel
