import Mathlib
import Relabel.Project.Batch
import Relabel.Proofs.Descriptors
import Relabel.Proofs.Project.FileTree

/-!
# Places

The components of a path lead to one place, wherever there are folders for all of them. In a
well-formed tree everything stands in a folder and has a name that can be part of a path, so that
each file and each folder below an input is found at its own place again.
-/

namespace Relabel

namespace Path

/-! ## Names -/

/-- A name that an entry of a folder can have. -/
structure IsName (name : String) : Prop where
  nonempty : name ≠ ""
  notDot : name ≠ "."
  notParent : name ≠ ".."
  noSlash : '/' ∉ name.toList
  noNul : '\x00' ∉ name.toList
  fits : nameFits name = true

instance (name : String) : Decidable (IsName name) :=
  decidable_of_iff (name ≠ "" ∧ name ≠ "." ∧ name ≠ ".." ∧ '/' ∉ name.toList ∧
      '\x00' ∉ name.toList ∧ nameFits name = true)
    ⟨fun ⟨nonempty, notDot, notParent, noSlash, noNul, fits⟩ =>
        ⟨nonempty, notDot, notParent, noSlash, noNul, fits⟩,
      fun isName => ⟨isName.nonempty, isName.notDot, isName.notParent, isName.noSlash,
        isName.noNul, isName.fits⟩⟩

theorem IsName.notVoid {name : String} (isName : IsName name) : isVoid name.toList = false := by
  have nonempty : name.toList ≠ [] := by simpa using isName.nonempty
  have notDot : name.toList ≠ ['.'] := fun same => isName.notDot (String.toList_injective same)
  simp [isVoid, nonempty, notDot]

/-- The components between the slashes of a text. -/
def componentsOf (text : List Char) : List String :=
  ((text.splitOn '/').filter fun segment => !isVoid segment).map String.ofList

theorem components_eq (path : Path) : path.components = componentsOf path.text.toList := rfl

theorem componentsOf_append (front back : List Char) :
    componentsOf (front ++ '/' :: back) = componentsOf front ++ componentsOf back := by
  rw [componentsOf, List.splitOn_append_cons_self, List.filter_append, List.map_append]
  rfl

theorem componentsOf_names {names : List String} (areNames : ∀ name ∈ names, IsName name) :
    componentsOf (['/'].intercalate (names.map String.toList)) = names := by
  by_cases empty : names = []
  · subst empty
    rfl
  · have noSlash : ∀ segment ∈ names.map String.toList, '/' ∉ segment := by
      intro segment isSegment
      obtain ⟨name, isMember, rfl⟩ := List.mem_map.1 isSegment
      exact (areNames name isMember).noSlash
    have notVoid : ∀ segment ∈ names.map String.toList, (!isVoid segment) = true := by
      intro segment isSegment
      obtain ⟨name, isMember, rfl⟩ := List.mem_map.1 isSegment
      rw [(areNames name isMember).notVoid, Bool.not_false]
    rw [componentsOf, List.splitOn_intercalate '/' noSlash (by simpa using empty),
      List.filter_eq_self.2 notVoid, List.map_map]
    simp

theorem components_join (path : Path) (below : String) :
    (path.join below).components = path.components ++ componentsOf below.toList := by
  simp only [join, components_eq]
  split
  · next atEnd =>
    rw [String.toList_append]
    rw [Bool.or_eq_true, decide_eq_true_iff] at atEnd
    rcases atEnd with empty | isSlash
    · rw [List.isEmpty_iff.1 empty]
      rfl
    · obtain ⟨front, text_eq⟩ := List.getLast?_eq_some_iff.1 isSlash
      have last : componentsOf [] = [] := rfl
      rw [text_eq, List.append_assoc, List.singleton_append, componentsOf_append,
        componentsOf_append, last, List.append_nil]
  · rw [String.toList_append, String.toList_append, List.append_assoc]
    exact componentsOf_append _ _

theorem components_below (folder : Path) {names : List String}
    (areNames : ∀ name ∈ names, IsName name) :
    (Project.below folder names).components = folder.components ++ names := by
  rw [Project.below, components_join, String.toList_intercalate]
  exact congrArg _ (componentsOf_names areNames)

theorem length_le_utf8ByteSize (text : String) : text.toList.length ≤ text.utf8ByteSize := by
  rw [← String.utf8Len_toList]
  induction text.toList with
  | nil => exact Nat.zero_le _
  | cons c rest ih =>
    have positive := c.utf8Size_pos
    rw [List.length_cons, String.utf8Len_cons]
    omega

theorem length_le_intercalate {names : List String} (areNames : ∀ name ∈ names, IsName name) :
    names.length ≤ (['/'].intercalate (names.map String.toList)).length := by
  induction names with
  | nil => exact Nat.zero_le _
  | cons name rest ih =>
    have later := ih fun other isMember => areNames other (List.mem_cons_of_mem _ isMember)
    have positive : 0 < name.toList.length :=
      List.length_pos_iff.2 (by simpa using (areNames name List.mem_cons_self).nonempty)
    by_cases empty : rest = []
    · rw [empty, List.map_singleton, List.intercalate_singleton]
      exact positive
    · rw [List.map_cons, List.intercalate_cons_of_ne_nil (by simpa using empty)]
      simp only [List.length_cons, List.length_append, List.length_nil]
      omega

/-- A path that is not too long has not too many names. -/
theorem length_le_of_isUsable {folder : Path} {names : List String}
    (areNames : ∀ name ∈ names, IsName name) (usable : (Project.below folder names).isUsable) :
    names.length ≤ longestPath := by
  have fits : (Project.below folder names).text.utf8ByteSize ≤ longestPath := by
    simp only [isUsable, Bool.and_eq_true, decide_eq_true_eq] at usable
    exact usable.1.2
  have ofNames := (length_le_intercalate areNames).trans
    (String.toList_intercalate ▸ length_le_utf8ByteSize ("/".intercalate names))
  have ofPath : ("/".intercalate names).utf8ByteSize ≤
      (Project.below folder names).text.utf8ByteSize := by
    simp only [Project.below, join]
    split <;> simp only [String.utf8ByteSize_append] <;> omega
  omega

/-- A component of a path is a name, unless it leads back. -/
theorem isName_of_mem_components {path : Path} {component : String} (usable : path.isUsable)
    (isComponent : component ∈ path.components) (notParent : component ≠ "..")
    (fits : nameFits component) : IsName component := by
  obtain ⟨segment, isSegment, rfl⟩ := List.mem_map.1 isComponent
  obtain ⟨isSegment, notVoid⟩ := List.mem_filter.1 isSegment
  simp only [isVoid, Bool.not_eq_true', Bool.or_eq_false_iff, decide_eq_false_iff_not] at notVoid
  simp only [isUsable, Bool.and_eq_true, Bool.not_eq_true', List.contains_eq_mem,
    decide_eq_false_iff_not] at usable
  constructor
  case nonempty => simpa using notVoid.1
  case notDot =>
    intro same
    exact notVoid.2 (by simpa using congrArg String.toList same)
  case notParent => exact notParent
  case noSlash => simpa using Text.notMem_of_mem_splitOn isSegment
  case noNul =>
    rw [String.toList_ofList]
    exact fun isNul => usable.2 (Text.mem_of_mem_splitOn isSegment isNul)
  case fits => exact fits

/-! ## Places -/

/-- The place that a path leads to if there are folders on its way. -/
def place (path : Path) : Location := path.components.foldl FileTree.next []

theorem place_eq_of_same {path other : Path} (same : path.same other) :
    path.place = other.place := by
  simp only [Path.same, Bool.and_eq_true, decide_eq_true_eq] at same
  rw [place, same.2, ← place]

/-- Paths that lead to the same place need not be the same: a dot counts at the start of a path. -/
example :
    Path.place ⟨"in/A.class"⟩ = Path.place ⟨"./in//A.class"⟩ ∧
      ¬Path.same ⟨"in/A.class"⟩ ⟨"./in//A.class"⟩ ∧
      Path.same ⟨"./in/A.class"⟩ ⟨"./in//A.class"⟩ := by
  decide +kernel

theorem foldl_next {names : List String} (areNames : ∀ name ∈ names, IsName name)
    (location : Location) : names.foldl FileTree.next location = location ++ names := by
  induction names generalizing location with
  | nil => simp
  | cons name rest ih =>
    have isName := areNames name List.mem_cons_self
    rw [List.foldl_cons, ih fun other isMember => areNames other (List.mem_cons_of_mem _ isMember),
      FileTree.next, if_neg isName.notParent, List.append_assoc, List.singleton_append]

theorem place_below (folder : Path) {names : List String}
    (areNames : ∀ name ∈ names, IsName name) :
    (Project.below folder names).place = folder.place ++ names := by
  rw [place, components_below folder areNames, List.foldl_append, ← place, foldl_next areNames]

end Path

namespace FileTree

theorem follow?_eq {tree : FileTree} {components : List String} {start location : Location}
    (followed : tree.follow? start components = some location) :
    location = components.foldl next start := by
  induction components generalizing start with
  | nil => exact (Option.some.inj followed).symm
  | cons component rest ih =>
    rw [follow?] at followed
    split at followed
    · split at followed
      · exact ih followed
      · cases followed
    · cases followed

theorem locate?_eq {tree : FileTree} {path : Path} {location : Location}
    (located : tree.locate? path = some location) : location = path.place := by
  unfold locate? at located
  split at located
  · exact follow?_eq located
  · cases located

theorem isFolder_iff {tree : FileTree} {path : Path} :
    tree.isFolder path ↔
      tree.locate? path = some path.place ∧ tree.at? path.place = some .folder := by
  simp only [isFolder, decide_eq_true_iff, find?, Option.bind_eq_bind, Option.bind_eq_some_iff]
  constructor
  · rintro ⟨location, located, entry, isEntry, isFolder⟩
    obtain rfl := locate?_eq located
    refine ⟨located, ?_⟩
    cases entry with
    | folder => exact isEntry
    | file content =>
      simp only at isFolder
      split at isFolder <;> cases isFolder
  · rintro ⟨located, isFolder⟩
    exact ⟨_, located, _, isFolder, rfl⟩

theorem follow?_append (tree : FileTree) (start : Location) (front back : List String) :
    tree.follow? start (front ++ back) =
      (tree.follow? start front).bind fun middle => tree.follow? middle back := by
  induction front generalizing start with
  | nil => rfl
  | cons component rest ih =>
    simp only [List.cons_append, follow?]
    split
    · split
      · exact ih _
      · rfl
    · rfl

/-! ## Well-formed trees -/

/-- Everything in a tree has a name and stands in a folder. -/
structure WellFormed (tree : FileTree) : Prop where
  names : ∀ location : Location, (tree.at? location).isSome → ∀ name ∈ location, Path.IsName name
  parents : ∀ (location : Location) (name : String), (tree.at? (location ++ [name])).isSome →
    tree.at? location = some .folder

/-- The top, and all other locations where something stands. -/
def locations (tree : FileTree) : List Location := [] :: tree.entries.keys

theorem mem_locations {tree : FileTree} {location : Location} :
    location ∈ tree.locations ↔ (tree.at? location).isSome := by
  by_cases isTop : location = []
  · simp [locations, at?, isTop]
  · simp [locations, at?, isTop]

instance (tree : FileTree) : Decidable tree.WellFormed :=
  decidable_of_iff (∀ location ∈ tree.locations, (∀ name ∈ location, Path.IsName name) ∧
      tree.at? location.dropLast = some .folder)
    ⟨fun all =>
      ⟨fun location isEntry => (all location (mem_locations.2 isEntry)).1,
        fun location name isEntry => by
          simpa using (all (location ++ [name]) (mem_locations.2 isEntry)).2⟩,
      fun wellFormed location isLocation => by
        have isEntry := mem_locations.1 isLocation
        refine ⟨wellFormed.names location isEntry, ?_⟩
        cases location using List.reverseRecOn with
        | nil => rfl
        | append_singleton front name =>
          rw [List.dropLast_concat]
          exact wellFormed.parents front name isEntry⟩

theorem WellFormed.areNames {tree : FileTree} (wellFormed : tree.WellFormed) {location : Location}
    {names : List String} (isEntry : (tree.at? (location ++ names)).isSome) :
    ∀ name ∈ names, Path.IsName name :=
  fun name isMember => wellFormed.names _ isEntry name (List.mem_append_right _ isMember)

/-- What something stands below is a folder. -/
theorem WellFormed.isFolder_above {tree : FileTree} (wellFormed : tree.WellFormed)
    {location : Location} {more : List String} (nonempty : more ≠ [])
    (isEntry : (tree.at? (location ++ more)).isSome) : tree.at? location = some .folder := by
  induction more using List.reverseRecOn with
  | nil => exact absurd rfl nonempty
  | append_singleton front name ih =>
    rw [← List.append_assoc] at isEntry
    have isFolder := wellFormed.parents _ name isEntry
    by_cases empty : front = []
    · rwa [empty, List.append_nil] at isFolder
    · exact ih empty (by rw [isFolder]; rfl)

/-- Names lead to what stands below a location by them. -/
theorem WellFormed.follow?_names {tree : FileTree} (wellFormed : tree.WellFormed)
    {location : Location} {names : List String}
    (isEntry : (tree.at? (location ++ names)).isSome) :
    tree.follow? location names = some (location ++ names) := by
  have areNames := wellFormed.names _ isEntry
  induction names generalizing location with
  | nil => simp [follow?]
  | cons name rest ih =>
    have isFolder := wellFormed.isFolder_above (List.cons_ne_nil name rest) isEntry
    have isName := areNames name (by simp)
    rw [follow?, isFolder]
    simp only [isName.fits, if_true, next, if_neg isName.notParent]
    rw [List.append_cons location name rest] at isEntry areNames ⊢
    exact ih isEntry areNames

/-- What stands below an input is found by the names that lead to it. -/
theorem WellFormed.locate?_below {tree : FileTree} (wellFormed : tree.WellFormed) {input : Path}
    {names : List String} (isFolder : tree.isFolder input)
    (isEntry : (tree.at? (input.place ++ names)).isSome)
    (usable : (Project.below input names).isUsable) :
    tree.locate? (Project.below input names) = some (input.place ++ names) := by
  have areNames := wellFormed.areNames isEntry
  obtain ⟨located, -⟩ := isFolder_iff.1 isFolder
  unfold locate? at located
  split at located
  · rw [locate?, if_pos usable, Path.components_below input areNames, follow?_append, located]
    exact wellFormed.follow?_names isEntry
  · cases located

end FileTree

end Relabel
