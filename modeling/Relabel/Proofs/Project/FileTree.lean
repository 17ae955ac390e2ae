import Mathlib
import Relabel.Project.FileTree

/-!
# Growing file trees

Writing a file and creating folders never remove anything, and no file takes the place of a folder.
So a path that leads somewhere leads there for good, although the file that it names may be written
again.
-/

namespace Relabel

namespace FileTree

/-! ## Single entries -/

theorem at?_put {tree : FileTree} {location : Location} (inside : location ≠ []) (entry : Entry)
    (other : Location) :
    (tree.put location entry).at? other =
      if other = location then some entry else tree.at? other := by
  cases other with
  | nil => simp [at?, inside.symm]
  | cons name names =>
    simp only [at?, put, List.isEmpty_cons, Bool.false_eq_true, if_false,
      Std.ExtTreeMap.getElem?_insert, Std.compare_eq_iff_eq]
    by_cases same : name :: names = location
    · rw [if_pos same, if_pos same.symm]
    · rw [if_neg same, if_neg (Ne.symm same)]

/-- The top is a folder, so that what is no folder is below it. -/
theorem ne_nil_of_at?_ne_folder {tree : FileTree} {location : Location}
    (notFolder : tree.at? location ≠ some .folder) : location ≠ [] := by
  rintro rfl
  exact notFolder rfl

/-! ## Growing -/

/-- All folders are there still. -/
def Grows (old new : FileTree) : Prop :=
  ∀ location : Location, old.at? location = some .folder → new.at? location = some .folder

theorem Grows.refl (tree : FileTree) : Grows tree tree := fun _ isFolder => isFolder

theorem Grows.trans {old middle new : FileTree} (first : Grows old middle)
    (second : Grows middle new) : Grows old new :=
  fun location isFolder => second location (first location isFolder)

theorem put_grows {tree : FileTree} {location : Location}
    (notFolder : tree.at? location ≠ some .folder) (entry : Entry) :
    Grows tree (tree.put location entry) := by
  intro other isFolder
  rw [at?_put (ne_nil_of_at?_ne_folder notFolder), if_neg, isFolder]
  rintro rfl
  exact notFolder isFolder

/-- A way through folders goes through the same folders later. -/
theorem Grows.follow? {old new : FileTree} (grows : Grows old new) {components : List String}
    {start place : Location} (followed : old.follow? start components = some place) :
    new.follow? start components = some place := by
  induction components generalizing start with
  | nil => exact followed
  | cons component rest ih =>
    -- The new tree has a folder wherever the way through the old one needs one.
    rw [FileTree.follow?] at followed ⊢
    split at followed
    · next isFolder =>
      rw [grows start isFolder]
      simp only
      split at followed
      · next fits =>
        rw [if_pos fits]
        exact ih followed
      · cases followed
    · cases followed

theorem Grows.locate? {old new : FileTree} (grows : Grows old new) {path : Path} {place : Location}
    (located : old.locate? path = some place) : new.locate? path = some place := by
  unfold FileTree.locate? at located ⊢
  split at located
  · next usable =>
    rw [if_pos usable]
    exact grows.follow? located
  · cases located

/-! ## Reading and writing -/

/-- What is read is the file at the place that the path leads to. -/
theorem locate?_of_read? {tree : FileTree} {path : Path} {content : Bytes}
    (read : tree.read? path = some content) :
    ∃ location, tree.locate? path = some location ∧
      tree.at? location = some (.file content) := by
  unfold read? at read
  split at read
  · next found isFile =>
    cases read
    simp only [find?, Option.bind_eq_bind, Option.bind_eq_some_iff] at isFile
    obtain ⟨location, located, entry, isEntry, isFile⟩ := isFile
    refine ⟨location, located, ?_⟩
    cases entry with
    | folder => cases isFile
    | file other =>
      simp only at isFile
      split at isFile
      · cases isFile
      · cases isFile
        exact isEntry
  · cases read

theorem write?_eq_some {tree after : FileTree} {path : Path} {content : Bytes}
    (written : tree.write? path content = some after) :
    ∃ location, tree.locate? path = some location ∧ tree.at? location ≠ some .folder ∧
      after = tree.put location (.file content) := by
  unfold write? at written
  split at written
  · cases written
  · simp only [Option.bind_eq_bind, Option.bind_eq_some_iff] at written
    obtain ⟨location, located, written⟩ := written
    refine ⟨location, located, ?_⟩
    split at written
    · cases written
    · next notFolder =>
      cases written
      exact ⟨notFolder, rfl⟩

/-- What has been written is read again. -/
theorem read?_of_write? {tree after : FileTree} {path : Path} {content : Bytes}
    (written : tree.write? path content = some after) : after.read? path = some content := by
  obtain ⟨location, located, notFolder, rfl⟩ := write?_eq_some written
  have isFile : (tree.put location (.file content)).at? location = some (.file content) := by
    rw [at?_put (ne_nil_of_at?_ne_folder notFolder), if_pos rfl]
  have isWritable : path.endsVoid = false := by
    by_contra isVoid
    rw [write?, if_pos (by simpa using isVoid)] at written
    cases written
  simp [read?, find?, (put_grows notFolder _).locate? located, isFile, isWritable]

theorem write?_grows {tree after : FileTree} {path : Path} {content : Bytes}
    (written : tree.write? path content = some after) : Grows tree after := by
  obtain ⟨location, -, notFolder, rfl⟩ := write?_eq_some written
  exact put_grows notFolder _

/-! ## Creating folders -/

theorem createFrom_grows (tree : FileTree) (location : Location) (components : List String) :
    Grows tree (tree.createFrom location components).1 := by
  induction components generalizing tree location with
  | nil => exact Grows.refl tree
  | cons component rest ih =>
    simp only [createFrom]
    -- The folder is there, a file is in its place, or it has to be made.
    split
    · exact ih tree _
    · exact Grows.refl tree
    · next missing =>
      split
      · have added := put_grows (by rw [missing]; nofun) Entry.folder
        exact added.trans (ih _ _)
      · exact Grows.refl tree

theorem createFolder_grows (tree : FileTree) (path : Path) :
    Grows tree (tree.createFolder path).1 := by
  unfold createFolder
  split
  · exact Grows.refl tree
  · split
    · exact createFrom_grows tree [] path.components
    · exact Grows.refl tree

end FileTree

end Relabel
