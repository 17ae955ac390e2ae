import Mathlib
import Relabel.Proofs.Project.Places
import Relabel.Proofs.Project.Visits

/-!
# What is written

Relabelling a file writes one file at most, the one at the place of the output path; besides, it may
create folders. All other files are left alone, nothing is removed, and a well-formed tree stays
well-formed. What is written depends on the bytes that have been read and on nothing else.
-/

namespace Relabel

namespace FileTree

/-! ## Contents -/

/-- The content of the file at a location, if there is a file. -/
def contentAt? (tree : FileTree) (location : Location) : Option Bytes :=
  match tree.at? location with
  | some (.file content) => some content
  | _ => none

theorem contentAt?_eq_some_iff {tree : FileTree} {location : Location} {content : Bytes} :
    tree.contentAt? location = some content ↔ tree.at? location = some (.file content) := by
  unfold contentAt?
  split
  · next other isFile => simp [isFile]
  · next notFile =>
    constructor
    · exact nofun
    · exact fun isFile => absurd isFile (notFile content)

theorem contentAt?_of_read? {tree : FileTree} {path : Path} {content : Bytes}
    (read : tree.read? path = some content) : tree.contentAt? path.place = some content := by
  obtain ⟨location, located, isFile⟩ := locate?_of_read? read
  obtain rfl := locate?_eq located
  exact contentAt?_eq_some_iff.2 isFile

theorem contentAt?_of_folder {tree : FileTree} {location : Location}
    (isFolder : tree.at? location = some .folder) : tree.contentAt? location = none := by
  rw [contentAt?, isFolder]

/-- What has a content is an entry. -/
theorem isSome_at?_of_contentAt? {tree : FileTree} {location : Location}
    (isFile : (tree.contentAt? location).isSome) : (tree.at? location).isSome := by
  obtain ⟨content, isContent⟩ := Option.isSome_iff_exists.1 isFile
  rw [contentAt?_eq_some_iff.1 isContent]
  rfl

theorem contentAt?_put {tree : FileTree} {location : Location} (inside : location ≠ [])
    (entry : Entry) {other : Location} (differs : other ≠ location) :
    (tree.put location entry).contentAt? other = tree.contentAt? other := by
  rw [contentAt?, at?_put inside, if_neg differs, contentAt?]

/-! ## Writing at places -/

/-- No files have been written other than at some targets, and nothing has been removed. -/
structure WritesAt (targets : List Location) (old new : FileTree) : Prop where
  grows : old.Grows new
  wellFormed : old.WellFormed → new.WellFormed
  remains : ∀ location, (old.contentAt? location).isSome → (new.contentAt? location).isSome
  same : ∀ location, location ∉ targets → new.contentAt? location = old.contentAt? location

theorem WritesAt.refl (targets : List Location) (tree : FileTree) : WritesAt targets tree tree where
  grows := .refl tree
  wellFormed := id
  remains _ := id
  same _ _ := rfl

theorem WritesAt.trans {first second : List Location} {old middle new : FileTree}
    (before : WritesAt first old middle) (after : WritesAt second middle new) :
    WritesAt (first ++ second) old new where
  grows := before.grows.trans after.grows
  wellFormed := after.wellFormed ∘ before.wellFormed
  remains location := after.remains location ∘ before.remains location
  same location outside := by
    rw [List.mem_append, not_or] at outside
    exact (after.same location outside.2).trans (before.same location outside.1)

section

variable {tree : FileTree} {location : Location}

/-- From a folder, only a name leads to something that is no folder. -/
theorem WellFormed.next_eq (wellFormed : tree.WellFormed)
    (isFolder : tree.at? location = some .folder) {component : String}
    (notFolder : tree.at? (next location component) ≠ some .folder) :
    component ≠ ".." ∧ next location component = location ++ [component] := by
  by_cases back : component = ".."
  · rw [next, if_pos back] at notFolder
    refine absurd ?_ notFolder
    cases location using List.reverseRecOn with
    | nil => rfl
    | append_singleton front name =>
      rw [List.dropLast_concat]
      exact wellFormed.parents front name (by rw [isFolder]; rfl)
  · exact ⟨back, if_neg back⟩

theorem WellFormed.put (wellFormed : tree.WellFormed) (isFolder : tree.at? location = some .folder)
    {name : String} (isName : Path.IsName name)
    (notFolder : tree.at? (location ++ [name]) ≠ some .folder) (entry : Entry) :
    (tree.put (location ++ [name]) entry).WellFormed := by
  have inside : location ++ [name] ≠ [] := by simp
  constructor
  · intro other isEntry
    rw [at?_put inside] at isEntry
    split at isEntry
    · next same =>
      intro component isComponent
      rw [same, List.mem_append, List.mem_singleton] at isComponent
      rcases isComponent with above | rfl
      · exact wellFormed.names location (by rw [isFolder]; rfl) component above
      · exact isName
    · exact wellFormed.names other isEntry
  · intro other last isEntry
    rw [at?_put inside] at isEntry
    split at isEntry
    · next same =>
      obtain ⟨rfl, -⟩ := List.append_inj' same rfl
      exact put_grows notFolder entry _ isFolder
    · exact put_grows notFolder entry _ (wellFormed.parents other last isEntry)

/-- A new folder is no file. -/
theorem put_folder_writesAt (missing : tree.at? location = none)
    (keeps : tree.WellFormed → (tree.put location .folder).WellFormed) :
    WritesAt [] tree (tree.put location .folder) := by
  have notFolder : tree.at? location ≠ some .folder := by simp [missing]
  have inside := ne_nil_of_at?_ne_folder notFolder
  have same (other : Location) :
      (tree.put location .folder).contentAt? other = tree.contentAt? other := by
    by_cases isHere : other = location
    · rw [isHere, contentAt?, contentAt?, at?_put inside, if_pos rfl, missing]
    · exact contentAt?_put inside _ isHere
  exact ⟨put_grows notFolder _, keeps, fun other isFile => by rwa [same], fun other _ => same other⟩

/-- Components that are names or lead back, if they are not too long. -/
def AreSteps (components : List String) : Prop :=
  ∀ component ∈ components, component ≠ ".." → Path.nameFits component → Path.IsName component

theorem areSteps_components {path : Path} (usable : path.isUsable) : AreSteps path.components :=
  fun _ isComponent => Path.isName_of_mem_components usable isComponent

theorem createFrom_writesAt {components : List String} (areSteps : AreSteps components)
    (isFolder : tree.at? location = some .folder) :
    WritesAt [] tree (tree.createFrom location components).1 := by
  induction components generalizing tree location with
  | nil => exact .refl [] tree
  | cons component rest ih =>
    have areLater : AreSteps rest := fun other isOther =>
      areSteps other (List.mem_cons_of_mem _ isOther)
    simp only [createFrom]
    split
    · next isFolder => exact ih areLater isFolder
    · exact .refl [] tree
    · next missing =>
      split
      · next fits =>
        have notFolder : tree.at? (next location component) ≠ some .folder := by simp [missing]
        have isNew : (tree.put (next location component) .folder).at? (next location component) =
            some .folder := by
          rw [at?_put (ne_nil_of_at?_ne_folder notFolder), if_pos rfl]
        have added : WritesAt [] tree (tree.put (next location component) .folder) := by
          apply put_folder_writesAt missing
          intro wellFormed
          obtain ⟨notBack, isBelow⟩ := wellFormed.next_eq isFolder notFolder
          rw [isBelow] at notFolder ⊢
          exact wellFormed.put isFolder (areSteps component List.mem_cons_self notBack fits)
            notFolder _
        exact added.trans (ih areLater isNew)
      · exact .refl [] tree

theorem createFolder_writesAt (tree : FileTree) (path : Path) :
    WritesAt [] tree (tree.createFolder path).1 := by
  unfold createFolder
  split
  · exact .refl [] tree
  · split
    · next usable => exact createFrom_writesAt (areSteps_components usable) rfl
    · exact .refl [] tree

/-- What is no folder stands in the last folder on the way to it. -/
theorem WellFormed.follow?_parent (wellFormed : tree.WellFormed) {components : List String}
    (areSteps : AreSteps components) (isFolder : tree.at? location = some .folder)
    {place : Location} (followed : tree.follow? location components = some place)
    (notFolder : tree.at? place ≠ some .folder) :
    ∃ parent name, place = parent ++ [name] ∧ tree.at? parent = some .folder ∧
      Path.IsName name := by
  induction components generalizing location with
  | nil =>
    cases followed
    exact absurd isFolder notFolder
  | cons component rest ih =>
    rw [follow?, isFolder] at followed
    simp only at followed
    split at followed
    · next fits =>
      by_cases goesOn : tree.at? (next location component) = some .folder
      · exact ih (fun other isOther => areSteps other (List.mem_cons_of_mem _ isOther)) goesOn
          followed
      · obtain ⟨notBack, isBelow⟩ := wellFormed.next_eq isFolder goesOn
        cases rest with
        | nil =>
          cases followed
          exact ⟨location, component, isBelow, isFolder,
            areSteps component List.mem_cons_self notBack fits⟩
        | cons second rest =>
          rw [follow?] at followed
          split at followed
          · next isFolder => exact absurd isFolder goesOn
          · cases followed
    · cases followed

theorem write?_writesAt {after : FileTree} {path : Path} {content : Bytes}
    (written : tree.write? path content = some after) :
    WritesAt [path.place] tree after ∧ after.contentAt? path.place = some content := by
  obtain ⟨location, located, notFolder, rfl⟩ := write?_eq_some written
  obtain rfl := locate?_eq located
  have inside := ne_nil_of_at?_ne_folder notFolder
  have isWritten : (tree.put path.place (.file content)).contentAt? path.place = some content := by
    rw [contentAt?_eq_some_iff, at?_put inside, if_pos rfl]
  refine ⟨⟨put_grows notFolder _, ?_, ?_, ?_⟩, isWritten⟩
  · intro wellFormed
    unfold locate? at located
    split at located
    · next usable =>
      obtain ⟨parent, name, isBelow, isFolder, isName⟩ :=
        wellFormed.follow?_parent (areSteps_components usable) rfl located notFolder
      rw [isBelow] at notFolder ⊢
      exact wellFormed.put isFolder isName notFolder _
    · cases located
  · intro other isFile
    by_cases isHere : other = path.place
    · rw [isHere, isWritten]
      rfl
    · rwa [contentAt?_put inside _ isHere]
  · intro other outside
    exact contentAt?_put inside _ (by simpa using outside)

end

end FileTree

namespace Project

/-! ## Relabelling files -/

open FileTree

theorem relabelFile_writesAt (input output : Path) (state : Project × FileTree) :
    WritesAt [output.place] state.2 (relabelFile input output state).2.2 := by
  obtain ⟨project, tree⟩ := state
  have run := relabelFile_run input output project tree
  have created := createFolder_writesAt tree output.parent
  generalize relabelFile input output (project, tree) = done at run ⊢
  obtain ⟨result, after⟩ := done
  cases run with
  | @denied path after left =>
    show WritesAt [output.place] tree after
    cases left with
    | inl same =>
      rw [same]
      exact .refl _ tree
    | inr grown =>
      rw [grown]
      exact created.trans (.refl _ _)
  | fault => exact .refl _ tree
  | unchanged => exact .refl _ tree
  | changed _ _ _ written => exact (write?_writesAt written).1
  | copied _ _ _ written => exact created.trans (write?_writesAt written).1

/-- What a file holds once the class file with this content has been relabelled into it. -/
def resultOf (relabelled : Except Pass.Error (Option Bytes)) (content : Bytes)
    (before : Option Bytes) : Option Bytes :=
  match relabelled with
  | .ok (some new) => some new
  | .ok none => some content
  | .error _ => before

/-- What the relabelling of the class file at this path says. -/
def saying (path : Path) : Except Pass.Error (Option Bytes) → Except Error Bool
  | .ok relabelled => .ok relabelled.isSome
  | .error cause => .error (.relabel path cause)

/-- If no file operation fails, the content of the input tells what happens. -/
theorem relabelFile_of_accessed {input output : Path} {state : Project × FileTree}
    (accessed : ∀ path, (relabelFile input output state).1 ≠ .error (.access path)) :
    ∃ content, state.2.contentAt? input.place = some content ∧
      (relabelFile input output state).1 = saying input (state.1.outcome content) ∧
      (relabelFile input output state).2.2.contentAt? output.place =
        resultOf (state.1.outcome content) content (state.2.contentAt? output.place) := by
  obtain ⟨project, tree⟩ := state
  have run := relabelFile_run input output project tree
  generalize relabelFile input output (project, tree) = done at accessed run ⊢
  obtain ⟨result, after⟩ := done
  cases run with
  | denied => exact absurd rfl (accessed _)
  | @fault content cause read relabels =>
    refine ⟨content, contentAt?_of_read? read, ?_⟩
    simp only [relabels]
    exact ⟨rfl, rfl⟩
  | @unchanged content same read relabels =>
    refine ⟨content, contentAt?_of_read? read, ?_⟩
    simp only [relabels]
    rw [← Path.place_eq_of_same same]
    exact ⟨rfl, contentAt?_of_read? read⟩
  | @changed content new after same read relabels written =>
    refine ⟨content, contentAt?_of_read? read, ?_⟩
    simp only [relabels]
    exact ⟨rfl, (write?_writesAt written).2⟩
  | @copied content relabelled after apart read relabels written =>
    refine ⟨content, contentAt?_of_read? read, ?_⟩
    simp only [relabels]
    refine ⟨rfl, (write?_writesAt written).2.trans ?_⟩
    cases relabelled <;> rfl

end Project

end Relabel
