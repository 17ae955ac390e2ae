import Mathlib
import Relabel.Project.Batch
import Relabel.Proofs.ClassFile.Editing
import Relabel.Proofs.Project.FileTree

/-!
# The files that a project visits

Whatever a project does to the files and to its backups, it does by relabelling single files. A walk
through a folder is a list of visits, one after the other; which ones depends on the files that are
there when the walk comes to them. So what holds of single files carries over to whole walks.
-/

namespace Relabel.Project

/-! ## Actions -/

theorem get_apply (state : Project × FileTree) : (get : Action _) state = (.ok state, state) := rfl

theorem onFiles_apply {α : Type} (action : FileAction α) (project : Project) (tree : FileTree) :
    onFiles action (project, tree) = ((action tree).1, project, (action tree).2) := rfl

/-! ## One file -/

section

variable (project : Project) (tree : FileTree) (input output : Path)

theorem relabelFile_of_unread (unread : tree.read? input = none) :
    relabelFile input output (project, tree) = (.error (.access input), project, tree) := by
  simp only [relabelFile, Editing.bind_eq, get_apply, onFiles_apply, readFile, unread]

theorem relabelFile_of_fault {content : Bytes} {cause : Pass.Error}
    (read : tree.read? input = some content)
    (fault : project.outcome content = .error cause) :
    relabelFile input output (project, tree) = (.error (.relabel input cause), project, tree) := by
  simp only [relabelFile, Editing.bind_eq, get_apply, onFiles_apply, readFile, read, fault]
  rfl

/-- A file without changes is left alone at its own path; a changed one is written over its old
content, which is kept. -/
theorem relabelFile_inPlace {content : Bytes} {relabelled : Option Bytes}
    (same : input.same output) (read : tree.read? input = some content)
    (relabels : project.outcome content = .ok relabelled) :
    relabelFile input output (project, tree) =
      match relabelled with
      | none => (.ok false, project, tree)
      | some new =>
        match tree.write? output new with
        | none => (.error (.access output), project, tree)
        | some after =>
          (.ok true, { project with backups := project.backups ++ [(output, content)] }, after) := by
  simp only [relabelFile, Editing.bind_eq, get_apply, onFiles_apply, readFile, read, relabels,
    same, Bool.not_true, Bool.false_eq_true, if_false, if_true]
  cases relabelled with
  | none => rfl
  | some new =>
    simp only [Editing.bind_eq, onFiles_apply, writeFile]
    cases tree.write? output new <;> rfl

/-- At another path, a file is written whether it has changed or not. -/
theorem relabelFile_apart {content : Bytes} {relabelled : Option Bytes}
    (apart : ¬input.same output) (read : tree.read? input = some content)
    (relabels : project.outcome content = .ok relabelled) :
    relabelFile input output (project, tree) =
      match tree.createFolder output.parent with
      | (grown, false) => (.error (.access output.parent), project, grown)
      | (grown, true) =>
        match grown.write? output (relabelled.getD content) with
        | none => (.error (.access output), project, grown)
        | some after => (.ok relabelled.isSome, project, after) := by
  rw [Bool.not_eq_true] at apart
  simp only [relabelFile, Editing.bind_eq, get_apply, onFiles_apply, readFile, read, relabels,
    apart, Bool.not_false, Bool.false_eq_true, if_false, if_true, createFolder]
  obtain ⟨grown, done⟩ := tree.createFolder output.parent
  cases done with
  | false => rfl
  | true =>
    cases relabelled with
    | none =>
      simp only [Editing.bind_eq, onFiles_apply, writeFile, Option.getD_none]
      cases grown.write? output content <;> rfl
    | some new =>
      simp only [Editing.bind_eq, onFiles_apply, writeFile, Option.getD_some]
      cases grown.write? output new <;> rfl

end

/-- What one visit can do. It may be stopped by a file operation, after it has created folders; if
it is not, what it does depends on what relabelling gives and on whether both paths are the same. -/
inductive FileRun (input output : Path) (project : Project) (tree : FileTree) :
    Except Error Bool → Project × FileTree → Prop
  | denied {path : Path} {after : FileTree}
      (left : after = tree ∨ after = (tree.createFolder output.parent).1) :
      FileRun input output project tree (.error (.access path)) (project, after)
  | fault {content : Bytes} {cause : Pass.Error} (read : tree.read? input = some content)
      (relabels : project.outcome content = .error cause) :
      FileRun input output project tree (.error (.relabel input cause)) (project, tree)
  | unchanged {content : Bytes} (same : input.same output) (read : tree.read? input = some content)
      (relabels : project.outcome content = .ok none) :
      FileRun input output project tree (.ok false) (project, tree)
  | changed {content new : Bytes} {after : FileTree} (same : input.same output)
      (read : tree.read? input = some content)
      (relabels : project.outcome content = .ok (some new))
      (written : tree.write? output new = some after) :
      FileRun input output project tree (.ok true)
        ({ project with backups := project.backups ++ [(output, content)] }, after)
  | copied {content : Bytes} {relabelled : Option Bytes} {after : FileTree}
      (apart : ¬input.same output) (read : tree.read? input = some content)
      (relabels : project.outcome content = .ok relabelled)
      (written : (tree.createFolder output.parent).1.write? output (relabelled.getD content) =
        some after) :
      FileRun input output project tree (.ok relabelled.isSome) (project, after)

theorem relabelFile_run (input output : Path) (project : Project) (tree : FileTree) :
    FileRun input output project tree (relabelFile input output (project, tree)).1
      (relabelFile input output (project, tree)).2 := by
  cases read : tree.read? input with
  | none =>
    rw [relabelFile_of_unread project tree input output read]
    exact .denied (.inl rfl)
  | some content =>
    cases relabels : project.outcome content with
    | error cause =>
      rw [relabelFile_of_fault project tree input output read relabels]
      exact .fault read relabels
    | ok relabelled =>
      by_cases same : input.same output
      · rw [relabelFile_inPlace project tree input output same read relabels]
        cases relabelled with
        | none => exact .unchanged same read relabels
        | some new =>
          simp only
          split
          · exact .denied (.inl rfl)
          · next written => exact .changed same read relabels written
      · rw [relabelFile_apart project tree input output same read relabels]
        split
        · next created => exact .denied (.inr (congrArg Prod.fst created).symm)
        · next created =>
          obtain rfl := congrArg Prod.fst created
          split
          · exact .denied (.inr rfl)
          · next written => exact .copied same read relabels written

/-- What becomes of a project by one visit: a file has been changed in place and its old content is
kept, or else the project is as it was. -/
inductive FileOutcome (input output : Path) (project : Project) (tree : FileTree) :
    Except Error Bool → Project × FileTree → Prop
  | changed {content new : Bytes} {after : FileTree} (same : input.same output)
      (read : tree.read? input = some content) (written : tree.write? output new = some after) :
      FileOutcome input output project tree (.ok true)
        ({ project with backups := project.backups ++ [(output, content)] }, after)
  | kept {result : Except Error Bool} {after : FileTree}
      (notChanged : result = .ok true → ¬input.same output) (grows : tree.Grows after) :
      FileOutcome input output project tree result (project, after)

theorem relabelFile_outcome (input output : Path) (project : Project) (tree : FileTree) :
    FileOutcome input output project tree (relabelFile input output (project, tree)).1
      (relabelFile input output (project, tree)).2 := by
  have run := relabelFile_run input output project tree
  generalize relabelFile input output (project, tree) = done at run ⊢
  obtain ⟨result, after⟩ := done
  cases run with
  | denied left =>
    refine .kept nofun ?_
    cases left with
    | inl same =>
      rw [same]
      exact .refl tree
    | inr grown =>
      rw [grown]
      exact tree.createFolder_grows output.parent
  | fault => exact .kept nofun (.refl tree)
  | unchanged => exact .kept nofun (.refl tree)
  | changed same read _ written => exact .changed same read written
  | copied apart _ _ written =>
    exact .kept (fun _ => apart)
      ((tree.createFolder_grows output.parent).trans (FileTree.write?_grows written))

/-- A visit changes no more of a project than its backups. -/
theorem relabelFile_settings (input output : Path) (state : Project × FileTree) :
    (relabelFile input output state).2.1.options = state.1.options ∧
      (relabelFile input output state).2.1.outcome = state.1.outcome := by
  obtain ⟨project, tree⟩ := state
  have outcome := relabelFile_outcome input output project tree
  generalize relabelFile input output (project, tree) = done at outcome ⊢
  obtain ⟨result, after⟩ := done
  cases outcome <;> exact ⟨rfl, rfl⟩

/-! ## Visits in turn -/

/-- The class file that is read and the path that it is written to. -/
abbrev Visit := Path × Path

def relabelEach (visits : List Visit) (state : Project × FileTree) : Project × FileTree :=
  visits.foldl (fun state visit => (relabelFile visit.1 visit.2 state).2) state

theorem relabelEach_append (first second : List Visit) (state : Project × FileTree) :
    relabelEach (first ++ second) state = relabelEach second (relabelEach first state) :=
  List.foldl_append

/-- The visits of all parts, those of each part as they are when its turn comes. -/
def inTurn {α : Type} (visitsOf : α → Project × FileTree → List Visit) :
    List α → Project × FileTree → List Visit
  | [], _ => []
  | part :: rest, state =>
    visitsOf part state ++ inTurn visitsOf rest (relabelEach (visitsOf part state) state)

theorem foldl_eq_relabelEach {α : Type}
    {step : Summary × Project × FileTree → α → Summary × Project × FileTree}
    {visitsOf : α → Project × FileTree → List Visit}
    (step_eq : ∀ (summary : Summary) (state : Project × FileTree) (part : α),
      (step (summary, state) part).2 = relabelEach (visitsOf part state) state)
    (parts : List α) (summary : Summary) (state : Project × FileTree) :
    (parts.foldl step (summary, state)).2 = relabelEach (inTurn visitsOf parts state) state := by
  induction parts generalizing summary state with
  | nil => rfl
  | cons part rest ih =>
    rw [List.foldl_cons, inTurn, relabelEach_append, ← step_eq summary]
    exact ih _ _

theorem relabelCounted_snd (input output : Path) (summary : Summary)
    (state : Project × FileTree) :
    (relabelCounted input output summary state).2 = relabelEach [(input, output)] state := by
  unfold relabelCounted
  split <;> next result => exact (congrArg Prod.snd result).symm

/-! ## Walks -/

/-- The class files below a folder. -/
def visitsBelow (input output : Path) : (depth : Nat) → (names : List String) →
    Project × FileTree → List Visit
  | 0, _, _ => []
  | depth + 1, names, state =>
    match state.2.locate? (below input names) with
    | none => []
    | some location =>
      inTurn (fun (name, entry) state =>
        match entry with
        | .folder => visitsBelow input output depth (names ++ [name]) state
        | .file _ =>
          if Path.isClassName name then
            [(below input (names ++ [name]), below output (names ++ [name]))]
          else []) (state.2.children location) state

theorem walk_snd (input output : Path) (depth : Nat) (names : List String) (summary : Summary)
    (state : Project × FileTree) :
    (walk input output depth names (summary, state)).2 =
      relabelEach (visitsBelow input output depth names state) state := by
  -- A walk is a fold over the entries of a folder, whose folders are walks with less depth.
  induction depth generalizing names summary state with
  | zero => rfl
  | succ depth ih =>
    unfold walk visitsBelow
    cases state.2.locate? (below input names) with
    | none => rfl
    | some location =>
      refine foldl_eq_relabelEach (fun summary state part => ?_) _ _ _
      obtain ⟨name, entry⟩ := part
      cases entry with
      | folder => exact ih (names ++ [name]) summary state
      | file content =>
        simp only
        split
        · exact relabelCounted_snd _ _ summary state
        · rfl

/-- The class files of an input. -/
def visitsOfInput (input output : Path) (state : Project × FileTree) : List Visit :=
  match state.2.find? input with
  | none => []
  | some .folder => visitsBelow input output maxDepth [] state
  | some (.file _) =>
    if (input.components.getLast?.map Path.isClassName).getD false then
      [(input, output.join "")]
    else []

theorem relabelInput_snd (input output : Path) (summary : Summary) (state : Project × FileTree) :
    (relabelInput (summary, state) input output).2 =
      relabelEach (visitsOfInput input output state) state := by
  simp only [relabelInput, visitsOfInput]
  cases state.2.find? input with
  | none => rfl
  | some entry =>
    cases entry with
    | folder => exact walk_snd input output maxDepth [] summary state
    | file content =>
      simp only
      split
      · exact relabelCounted_snd _ _ summary state
      · rfl

/-- All class files that a project relabels when it starts with this state. -/
def visitsOfAll (state : Project × FileTree) : List Visit :=
  inTurn (fun (input, output) => visitsOfInput input output) state.1.options.targets state

theorem relabelAll_snd (state : Project × FileTree) :
    (relabelAll state).2 = relabelEach (visitsOfAll state) state :=
  foldl_eq_relabelEach
    (fun summary state part => relabelInput_snd part.1 part.2 summary state) _ _ _

end Relabel.Project
