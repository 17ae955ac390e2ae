import Mathlib
import Relabel.Proofs.Project.Visits

/-!
# Reverting a project

A project keeps a backup whenever it changes a file in place, so that its backups are the changes in
place that its calls have made, in their order. Reverting writes all of them back in this same
order, and a file that was changed more than once ends with what it held before its *last* change.
With output folders nothing is written back at all, although a file whose output path is its own
input path has been changed in place as well.
-/

namespace Relabel.Project

/-! ## Changes in place -/

/-- A change of a file in place: where the file is, and what it held before. -/
structure Rewrite where
  location : Location
  before : Bytes
  deriving DecidableEq, Repr

/-- The change in place that a visit makes, if it makes one. -/
def rewrite? (visit : Visit) (state : Project × FileTree) : Option Rewrite :=
  if visit.1.same visit.2 ∧ (relabelFile visit.1 visit.2 state).1 = .ok true then do
    return ⟨← state.2.locate? visit.2, ← state.2.read? visit.1⟩
  else none

/-- The changes in place that visits make one after the other. -/
def rewrites : List Visit → Project × FileTree → List Rewrite
  | [], _ => []
  | visit :: rest, state =>
    (rewrite? visit state).toList ++ rewrites rest (relabelFile visit.1 visit.2 state).2

/-- A backup that holds what the file at its path held before a change. -/
structure IsBackup (tree : FileTree) (backup : Path × Bytes) (rewrite : Rewrite) : Prop where
  located : tree.locate? backup.1 = some rewrite.location
  content : backup.2 = rewrite.before

theorem IsBackup.grows {old new : FileTree} (grows : old.Grows new) {backup : Path × Bytes}
    {rewrite : Rewrite} (isBackup : IsBackup old backup rewrite) : IsBackup new backup rewrite :=
  ⟨grows.locate? isBackup.located, isBackup.content⟩

/-- The backups of a project are changes in place that have been made. -/
def HasBackups (state : Project × FileTree) (made : List Rewrite) : Prop :=
  List.Forall₂ (IsBackup state.2) state.1.backups made

theorem relabelFile_hasBackups (visit : Visit) {state : Project × FileTree} {made : List Rewrite}
    (hasBackups : HasBackups state made) :
    HasBackups (relabelFile visit.1 visit.2 state).2
      (made ++ (rewrite? visit state).toList) := by
  obtain ⟨project, tree⟩ := state
  have outcome := relabelFile_outcome visit.1 visit.2 project tree
  unfold rewrite?
  generalize relabelFile visit.1 visit.2 (project, tree) = done at outcome ⊢
  obtain ⟨result, after⟩ := done
  cases outcome with
  | changed same read written =>
    -- The new backup is the last one, and the paths of the earlier ones still lead where they did.
    have grows := FileTree.write?_grows written
    obtain ⟨place, located, -, -⟩ := FileTree.write?_eq_some written
    rw [if_pos ⟨same, rfl⟩]
    simp only [located, read]
    have earlier := hasBackups.imp fun _ _ isBackup => isBackup.grows grows
    exact List.rel_append earlier (.cons ⟨grows.locate? located, rfl⟩ .nil)
  | kept notChanged grows =>
    rw [if_neg fun both => notChanged both.2 both.1, Option.toList_none, List.append_nil]
    exact hasBackups.imp fun _ _ isBackup => isBackup.grows grows

theorem relabelEach_hasBackups (visits : List Visit) {state : Project × FileTree}
    {made : List Rewrite} (hasBackups : HasBackups state made) :
    HasBackups (relabelEach visits state) (made ++ rewrites visits state) ∧
      (relabelEach visits state).1.options = state.1.options := by
  induction visits generalizing state made with
  | nil => simpa [rewrites, relabelEach] using hasBackups
  | cons visit rest ih =>
    rw [rewrites, ← List.append_assoc]
    obtain ⟨all, options⟩ := ih (relabelFile_hasBackups visit hasBackups)
    exact ⟨all, options.trans (relabelFile_settings visit.1 visit.2 state).1⟩

/-! ## Calls -/

/-- What a project is asked to relabel: all its inputs, or one file. -/
inductive Call
  | all
  | file (input output : Path)
  deriving DecidableEq, Repr

def Call.run : Call → Project × FileTree → Project × FileTree
  | .all, state => (relabelAll state).2
  | .file input output, state => (relabelFile input output state).2

def Call.visits : Call → Project × FileTree → List Visit
  | .all, state => visitsOfAll state
  | .file input output, _ => [(input, output)]

/-- Serves calls one after the other. -/
def run (calls : List Call) (state : Project × FileTree) : Project × FileTree :=
  calls.foldl (fun state call => call.run state) state

/-- The changes in place that calls make, in their order. -/
def rewritesOf (calls : List Call) (state : Project × FileTree) : List Rewrite :=
  rewrites (inTurn Call.visits calls state) state

/-- The changes that calls make to one file. -/
def rewritesAt (location : Location) (calls : List Call) (state : Project × FileTree) :
    List Rewrite :=
  (rewritesOf calls state).filter (·.location = location)

theorem Call.run_eq (call : Call) (state : Project × FileTree) :
    call.run state = relabelEach (call.visits state) state := by
  cases call with
  | all => exact relabelAll_snd state
  | file input output => rfl

theorem run_eq_relabelEach (calls : List Call) (state : Project × FileTree) :
    run calls state = relabelEach (inTurn Call.visits calls state) state := by
  induction calls generalizing state with
  | nil => rfl
  | cons call rest ih =>
    rw [inTurn, relabelEach_append, ← call.run_eq]
    exact ih _

/-- The backups of a new project are the changes in place that its calls have made. -/
theorem run_hasBackups {reserve : Nat} {table : SymbolTable} {options : Options} {tree : FileTree}
    {project : Project} (created : create reserve table options tree = .ok project)
    (calls : List Call) :
    HasBackups (run calls (project, tree)) (rewritesOf calls (project, tree)) ∧
      (run calls (project, tree)).1.options = options := by
  have isNew : project = { reserve, table, options } := by
    unfold create at created
    split at created
    · cases created
    · split at created
      · cases created
      · cases created
        rfl
  subst isNew
  rw [run_eq_relabelEach, rewritesOf]
  have noBackups : HasBackups ({ reserve, table, options }, tree) [] := .nil
  exact relabelEach_hasBackups _ noBackups

/-! ## Writing back -/

theorem restore_cons_of_written {path : Path} {content : Bytes} {tree middle : FileTree}
    (written : tree.write? path content = some middle) (restored : Nat)
    (rest : List (Path × Bytes)) :
    restore restored ((path, content) :: rest) tree = restore (restored + 1) rest middle := by
  simp only [restore, Editing.bind_eq, writeFile, written]

theorem restore_cons_of_refused {path : Path} {content : Bytes} {tree : FileTree}
    (refused : tree.write? path content = none) (restored : Nat) (rest : List (Path × Bytes)) :
    restore restored ((path, content) :: rest) tree = (.error (.access path), tree) := by
  simp only [restore, Editing.bind_eq, writeFile, refused]

theorem restore_cons_eq_ok {path : Path} {content : Bytes} {rest : List (Path × Bytes)}
    {restored count : Nat} {tree after : FileTree}
    (wroteBack : restore restored ((path, content) :: rest) tree = (.ok count, after)) :
    ∃ middle, tree.write? path content = some middle ∧
      restore (restored + 1) rest middle = (.ok count, after) := by
  cases wrote : tree.write? path content with
  | none =>
    rw [restore_cons_of_refused wrote] at wroteBack
    cases wroteBack
  | some middle =>
    rw [restore_cons_of_written wrote] at wroteBack
    exact ⟨middle, rfl, wroteBack⟩

/-- Each file holds what stands last for it among the backups, or what it held before. -/
theorem restore_eq_ok {backups : List (Path × Bytes)} {made : List Rewrite}
    {restored count : Nat} {tree after : FileTree}
    (areBackups : List.Forall₂ (IsBackup tree) backups made)
    (wroteBack : restore restored backups tree = (.ok count, after)) (location : Location) :
    after.at? location =
      match (made.filter (·.location = location)).getLast? with
      | some last => some (.file last.before)
      | none => tree.at? location := by
  -- The first backup counts only if no later one is at its place, so the rest is looked at first.
  induction backups generalizing made tree restored with
  | nil =>
    cases areBackups
    cases wroteBack
    rfl
  | cons backup rest ih =>
    cases areBackups with
    | @cons _ rewrite _ others isBackup areOthers =>
      obtain ⟨middle, written, wroteOthers⟩ := restore_cons_eq_ok wroteBack
      have grows := FileTree.write?_grows written
      obtain ⟨place, located, notFolder, rfl⟩ := FileTree.write?_eq_some written
      rw [ih (areOthers.imp fun _ _ isBackup => isBackup.grows grows) wroteOthers,
        FileTree.at?_put (FileTree.ne_nil_of_at?_ne_folder notFolder)]
      cases isBackup.located.symm.trans located
      rw [isBackup.content, List.filter_cons]
      by_cases here : rewrite.location = location
      · rw [if_pos (decide_eq_true here), List.getLast?_cons, if_pos here.symm]
        cases (others.filter (·.location = location)).getLast? <;> rfl
      · rw [if_neg (Ne.symm here), if_neg (by simpa using here)]

theorem revert_apply (project : Project) (tree : FileTree) :
    revert (project, tree) =
      if project.options.outputs = [] then
        ((restore 0 project.backups tree).1, { project with backups := [] },
          (restore 0 project.backups tree).2)
      else (.ok 0, project, tree) := by
  simp only [revert, Editing.bind_eq, get_apply]
  cases project.options.outputs with
  | nil => rfl
  | cons output rest => rfl

/-- What a file that was changed in place holds after a project has been reverted: with no output
folders what it held before its last change, else what it held already. So all changes are undone
exactly when this happens to be what it held before its first change. -/
theorem revert_run {reserve : Nat} {table : SymbolTable} {options : Options} {tree : FileTree}
    {project : Project} {calls : List Call} {count : Nat} {reverted : Project × FileTree}
    {location : Location} {first : Rewrite} {later : List Rewrite}
    (created : create reserve table options tree = .ok project)
    (reverts : revert (run calls (project, tree)) = (.ok count, reverted))
    (changed : rewritesAt location calls (project, tree) = first :: later) :
    (options.outputs = [] →
        reverted.2.at? location = some (.file (later.getLastD first).before)) ∧
      (options.outputs ≠ [] → reverted.2 = (run calls (project, tree)).2) ∧
      (reverted.2.at? location = some (.file first.before) ↔
        if options.outputs = [] then (later.getLastD first).before = first.before
        else (run calls (project, tree)).2.at? location = some (.file first.before)) := by
  obtain ⟨hasBackups, sameOptions⟩ := run_hasBackups created calls
  generalize run calls (project, tree) = state at reverts hasBackups sameOptions ⊢
  obtain ⟨atRevert, files⟩ := state
  rw [revert_apply, sameOptions] at reverts
  by_cases inPlace : options.outputs = []
  · rw [if_pos inPlace] at reverts
    generalize wroteBack : restore 0 atRevert.backups files = done at reverts
    obtain ⟨result, after⟩ := done
    cases reverts
    have content := restore_eq_ok hasBackups wroteBack location
    unfold rewritesAt at changed
    rw [changed, List.getLast?_cons, ← List.getLastD_eq_getLast?] at content
    simp [inPlace, content]
  · rw [if_neg inPlace] at reverts
    cases reverts
    simp [inPlace]

/-! ## A class that changes twice -/

/-- A class file with metadata that mentions the class `a`. -/
def mentioningBytes : Bytes :=
  [0xCA, 0xFE, 0xBA, 0xBE, 0, 0, 0, 52, 0, 9, 1, 0, 1, 65, 7, 0, 1, 1, 0, 1, 66, 7, 0, 3, 1, 0, 17,
    76, 107, 111, 116, 108, 105, 110, 47, 77, 101, 116, 97, 100, 97, 116, 97, 59, 1, 0, 2, 100, 50,
    1, 0, 3, 76, 97, 59, 1, 0, 25, 82, 117, 110, 116, 105, 109, 101, 86, 105, 115, 105, 98, 108,
    101, 65, 110, 110, 111, 116, 97, 116, 105, 111, 110, 115, 0, 33, 0, 2, 0, 0, 0, 0, 0, 0, 0, 0,
    0, 1, 0, 8, 0, 0, 0, 14, 0, 1, 0, 5, 0, 1, 0, 6, 91, 0, 1, 115, 0, 7]

/-- Renames `a` to `b`, and `b` to `c`. -/
def chainedTable : SymbolTable := .ofNames (((∅ : Names).insert "a" "b").insert "b" "c") ∅ ∅

def inPlaceOptions : Options := ⟨[⟨"in"⟩], [], .production⟩

/-- A folder with a class file in it. -/
def mentioningTree : FileTree :=
  ⟨((∅ : Std.ExtTreeMap Location Entry).insert ["in"] .folder).insert ["in", "A.class"]
    (.file mentioningBytes)⟩

def chainedProject : Project :=
  { reserve := 0, table := chainedTable, options := inPlaceOptions }

theorem revert_run_of_one_change :
    ∃ reverted, revert (run [.all] (chainedProject, mentioningTree)) = (.ok 1, reverted) ∧
      reverted.2.at? ["in", "A.class"] = some (.file mentioningBytes) := by
  have created : create 0 chainedTable inPlaceOptions mentioningTree = .ok chainedProject := by
    rfl
  obtain ⟨reverted, reverts⟩ :
      ∃ reverted, revert (run [.all] (chainedProject, mentioningTree)) = (.ok 1, reverted) := by
    have counted : (revert (run [.all] (chainedProject, mentioningTree))).1 = .ok 1 := by
      decide +kernel
    rw [← counted]
    exact ⟨_, (Prod.eta _).symm⟩
  have changed : rewritesAt ["in", "A.class"] [.all] (chainedProject, mentioningTree) =
      [⟨["in", "A.class"], mentioningBytes⟩] := by
    decide +kernel
  exact ⟨reverted, reverts, (revert_run created reverts changed).1 rfl⟩

/-- A class file that two calls have changed does not get back what it held at first. -/
theorem second_change_not_reverted :
    create 0 chainedTable inPlaceOptions mentioningTree = .ok chainedProject ∧
      (rewritesAt ["in", "A.class"] [.all, .all] (chainedProject, mentioningTree)).head? =
        some ⟨["in", "A.class"], mentioningBytes⟩ ∧
      (revert (run [.all, .all] (chainedProject, mentioningTree))).1 = .ok 2 ∧
      (revert (run [.all, .all] (chainedProject, mentioningTree))).2.2.at? ["in", "A.class"] ≠
        some (.file mentioningBytes) := by
  refine ⟨rfl, ?_, ?_, ?_⟩ <;> decide +kernel

end Relabel.Project
