import Relabel.Proofs.Project.Reverting

/-!
# Reverting that is interrupted

Reverting writes the backups back in their order and stops at the first file that cannot be
written. By then the project has already forgotten all of them: those that have been written back,
the one that could not be, and those behind it. So when nothing is in the way any more, reverting
once again succeeds without doing anything, and what had not been written back before is lost.
-/

namespace Relabel.Project

/-- Writing back stops at a path: what stands before it has been written back, and its own content
cannot be written. -/
structure StopsAt (path : Path) (restored : Nat) (written left : List (Path × Bytes))
    (tree after : FileTree) : Prop where
  writtenBack : restore restored written tree = (.ok (restored + written.length), after)
  refused : ∃ content rest, left = (path, content) :: rest ∧ after.write? path content = none

theorem StopsAt.cons {path stop : Path} {content : Bytes} {restored : Nat}
    {written left : List (Path × Bytes)} {tree middle after : FileTree}
    (first : tree.write? path content = some middle)
    (stops : StopsAt stop (restored + 1) written left middle after) :
    StopsAt stop restored ((path, content) :: written) left tree after := by
  refine ⟨?_, stops.refused⟩
  rw [restore_cons_of_written first, stops.writtenBack, List.length_cons, Nat.add_right_comm,
    Nat.add_assoc]

theorem stopsAt_of_restore_eq_error {restored : Nat} {backups : List (Path × Bytes)}
    {error : Error} {tree after : FileTree}
    (fails : restore restored backups tree = (.error error, after)) :
    ∃ path written left, backups = written ++ left ∧ error = .access path ∧
      StopsAt path restored written left tree after := by
  induction backups generalizing restored tree with
  | nil => cases fails
  | cons backup rest ih =>
    obtain ⟨path, content⟩ := backup
    cases wrote : tree.write? path content with
    | none =>
      rw [restore_cons_of_refused wrote] at fails
      cases fails
      exact ⟨path, [], (path, content) :: rest, rfl, rfl, rfl, content, rest, rfl, wrote⟩
    | some middle =>
      rw [restore_cons_of_written wrote] at fails
      obtain ⟨stop, written, left, split, errorEq, stops⟩ := ih fails
      exact ⟨stop, (path, content) :: written, left, by rw [split, List.cons_append], errorEq,
        stops.cons wrote⟩

/-- A project whose reverting has failed is as before, but has no backups any more. -/
theorem revert_eq_error {state : Project × FileTree} {error : Error} {after : Project × FileTree}
    (fails : revert state = (.error error, after)) :
    after.1 = { state.1 with backups := [] } ∧
      ∃ path written left, state.1.backups = written ++ left ∧ error = .access path ∧
        StopsAt path 0 written left state.2 after.2 := by
  obtain ⟨project, tree⟩ := state
  rw [revert_apply] at fails
  split at fails
  · generalize stopped : restore 0 project.backups tree = done at fails
    obtain ⟨result, left⟩ := done
    cases fails
    exact ⟨rfl, stopsAt_of_restore_eq_error stopped⟩
  · cases fails

/-- With no backups there is nothing to revert. -/
theorem revert_of_noBackups {project : Project} (noBackups : project.backups = [])
    (tree : FileTree) : revert (project, tree) = (.ok 0, project, tree) := by
  rw [revert_apply, noBackups]
  split
  · obtain ⟨reserve, table, options, backups⟩ := project
    cases noBackups
    rfl
  · rfl

/-- Whether each changed file holds what it held before the change. -/
def HoldsOriginals (tree : FileTree) (made : List Rewrite) : Prop :=
  ∀ rewrite ∈ made, tree.at? rewrite.location = some (.file rewrite.before)

/-- Whatever calls have changed in place, and whatever is in the way when this is to be reverted: if
reverting fails, the backups in front of some path have been written back, that path refuses its
backup, and the project keeps none of them. Once nothing is in the way any more, reverting succeeds
without changing anything, so that a file that was not written back has its original then only if
it has it already. -/
theorem revert_interrupted {reserve : Nat} {table : SymbolTable} {options : Options}
    {tree blocked : FileTree} {project : Project} {calls : List Call} {error : Error}
    {after : Project × FileTree} (created : create reserve table options tree = .ok project)
    (fails : revert ((run calls (project, tree)).1, blocked) = (.error error, after)) :
    ∃ path written left back lost,
      (run calls (project, tree)).1.backups = written ++ left ∧
      rewritesOf calls (project, tree) = back ++ lost ∧
      List.Forall₂ (IsBackup (run calls (project, tree)).2) written back ∧
      List.Forall₂ (IsBackup (run calls (project, tree)).2) left lost ∧
      error = .access path ∧ StopsAt path 0 written left blocked after.2 ∧
      after.1 = { (run calls (project, tree)).1 with backups := [] } ∧
      ∀ cleared, revert (after.1, cleared) = (.ok 0, after.1, cleared) ∧
        (HoldsOriginals (revert (after.1, cleared)).2.2 lost ↔ HoldsOriginals cleared lost) := by
  obtain ⟨hasBackups, -⟩ := run_hasBackups created calls
  obtain ⟨forgotten, path, written, left, split, errorEq, stops⟩ := revert_eq_error fails
  rw [HasBackups, split] at hasBackups
  have writtenBackups := List.forall₂_take written.length hasBackups
  have lostBackups := List.forall₂_drop written.length hasBackups
  rw [List.take_left] at writtenBackups
  rw [List.drop_left] at lostBackups
  refine ⟨path, written, left, _, _, split, (List.take_append_drop _ _).symm, writtenBackups,
    lostBackups, errorEq, stops, forgotten, fun cleared => ?_⟩
  have noBackups : after.1.backups = [] := by rw [forgotten]
  have nothing := revert_of_noBackups noBackups cleared
  exact ⟨nothing, by rw [nothing]⟩

/-! ## A folder in the way -/

/-- The location of the only class file. -/
def mentioningPlace : Location := ["in", "A.class"]

/-- The project after its class file has been relabelled. -/
def relabelledProject : Project := (run [.all] (chainedProject, mentioningTree)).1

/-- A folder stands where the class file should be. -/
def obstructedTree : FileTree := mentioningTree.put mentioningPlace .folder

/-- Nothing stands where the class file should be. -/
def vacatedTree : FileTree := mentioningTree.remove mentioningPlace

theorem revert_interrupted_of_obstacle :
    ∃ after, revert (relabelledProject, obstructedTree) =
        (.error (.access ⟨"in/A.class"⟩), after) ∧
      after.1.backups = [] ∧
      ∀ cleared, revert (after.1, cleared) = (.ok 0, after.1, cleared) := by
  have created : create 0 chainedTable inPlaceOptions mentioningTree = .ok chainedProject := by
    rfl
  obtain ⟨after, fails⟩ : ∃ after, revert (relabelledProject, obstructedTree) =
      (.error (.access ⟨"in/A.class"⟩), after) := by
    have refused : (revert (relabelledProject, obstructedTree)).1 =
        .error (.access ⟨"in/A.class"⟩) := by
      decide +kernel
    rw [← refused]
    exact ⟨_, (Prod.eta _).symm⟩
  obtain ⟨_, _, _, _, _, -, -, -, -, -, -, forgotten, nothing⟩ := revert_interrupted created fails
  exact ⟨after, fails, by rw [forgotten], fun cleared => (nothing cleared).1⟩

/-- The content of a class file that could not be written back is lost, although it could be written
when the folder in its place is gone. -/
theorem interrupted_backup_lost :
    create 0 chainedTable inPlaceOptions mentioningTree = .ok chainedProject ∧
      relabelledProject.backups = [(⟨"in/A.class"⟩, mentioningBytes)] ∧
      (revert (relabelledProject, obstructedTree)).1 = .error (.access ⟨"in/A.class"⟩) ∧
      (revert (relabelledProject, obstructedTree)).2.1.backups = [] ∧
      (revert (relabelledProject, vacatedTree)).2.2.at? mentioningPlace =
        some (.file mentioningBytes) ∧
      (revert ((revert (relabelledProject, obstructedTree)).2.1, vacatedTree)).1 = .ok 0 ∧
      (revert ((revert (relabelledProject, obstructedTree)).2.1, vacatedTree)).2.2.at?
        mentioningPlace = none := by
  refine ⟨rfl, ?_, ?_, ?_, ?_, ?_, ?_⟩ <;> decide +kernel

end Relabel.Project
