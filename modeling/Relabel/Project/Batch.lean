import Relabel.Pass.All
import Relabel.Project.Action
import Relabel.Project.Options

/-!
# Projects

A project relabels all class files below its input folders. Each file is handled on its own: one
that fails is counted and left alone. Where a file is changed in place, its old content is kept,
so that the project can be reverted.
-/

namespace Relabel

/-- A project, with the reserve that its lookups have, and the files that it has changed in place
with their old contents, in the order in which they were changed. -/
structure Project where
  reserve : Nat
  table : SymbolTable
  options : Options
  backups : List (Path × Bytes) := []

namespace Project

/-- How many files were relabelled, needed no change, or failed. -/
structure Summary where
  relabelled : Nat := 0
  unchanged : Nat := 0
  failed : Nat := 0
  deriving DecidableEq, Repr

/-- The project with these options, if they fit together and the input folders exist. -/
def create (reserve : Nat) (table : SymbolTable) (options : Options) (tree : FileTree) :
    Except Error Project :=
  if !options.outputs.isEmpty && options.outputs.length ≠ options.inputs.length then
    .error (.options (.outputCount options.outputs.length options.inputs.length))
  else
    match options.inputs.find? (!tree.isFolder ·) with
    | some folder => .error (.options (.missingInput folder))
    | none => .ok { reserve, table, options }

/-- What relabelling a class file with this content on its own gives. -/
def outcome (project : Project) (content : Bytes) : Except Pass.Error (Option Bytes) :=
  Pass.relabelBytes project.reserve project.table project.options.goal content

/-- An action of a project, which may fail after part of its work. -/
abbrev Action := ExceptT Error (StateM (Project × FileTree))

/-- An action on files, as one of a project. -/
def onFiles {α : Type} (action : FileAction α) : Action α := fun (project, tree) =>
  let (result, tree) := action tree
  (result, (project, tree))

/-- Keeps the old content of a file. -/
def keepBackup (path : Path) (content : Bytes) : Action Unit := fun (project, tree) =>
  (.ok (), ({ project with backups := project.backups ++ [(path, content)] }, tree))

/-- Relabels the class file at one path into another and tells whether it changed. A file without
changes is copied, unless both paths are the same. -/
def relabelFile (input output : Path) : Action Bool := do
  let project := (← get).1
  let content ← onFiles (readFile input)
  match project.outcome content with
  | .error cause => throw (.relabel input cause)
  | .ok relabelled =>
    let inPlace := input.same output
    if !inPlace then onFiles (createFolder output.parent)
    match relabelled with
    | some relabelled =>
      onFiles (writeFile output relabelled)
      if inPlace then keepBackup output content
      return true
    | none =>
      if !inPlace then onFiles (writeFile output content)
      return false

def relabelCounted (input output : Path) (summary : Summary)
    (state : Project × FileTree) : Summary × Project × FileTree :=
  match relabelFile input output state with
  | (.ok true, state) => ({ summary with relabelled := summary.relabelled + 1 }, state)
  | (.ok false, state) => ({ summary with unchanged := summary.unchanged + 1 }, state)
  | (.error _, state) => ({ summary with failed := summary.failed + 1 }, state)

/-- The path that names lead to below a folder. -/
def below (folder : Path) (names : List String) : Path :=
  folder.join ("/".intercalate names)

/-- Relabels the class files below a folder in the order of their names. The folder is given by the
names that lead to it from the input. What is in a folder is looked up once, when the walk comes to
it; a folder that cannot be entered counts as a failure. -/
def walk (input output : Path) : (depth : Nat) → (names : List String) →
    Summary × Project × FileTree → Summary × Project × FileTree
  | 0, _, state => state
  | depth + 1, names, state =>
    match state.2.2.locate? (below input names) with
    | none => ({ state.1 with failed := state.1.failed + 1 }, state.2)
    | some location =>
      (state.2.2.children location).foldl (fun state (name, entry) =>
        match entry with
        | .folder => walk input output depth (names ++ [name]) state
        | .file _ =>
          if Path.isClassName name then
            relabelCounted (below input (names ++ [name])) (below output (names ++ [name]))
              state.1 state.2
          else state) state

/-- How deep folders can be nested: a path with so many names is too long to be followed. -/
def maxDepth : Nat := Path.longestPath + 1

/-- Relabels the class files of an input. An input that is gone counts as a failure; one that has
become a file is relabelled itself if it is a class file. -/
def relabelInput (state : Summary × Project × FileTree) (input output : Path) :
    Summary × Project × FileTree :=
  match state.2.2.find? input with
  | none => ({ state.1 with failed := state.1.failed + 1 }, state.2)
  | some .folder => walk input output maxDepth [] state
  | some (.file _) =>
    if (input.components.getLast?.map Path.isClassName).getD false then
      relabelCounted input (output.join "") state.1 state.2
    else state

def relabelAll (state : Project × FileTree) : Summary × Project × FileTree :=
  state.1.options.targets.foldl (fun state (input, output) =>
    relabelInput state input output) ({}, state)

/-- Writes back contents, up to the first that fails, and counts them. -/
def restore : (restored : Nat) → List (Path × Bytes) → FileAction Nat
  | restored, [] => return restored
  | restored, (path, content) :: rest => do
    writeFile path content
    restore (restored + 1) rest

/-- Gives all files that were changed in place their old contents and forgets these, also when
one of the files cannot be written. With output folders there is nothing to do. -/
def revert : Action Nat := do
  let (project, tree) ← get
  if !project.options.outputs.isEmpty then return 0
  else
    set (({ project with backups := [] }, tree) : Project × FileTree)
    onFiles (restore 0 project.backups)

end Project

end Relabel
