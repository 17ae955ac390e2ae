import Relabel.Json.Token
import Relabel.Mapping.Fault
import Relabel.Pass.Basic
import Relabel.Project.FileTree

/-!
# Actions on files

The actions of a project read and write files. An action that fails says why, and leaves the files
as far as it has come.
-/

namespace Relabel

namespace Project

inductive OptionsFault
  | outputCount (outputs inputs : Nat)
  | missingInput (folder : Path)
  deriving DecidableEq, Repr

def OptionsFault.message : OptionsFault → String
  | .outputCount outputs inputs =>
    s!"{outputs} output directories given for {inputs} input directories"
  | .missingInput folder =>
    s!"input directory {folder.text} does not exist or is not a directory"

inductive Error
  | options (fault : OptionsFault)
  | mapping (path : Path) (cause : Mapping.Error)
  | access (path : Path)
  | relabel (path : Path) (cause : Pass.Error)
  | cache (path : Path) (cause : Json.Fault)
  deriving DecidableEq, Repr

def Error.message : Error → String
  | .options fault => "invalid remap options: " ++ fault.message
  | .mapping path cause => s!"malformed mapping {path.text}: {cause.message}"
  | .access path => s!"failed to access {path.text}"
  | .relabel path cause => s!"failed to remap {path.text}: {cause.message}"
  | .cache path _ => s!"invalid symbol table cache {path.text}"

/-- An action on files, which may fail after part of its work. -/
abbrev FileAction := ExceptT Error (StateM FileTree)

def readFile (path : Path) : FileAction Bytes := fun tree =>
  match tree.read? path with
  | some content => (.ok content, tree)
  | none => (.error (.access path), tree)

def writeFile (path : Path) (content : Bytes) : FileAction Unit := fun tree =>
  match tree.write? path content with
  | some tree => (.ok (), tree)
  | none => (.error (.access path), tree)

/-- Creates a folder with all folders above it. -/
def createFolder (path : Path) : FileAction Unit := fun tree =>
  match tree.createFolder path with
  | (tree, true) => (.ok (), tree)
  | (tree, false) => (.error (.access path), tree)

end Project

end Relabel
