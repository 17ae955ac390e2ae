import Relabel.Bytes
import Relabel.Project.Path
import Std.Data.ExtTreeMap

/-!
# File trees

A file tree says what stands at each location below its top: a folder, or a file with its content.
A location is the list of the names that lead to it. Following a path needs a folder at each step
and a name that is not too long; the component `..` leads back. Operations that cannot be done give
nothing; the only one that may be done in part is the creation of several folders.
-/

namespace Relabel

/-- What stands at a location. -/
inductive Entry
  | folder
  | file (content : Bytes)
  deriving DecidableEq, Repr

/-- The names that lead to a place. -/
abbrev Location := List String

/-- What stands where. The top, whose location is empty, is always a folder. -/
structure FileTree where
  entries : Std.ExtTreeMap Location Entry := ∅

namespace FileTree

/-- What stands at a location. -/
def at? (tree : FileTree) (location : Location) : Option Entry :=
  if location.isEmpty then some .folder else tree.entries[location]?

/-- The tree with an entry at a location. -/
def put (tree : FileTree) (location : Location) (entry : Entry) : FileTree :=
  ⟨tree.entries.insert location entry⟩

/-- Where a component leads from a location. -/
def next (location : Location) (component : String) : Location :=
  if component = ".." then location.dropLast else location ++ [component]

/-- Where components lead from a location. There need not be anything in the end. -/
def follow? (tree : FileTree) (location : Location) : List String → Option Location
  | [] => some location
  | component :: rest =>
    match tree.at? location with
    | some .folder =>
      if Path.nameFits component then tree.follow? (next location component) rest else none
    | _ => none

def locate? (tree : FileTree) (path : Path) : Option Location :=
  if path.isUsable then tree.follow? [] path.components else none

def find? (tree : FileTree) (path : Path) : Option Entry := do
  match ← tree.at? (← tree.locate? path) with
  | .folder => some .folder
  | .file content => if path.endsVoid then none else some (.file content)

def isFolder (tree : FileTree) (path : Path) : Bool := tree.find? path = some .folder

/-- The content of the file that a path names. -/
def read? (tree : FileTree) (path : Path) : Option Bytes :=
  match tree.find? path with
  | some (.file content) => some content
  | _ => none

/-- The tree with a file that is there or in a folder that is there. -/
def write? (tree : FileTree) (path : Path) (content : Bytes) : Option FileTree := do
  if path.endsVoid then none
  else
    let location ← tree.locate? path
    match tree.at? location with
    | some .folder => none
    | _ => return tree.put location (.file content)

/-- Creates the folders that components lead through from a location, and tells whether all of them
are there in the end. -/
def createFrom (tree : FileTree) (location : Location) : List String → FileTree × Bool
  | [] => (tree, true)
  | component :: rest =>
    let location := next location component
    match tree.at? location with
    | some .folder => tree.createFrom location rest
    | some (.file _) => (tree, false)
    | none =>
      if Path.nameFits component then (tree.put location .folder).createFrom location rest
      else (tree, false)

/-- Creates a folder with all folders above it. The empty path asks for none. -/
def createFolder (tree : FileTree) (path : Path) : FileTree × Bool :=
  if path.text.isEmpty then (tree, true)
  else if path.isUsable then tree.createFrom [] path.components else (tree, false)

/-- The entries of a folder by their names, in order. -/
def children (tree : FileTree) (location : Location) : List (String × Entry) :=
  tree.entries.toList.filterMap fun (place, entry) =>
    match place.getLast? with
    | some name => if place.dropLast = location then some (name, entry) else none
    | none => none

/-- The tree without a location and all below it. -/
def remove (tree : FileTree) (location : Location) : FileTree :=
  ⟨tree.entries.filter fun place _ => !location.isPrefixOf place⟩

end FileTree

end Relabel
