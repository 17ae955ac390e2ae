/-!
# Paths

A path is a text whose components are separated by slashes. Empty components and single dots mean
nothing and are left out, so two paths with the same components lead to the same place from the same
folder. A slash or a single dot at the very start leads nowhere else either, since paths are
followed from the top, but paths that differ in these are told apart when paths are compared. Names
and paths have a greatest length, NUL stands in none of them, and neither is empty.
-/

namespace Relabel

structure Path where
  text : String
  deriving DecidableEq, Repr

namespace Path

/-- The texts between the slashes. -/
def segments (path : Path) : List (List Char) := path.text.toList.splitOn '/'

/-- Whether a text between slashes names nothing. -/
def isVoid (segment : List Char) : Bool := segment.isEmpty || segment = ['.']

def components (path : Path) : List String :=
  (path.segments.filter fun segment => !isVoid segment).map String.ofList

/-- Whether a path is written so that it can only name a folder: its last segment is void. -/
def endsVoid (path : Path) : Bool := (path.segments.getLast?.map isVoid).getD true

/-- The most bytes that a name can have. -/
def longestName : Nat := 255

/-- The most bytes that a path can have. -/
def longestPath : Nat := 4095

/-- Whether something can have a name of this length. -/
def nameFits (name : String) : Bool := name.utf8ByteSize ≤ longestName

/-- Whether a path can name anything: it is not empty, it is short enough and it has no NUL. -/
def isUsable (path : Path) : Bool :=
  !path.text.isEmpty && path.text.utf8ByteSize ≤ longestPath && !path.text.toList.contains '\x00'

/-- Whether a path starts at the top, wherever it is used. -/
def isRooted (path : Path) : Bool := path.text.toList.head? = some '/'

/-- Whether a path starts with a single dot, the only one that counts in a comparison. -/
def isDotted (path : Path) : Bool := path.segments.head? = some ['.']

/-- Whether two paths are equal but for void segments behind their starts. -/
def same (a b : Path) : Bool :=
  a.isRooted = b.isRooted && a.isDotted = b.isDotted && a.components = b.components

/-- The path without its last component and without the void segments around it. -/
def parent (path : Path) : Path :=
  let kept := (path.segments.reverse.dropWhile isVoid).drop 1
  ⟨String.ofList (['/'].intercalate (kept.dropWhile isVoid).reverse)⟩

def join (path : Path) (below : String) : Path :=
  let text := path.text.toList
  if text.isEmpty || text.getLast? = some '/' then ⟨path.text ++ below⟩
  else ⟨path.text ++ "/" ++ below⟩

/-- The text behind the last dot of a name; a dot at the very start does not count. -/
def extension? (name : String) : Option String :=
  let (reversed, rest) := name.toList.reverse.span (· ≠ '.')
  match rest with
  | _ :: _ :: _ => some (String.ofList reversed.reverse)
  | _ => none

/-- Whether a name is that of a class file. -/
def isClassName (name : String) : Bool := extension? name = some "class"

end Path

end Relabel
