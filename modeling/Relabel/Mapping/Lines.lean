import Relabel.Bytes
import Relabel.Text.Blank

/-!
# Numbered lines

A mapping file is read line by line. A line ends at a line feed, one carriage return before it does
not belong to it, and lines that hold only ASCII blanks are skipped but counted.
-/

namespace Relabel.Mapping

/-- A line of a file, with its number; the first line has number one. -/
structure Line where
  number : Nat
  bytes : Bytes
  deriving DecidableEq, Repr

/-- The pieces of a byte string between its line feeds, behind those already `found`. -/
def segmentsFrom (segment : Bytes) (found : List Bytes) : Bytes → List Bytes
  | [] => (segment.reverse :: found).reverse
  | byte :: rest =>
    if byte = 10 then segmentsFrom [] (segment.reverse :: found) rest
    else segmentsFrom (byte :: segment) found rest

/-- The pieces of a byte string between its line feeds; at least one. -/
def segments (source : Bytes) : List Bytes := segmentsFrom [] [] source

/-- A line without one carriage return at its end. -/
def dropReturn (line : Bytes) : Bytes :=
  match line.reverse with
  | 13 :: rest => rest.reverse
  | _ => line

/-- The lines of a file that are not blank. -/
def lines (source : Bytes) : List Line :=
  ((segments source).zipIdx 1).map (fun (segment, number) => ⟨number, dropReturn segment⟩)
    |>.filter fun line => !line.bytes.all Text.isAsciiBlank

end Relabel.Mapping
