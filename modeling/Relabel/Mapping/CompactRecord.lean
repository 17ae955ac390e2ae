import Relabel.Mapping.Fault
import Relabel.Mapping.Scan

/-!
# Records of a compact mapping

A line of a compact mapping is `#` and a comment, or exactly two words: the obfuscated and the
readable name of a class.
-/

namespace Relabel.Mapping

inductive CompactRecord
  | comment (text : String)
  | entry (obfuscated readable : String)
  deriving DecidableEq, Repr

namespace CompactRecord

def ofText? (text : List Char) : Option CompactRecord :=
  match Scan.word? "#" text with
  | some rest => some (.comment (String.ofList (Text.trim rest)))
  | none =>
    match Text.asciiWords text with
    | [obfuscated, readable] => some (.entry (String.ofList obfuscated) (String.ofList readable))
    | _ => none

def parse (line : Bytes) : Except Fault CompactRecord :=
  match Utf8.decodeChars line with
  | .error fault => .error (.encoding fault)
  | .ok text =>
    match ofText? text with
    | some record => .ok record
    | none => .error (.malformed .compact)

end CompactRecord

/-- The records of a compact mapping, with a fault in the place of each line that is none. -/
def compactRecords (source : Bytes) : List (Line × Except Fault CompactRecord) :=
  (lines source).map fun line => (line, CompactRecord.parse line.bytes)

end Relabel.Mapping
