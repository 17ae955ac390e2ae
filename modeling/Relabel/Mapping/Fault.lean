import Relabel.Mapping.Lines
import Relabel.Text.Quoted
import Relabel.Text.Utf8

/-!
# Faults of mapping files
-/

namespace Relabel.Mapping

inductive Format
  /-- Class headers with indented members. -/
  | debug
  /-- One class on a line. -/
  | compact
  deriving DecidableEq, Repr

inductive Fault
  | encoding (fault : Utf8.Fault)
  /-- The line is no record of its format. -/
  | malformed (format : Format)
  /-- The line is a member before the first class header. -/
  | missingClass
  deriving DecidableEq, Repr

def Fault.message : Fault → String
  | .encoding fault => fault.message
  | .malformed .debug => "line is not a valid debug mapping record"
  | .malformed .compact => "line is not a valid compact mapping record"
  | .missingClass => "member line without a class header"

/-- A fault with the line that has it. -/
structure Error where
  line : Line
  fault : Fault
  deriving DecidableEq, Repr

def Error.message (error : Error) : String :=
  s!"line {error.line.number}: {error.fault.message}: "
    ++ Text.quoted (Utf8.decodeLossy error.line.bytes)

end Relabel.Mapping
