import Relabel.Goal
import Relabel.Json.Printer
import Relabel.Json.Shape

/-!
# Goals in JSON

A goal is written as its name. It is also read from an object whose only key is its name and whose
value is `null`.
-/

namespace Relabel.Goal

/-- A goal's name where a name is wanted. -/
def readName (input : Bytes) : Except Json.Fault (Goal × Bytes) := do
  let (name, rest) ← Json.text input
  match ofName? name with
  | some goal => return (goal, rest)
  | none => .error .mismatch

/-- The goal that the only key of an object names, up to the end of the object. -/
def readMember (input : Bytes) : Except Json.Fault (Goal × Bytes) := do
  let (goal, rest) ← readName input
  let rest ← Json.colon rest
  let rest ← Json.null rest
  match Json.skipBlanks rest with
  | [] => .error .truncated
  | 125 :: rest => return (goal, rest)
  | _ => .error .malformed

/-- A goal. What does not start with a quote, on its own or as a key, is malformed. -/
def read (input : Bytes) : Except Json.Fault (Goal × Bytes) :=
  match Json.skipBlanks input with
  | [] => .error .truncated
  | 34 :: rest => readName (34 :: rest)
  | 123 :: rest =>
    match Json.skipBlanks rest with
    | [] => .error .truncated
    | 34 :: rest => readMember (34 :: rest)
    | _ => .error .malformed
  | _ => .error .malformed

def ofJson (text : Bytes) : Except Json.Fault Goal := Json.whole read text

def print (goal : Goal) : List Char := Json.printText goal.name

end Relabel.Goal
