import Relabel.Goal.Json
import Relabel.Project.Path

/-!
# Options

A project has input folders, and one output folder for each of them or none at all; without output
folders the inputs are changed in place. In JSON the output folders may be left out.
-/

namespace Relabel

/-- Which folders are relabelled, and for which goal. -/
structure Options where
  inputs : List Path
  outputs : List Path
  goal : Goal
  deriving DecidableEq, Repr

namespace Options

def targets (options : Options) : List (Path × Path) :=
  if options.outputs.isEmpty then options.inputs.map fun input => (input, input)
  else options.inputs.zip options.outputs

/-- The members of options that have been read. -/
structure Sections where
  inputs : Option (List Path) := none
  outputs : Option (List Path) := none
  goal : Option Goal := none

def readPath (input : Bytes) : Except Json.Fault (Path × Bytes) :=
  (Json.text input).map fun (text, rest) => (⟨text⟩, rest)

/-- Reads a member of options from behind its key. -/
def Sections.member (found : Sections) (key : String) (input : Bytes) :
    Except Json.Fault (Sections × Bytes) :=
  if key = "inputDirs" then
    (Json.field found.inputs (Json.list readPath) input).map fun (inputs, rest) =>
      ({ found with inputs }, rest)
  else if key = "outputDirs" then
    (Json.field found.outputs (Json.list readPath) input).map fun (outputs, rest) =>
      ({ found with outputs }, rest)
  else if key = "goal" then
    (Json.field found.goal Goal.read input).map fun (goal, rest) => ({ found with goal }, rest)
  else Json.unknown found input

/-- The options with these members, if none is missing that is needed. -/
def Sections.options? (found : Sections) : Option Options := do
  return { inputs := ← found.inputs, outputs := found.outputs.getD [], goal := ← found.goal }

def read (input : Bytes) : Except Json.Fault (Options × Bytes) :=
  match Json.skipBlanks input with
  | 91 :: rest => do
    let (inputs, rest) ← Json.required (Json.list readPath) true rest
    let (outputs, rest) ← Json.optional [] (Json.list readPath) false rest
    let (goal, rest) ← Json.required Goal.read false rest
    return ({ inputs, outputs, goal }, ← Json.endList rest)
  | 123 :: rest => do
    let (sections, rest) ← Json.members Sections.member {} rest
    match sections.options? with
    | some options => return (options, rest)
    | none => .error .mismatch
  | rest => .error (Json.wrongShape rest)

def ofJson (text : Bytes) : Except Json.Fault Options := Json.whole read text

def toJson (options : Options) : String :=
  String.ofList (Json.printObject
    [Json.printMember "inputDirs" (Json.printTexts (options.inputs.map Path.text)),
      Json.printMember "outputDirs" (Json.printTexts (options.outputs.map Path.text)),
      Json.printMember "goal" options.goal.print])

end Options

end Relabel
