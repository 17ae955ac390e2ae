import Relabel.Pass.Basic

/-!
# Strings

The strings of a class that are relabelled are those that a load instruction puts on the stack and
those that are the constant value of a field. Each such entry of the pool is made to refer to the
relabelled text. The static arguments of bootstrap methods keep their value: where one of them
shares an entry that now refers to another text, it gets an entry of its own for the old one.
-/

namespace Relabel.Pass

open ClassFile (Fault Pool Attribute BootstrapMethod Constant)

/-- Adds an index to those found if its entry is a string. -/
def addStringIndex (pool : Pool) (found : List UInt16) (index : UInt16) :
    Except Fault (List UInt16) := do
  return if (← pool.get index).isString then index :: found else found

/-- Adds the strings that the instructions of a code load. -/
def addLoadedStrings (pool : Pool) (found : List UInt16) (code : ClassFile.Code) :
    Except Fault (List UInt16) := do
  let decoded := ClassFile.Bytecode.decode code.bytes
  let indexes := (decoded.instructions.filter (·.isLoad)).filterMap (·.constantIndex?)
  let found ← indexes.foldlM (addStringIndex pool) found
  match decoded.fault with
  | none => return found
  | some fault => throw fault

/-- The strings that load instructions and constant values refer to, in ascending order. -/
def stringSites (file : ClassFile) : Except Fault (List UInt16) := do
  let found ← (file.fields.filterMap (·.constantValue?)).foldlM (addStringIndex file.pool) []
  let found ← (file.methods.filterMap (·.code?)).foldlM (addLoadedStrings file.pool) found
  return (found.mergeSort (· ≤ ·)).eraseReps

/-- An entry that refers to another text than before, with the text that it referred to. -/
structure Redirection where
  string : UInt16
  oldText : UInt16
  deriving DecidableEq, Repr

/-- Relabels the string with an index. Strings that encode no text are passed over. -/
def relabelString (reserve : Nat) (table : SymbolTable) (goal : Goal) (owner : String)
    (redirected : List Redirection) (index : UInt16) : Edit (List Redirection) := do
  let pool := (← get).pool
  match pool.get index with
  | .error fault => throw (.file fault)
  | .ok (.string text) =>
    match pool.text? text with
    | .error fault => throw (.file fault)
    | .ok none => return redirected
    | .ok (some value) =>
      match Lookup.process reserve table goal value with
      | .error cause => throw (.lookup owner value cause)
      | .ok none => return redirected
      | .ok (some relabelled) =>
        Edit.ofFile (ClassFile.onPool do
          Pool.redirect index (← Pool.addText relabelled))
        return { string := index, oldText := text } :: redirected
  | .ok _ => return redirected

/-- The copies of old entries that have been made for bootstrap arguments. -/
abbrev Copies := List (UInt16 × UInt16)

/-- Gives an argument whose entry was redirected an entry for the old text, one for all arguments
with the same entry. -/
def detachArgument (redirected : List Redirection) (state : Pool × Copies) (argument : UInt16) :
    Outcome (Pool × Copies) UInt16 :=
  match redirected.find? (·.string = argument) with
  | none => { state, value := argument }
  | some redirection =>
    let (pool, copies) := state
    match copies.lookup argument with
    | some copy => { state := (pool, copies), value := copy }
    | none =>
      match Pool.push (.string redirection.oldText) pool with
      | (.ok copy, pool) => { state := (pool, (argument, copy) :: copies), value := copy }
      | (.error fault, pool) => { state := (pool, copies), value := argument, fault := some fault }

def detachMethod (redirected : List Redirection) (state : Pool × Copies)
    (method : BootstrapMethod) : Outcome (Pool × Copies) BootstrapMethod :=
  (editEach (detachArgument redirected) state method.arguments).map fun arguments =>
    { method with arguments }

/-- Detaches the arguments of the bootstrap methods in an attribute. -/
def detachAttribute (redirected : List Redirection) (state : Pool × Copies) :
    Attribute → Outcome (Pool × Copies) Attribute
  | ⟨name, .bootstrapMethods methods⟩ =>
    (editEach (detachMethod redirected) state methods).map fun methods =>
      ⟨name, .bootstrapMethods methods⟩
  | other => { state, value := other }

/-- Relabels all strings of a class. Every entry that is redirected is a change. -/
def relabelStrings (reserve : Nat) (table : SymbolTable) (goal : Goal) : Edit Changes := do
  let file ← get
  match file.name, stringSites file with
  | .error fault, _ | .ok _, .error fault => throw (.file fault)
  | .ok owner, .ok sites =>
    let redirected ← sites.foldlM (relabelString reserve table goal owner) []
    if redirected.isEmpty then return {}
    else
      let _ ← Edit.ofFile (onAttributes [] (detachAttribute redirected))
      return ⟨redirected.length⟩

end Relabel.Pass
