import Relabel.Goal
import Relabel.Lookup.Instruction
import Relabel.SymbolTable.Basic

/-!
# Resolving an instruction

For developers an instruction resolves to the readable name that it spells. For production it is
looked up in a symbol table. Slashes in the result become dots, unless the instruction keeps them.
-/

namespace Relabel.Lookup

inductive Error
  /-- An instruction that starts at this byte offset is never closed. -/
  | unterminated (start : Nat)
  /-- The symbol table does not know the name. -/
  | unresolved (kind : Kind) (lookup : String)
  /-- The body of an instruction is not of the form that its mode requires. -/
  | invalidBody (kind : Kind) (body : String)
  /-- The results bring up new instructions for longer than is waited for. -/
  | unsettled
  deriving DecidableEq, Repr

def Error.message : Error → String
  | .unterminated start => s!"lookup instruction at offset {start} is never closed"
  | .unresolved kind lookup => s!"no {kind.name} mapping for " ++ Text.quoted lookup
  | .invalidBody kind body => s!"malformed {kind.name} lookup " ++ Text.quoted body
  | .unsettled => "lookup instructions keep resolving to further lookup instructions"

/-- The class and the member name that a simple body spells: its first two words, separated by
single spaces. -/
def splitSimple? (body : List Char) : Option (List Char × List Char) :=
  match body.splitOn ' ' with
  | owner :: name :: _ =>
    if owner.isEmpty || name.isEmpty then none else some (Descriptor.internalName owner, name)
  | _ => none

/-- The character that ends the member name in a key. -/
def Kind.nameEnd : Kind → Char
  | .method => '('
  | .type | .field => '.'

/-- The class and the member name that a key spells. -/
def splitAdvanced? (kind : Kind) (body : List Char) : Option (List Char × List Char) := do
  let (owner, rest) ← Text.splitFirst? '.' body
  let name := rest.takeWhile (· ≠ kind.nameEnd)
  if owner.isEmpty || name.isEmpty then none else some (owner, name)

/-- The class and the member name that an instruction spells. -/
def Instruction.member? (i : Instruction) : Option (List Char × List Char) :=
  match i.mode with
  | .simple => splitSimple? i.body
  | .advanced => splitAdvanced? i.kind i.body

/-- The class name that an instruction spells, if classes are what it looks up. -/
def Instruction.className (i : Instruction) : List Char :=
  match i.mode with
  | .simple => Descriptor.internalName i.body
  | .advanced => i.body

def Instruction.readable (i : Instruction) : Except Error (List Char) :=
  match i.kind with
  | .type => .ok i.className
  | .method | .field =>
    match i.member? with
    | some (_, name) => .ok name
    | none => .error (.invalidBody i.kind (String.ofList i.body))

/-- The name that the symbol table has for an instruction. Members are looked up by their owner in
simple mode and by their full key in advanced mode. -/
def Instruction.lookup (table : SymbolTable) (i : Instruction) : Except Error (List Char) :=
  match i.kind with
  | .type => found i.className (table.class? (String.ofList i.className))
  | .method => member fun owner name =>
      match i.mode with
      | .simple => table.methodOf? owner name
      | .advanced => table.method? (String.ofList i.body)
  | .field => member fun owner name =>
      match i.mode with
      | .simple => table.fieldOf? owner name
      | .advanced => table.field? (String.ofList i.body)
where
  /-- The result of a query, which is quoted if there is none. -/
  found (query : List Char) : Option String → Except Error (List Char)
    | some name => .ok name.toList
    | none => .error (.unresolved i.kind (String.ofList query))
  /-- The result of a query for a member. -/
  member (query? : String → String → Option String) : Except Error (List Char) :=
    match i.member? with
    | some (owner, name) => found i.body (query? (String.ofList owner) (String.ofList name))
    | none => .error (.invalidBody i.kind (String.ofList i.body))

/-- The text that an instruction is replaced by. -/
def Instruction.resolve (table : SymbolTable) (goal : Goal) (i : Instruction) :
    Except Error (List Char) :=
  let name := match goal with
    | .developer => i.readable
    | .production => i.lookup table
  name.map fun name => if i.slashes then name else Text.replaceChar '/' '.' name

end Relabel.Lookup
