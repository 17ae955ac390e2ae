import Relabel.Descriptor
import Relabel.Names

/-!
# Symbol tables

A symbol table maps readable names of classes, fields and methods to the names of another scheme.
Classes are keyed by their internal name, fields by `class.name.descriptor` and methods by
`class.name(parameters)result`. Besides, each table knows its *owners*: the same fields and methods
keyed by `class.name` alone. When several members share such a key, the one whose full key is
greatest counts.
-/

namespace Relabel

/-- The entries of a map under what stands before the last separator in their keys. Keys without
the separator are left out; of entries that fall together the one with the greatest key counts. -/
def Names.byOwner (separator : Char) (names : Names) : Names :=
  names.foldl (fun owners key name =>
    match Text.splitLast? separator key.toList with
    | some (owner, _) => owners.insert (String.ofList owner) name
    | none => owners) ∅

/-- Name maps for classes, fields and methods, with the owners that follow from them. -/
structure SymbolTable where
  classes : Names
  fields : Names
  methods : Names
  fieldOwners : Names := fields.byOwner '.'
  methodOwners : Names := methods.byOwner '('
  fieldOwners_eq : fieldOwners = fields.byOwner '.' := by rfl
  methodOwners_eq : methodOwners = methods.byOwner '(' := by rfl

namespace SymbolTable

def ofNames (classes fields methods : Names) : SymbolTable := { classes, fields, methods }

instance : DecidableEq SymbolTable
  | ⟨c, f, m, fo, mo, foEq, moEq⟩, ⟨c', f', m', fo', mo', foEq', moEq'⟩ =>
    if same : c = c' ∧ f = f' ∧ m = m' then
      .isTrue (by obtain ⟨rfl, rfl, rfl⟩ := same; subst foEq moEq foEq' moEq'; rfl)
    else .isFalse (by rintro ⟨⟩; exact same ⟨rfl, rfl, rfl⟩)

def size (table : SymbolTable) : Nat :=
  table.classes.size + table.fields.size + table.methods.size

def isEmpty (table : SymbolTable) : Bool := table.size = 0

def class? (table : SymbolTable) (name : String) : Option String := table.classes[name]?

/-- The name of the field with this full key. -/
def field? (table : SymbolTable) (key : String) : Option String := table.fields[key]?

/-- The name of the method with this full key. -/
def method? (table : SymbolTable) (key : String) : Option String := table.methods[key]?

/-- The key under which a member of a class is known whatever its descriptor. -/
def ownerKey (owner name : String) : String := owner ++ "." ++ name

/-- The name of a field of a class, whatever its type. -/
def fieldOf? (table : SymbolTable) (owner name : String) : Option String :=
  table.fieldOwners[ownerKey owner name]?

/-- The name of a method of a class, whatever its parameters. -/
def methodOf? (table : SymbolTable) (owner name : String) : Option String :=
  table.methodOwners[ownerKey owner name]?

/-- Renames the class in a descriptor. -/
def renameDescriptor (table : SymbolTable) (descriptor : String) : String :=
  String.ofList (Descriptor.rename
    (fun name => (table.class? (String.ofList name)).map String.toList) descriptor.toList)

def summary (table : SymbolTable) : String :=
  let sizes := s!"classes: {table.classes.size}, fields: {table.fields.size}, "
    ++ s!"methods: {table.methods.size}"
  "SymbolTable \x7b " ++ sizes ++ " \x7d"

end SymbolTable

end Relabel
