import Relabel.Text.Quoted

/-!
# Goals

A goal says which naming scheme lookups resolve to: readable names for developers, or the
obfuscated names of production. Each goal has a name of its own and one more that is understood.
-/

namespace Relabel

/-- The naming scheme that lookups resolve to. -/
inductive Goal
  /-- Readable names, taken from the lookups themselves. -/
  | developer
  /-- Obfuscated names, taken from the symbol table. -/
  | production
  deriving DecidableEq, Repr

namespace Goal

/-- The name under which a goal is written. -/
def name : Goal → String
  | .developer => "developer"
  | .production => "production"

def ofName? (name : String) : Option Goal :=
  if name = "developer" ∨ name = "mojang" then some .developer
  else if name = "production" ∨ name = "spigot" then some .production
  else none

/-- The goal that a user's text names; ASCII letters count in either case. -/
def ofText? (text : String) : Option Goal :=
  ofName? (String.ofList (text.toList.map Char.toLower))

/-- What is said of a text that names no goal. -/
def unknownMessage (text : String) : String := "unknown remap goal " ++ Text.quoted text

theorem ofName?_name (goal : Goal) : ofName? goal.name = some goal := by
  cases goal <;> rfl

end Goal

end Relabel
