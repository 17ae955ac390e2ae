import Relabel.Lookup.Resolve

/-!
# Processing a text

The first instruction of a text is replaced by what it resolves to, and the new text is processed
from its start again, until there is no instruction left. A result may bring up new instructions,
so that a text settles after finitely many replacements or never. How many of them are waited for is
up to the caller: one for every opening parenthesis of the text, which is enough if no result has
one, and a reserve beyond these. A text that settles does so with every reserve that is large
enough, and always in the same way.
-/

namespace Relabel.Lookup

/-- A text with its first instruction replaced, or nothing if there is no instruction. -/
def step (table : SymbolTable) (goal : Goal) (text : List Char) :
    Option (Except Error (List Char)) :=
  (find text).map fun
    | .error start => .error (.unterminated start)
    | .ok o => (o.instruction.resolve table goal).map fun name => o.before ++ name ++ o.after

/-- A text after at most `budget` replacements that leave it without instructions. -/
def settle (table : SymbolTable) (goal : Goal) : (budget : Nat) → List Char →
    Except Error (List Char)
  | budget, text =>
    match step table goal text with
    | none => .ok text
    | some (.error error) => .error error
    | some (.ok text) =>
      match budget with
      | 0 => .error .unsettled
      | budget + 1 => settle table goal budget text

/-- The text with all instructions replaced, or nothing if there is none. There may be `reserve`
replacements beyond one for each opening parenthesis. -/
def processChars (reserve : Nat) (table : SymbolTable) (goal : Goal) (text : List Char) :
    Except Error (Option (List Char)) :=
  if (find text).isSome then (settle table goal (text.count '(' + reserve) text).map some
  else .ok none

/-- The text with all instructions replaced, or nothing if there is none. -/
def process (reserve : Nat) (table : SymbolTable) (goal : Goal) (text : String) :
    Except Error (Option String) :=
  (processChars reserve table goal text.toList).map (·.map String.ofList)

end Relabel.Lookup
