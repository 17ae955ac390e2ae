import Relabel.Names
import Relabel.Text.Quoted

/-!
# Writing JSON

Texts, lists and maps in compact form. Double quotes, backslashes and control characters are
escaped; everything else is written as it is.
-/

namespace Relabel.Json

/-- How a character is written inside a string. -/
def escapeChar (c : Char) : List Char :=
  match c with
  | '"' => ['\\', '"']
  | '\\' => ['\\', '\\']
  | '\x08' => ['\\', 'b']
  | '\x0c' => ['\\', 'f']
  | '\n' => ['\\', 'n']
  | '\r' => ['\\', 'r']
  | '\t' => ['\\', 't']
  | c =>
    if c.toNat < 32 then
      ['\\', 'u', '0', '0', Nat.digitChar (c.toNat / 16), Nat.digitChar (c.toNat % 16)]
    else [c]

def printText (text : String) : List Char :=
  '"' :: text.toList.flatMap escapeChar ++ ['"']

def printItems (items : List (List Char)) : List Char := [','].intercalate items

def printTexts (texts : List String) : List Char :=
  '[' :: printItems (texts.map printText) ++ [']']

def printMember (key : String) (value : List Char) : List Char := printText key ++ ':' :: value

/-- An object with these members, each already in print. -/
def printObject (members : List (List Char)) : List Char :=
  '\x7b' :: printItems members ++ ['\x7d']

/-- A map of texts, in the order of its keys. -/
def printNames (names : Names) : List Char :=
  printObject (names.toList.map fun (key, name) => printMember key (printText name))

end Relabel.Json
