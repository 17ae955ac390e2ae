import Relabel.Text.Blank
import Relabel.Text.Split

/-!
# Scanning a line

A scanner takes a token from the front of a text and leaves the rest, or refuses. Records of the
debug format are sequences of such tokens.
-/

namespace Relabel.Mapping.Scan

def word? (word : String) (text : List Char) : Option (List Char) :=
  word.toList.isPrefixOf? text

/-- The longest front without a stopping character, which must not be empty, and the rest. -/
def token? (stops : Char → Bool) (text : List Char) : Option (List Char × List Char) :=
  match text.span (!stops ·) with
  | ([], _) => none
  | (token, rest) => some (token, rest)

/-- The value of a run of decimal digits. -/
def value (digits : List Char) : Nat :=
  digits.foldl (fun total c => total * 10 + (c.toNat - '0'.toNat)) 0

/-- The text behind a line number: a run of digits, not empty, whose value fits 64 bits. -/
def number? (text : List Char) : Option (List Char) :=
  match text.span Char.isDigit with
  | ([], _) => none
  | (digits, rest) => if value digits < 1 <<< 64 then some rest else none

/-- Whether nothing but blanks is left. -/
def atEnd (text : List Char) : Bool := text.all Text.isBlank

end Relabel.Mapping.Scan
