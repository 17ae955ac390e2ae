/-!
# Splitting text at a character
-/

namespace Relabel.Text

/-- The text before and after the first occurrence of a character. -/
def splitFirst? (separator : Char) (text : List Char) : Option (List Char × List Char) :=
  match text.span (· ≠ separator) with
  | (_, []) => none
  | (before, _ :: after) => some (before, after)

/-- The text before and after the last occurrence of a character. -/
def splitLast? (separator : Char) (text : List Char) : Option (List Char × List Char) :=
  (splitFirst? separator text.reverse).map fun (after, before) => (before.reverse, after.reverse)

/-- Replaces each occurrence of one character by another. -/
def replaceChar (old new : Char) (text : List Char) : List Char :=
  text.map fun c => if c = old then new else c

end Relabel.Text
