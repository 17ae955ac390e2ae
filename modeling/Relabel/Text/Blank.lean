/-!
# Blank characters

Two sets are in use: the Unicode property White_Space, and the five ASCII characters that separate
words in files of bytes (the vertical tab is not among them).
-/

namespace Relabel.Text

/-- The Unicode property White_Space. -/
def isBlank (c : Char) : Bool :=
  let n := c.toNat
  (9 ≤ n && n ≤ 13) || n = 32 || n = 0x85 || n = 0xA0 || n = 0x1680 || (0x2000 ≤ n && n ≤ 0x200A)
    || n = 0x2028 || n = 0x2029 || n = 0x202F || n = 0x205F || n = 0x3000

/-- Space, tab, line feed, form feed and carriage return. -/
def isAsciiBlank (byte : UInt8) : Bool :=
  byte = 32 || byte = 9 || byte = 10 || byte = 12 || byte = 13

/-- The same five as characters. -/
def isAsciiBlankChar (c : Char) : Bool :=
  c = ' ' || c = '\t' || c = '\n' || c = '\x0c' || c = '\r'

def trimEnd (text : List Char) : List Char := (text.reverse.dropWhile isBlank).reverse

/-- Text without the blanks at its start and at its end. -/
def trim (text : List Char) : List Char := trimEnd (text.dropWhile isBlank)

/-- The longest runs of characters outside a set, in order. -/
def wordsFrom (separates : Char → Bool) (word : List Char) (found : List (List Char)) :
    List Char → List (List Char)
  | [] => (if word.isEmpty then found else word.reverse :: found).reverse
  | c :: rest =>
    if separates c then
      wordsFrom separates [] (if word.isEmpty then found else word.reverse :: found) rest
    else wordsFrom separates (c :: word) found rest

/-- The words of a text whose words are separated by ASCII blanks. -/
def asciiWords (text : List Char) : List (List Char) := wordsFrom isAsciiBlankChar [] [] text

end Relabel.Text
