import Relabel.Text.Blank
import Relabel.Text.Split

/-!
# Descriptors

Readable type names such as `java.lang.String[][]` and JVM descriptors such as
`[[Ljava/lang/String;` name the same types. This module turns the first into the second, takes
descriptors apart, and renames the class inside a descriptor.
-/

namespace Relabel.Descriptor

/-- The letter of a primitive type keyword. -/
def primitive? (type : List Char) : Option Char :=
  if type = "void".toList then some 'V'
  else if type = "boolean".toList then some 'Z'
  else if type = "byte".toList then some 'B'
  else if type = "char".toList then some 'C'
  else if type = "short".toList then some 'S'
  else if type = "int".toList then some 'I'
  else if type = "long".toList then some 'J'
  else if type = "float".toList then some 'F'
  else if type = "double".toList then some 'D'
  else none

/-- Whether a letter stands for a primitive type or for `void`. -/
def isPrimitive (c : Char) : Bool :=
  c = 'Z' || c = 'B' || c = 'C' || c = 'S' || c = 'I' || c = 'J' || c = 'F' || c = 'D' || c = 'V'

/-- The internal form of a class name, with slashes for dots. -/
def internalName (name : List Char) : List Char := Text.replaceChar '.' '/' name

/-- The descriptor of a class. -/
def ofClass (name : List Char) : List Char := 'L' :: internalName name ++ [';']

/-- The descriptor of a type name without array brackets. -/
def ofElement (type : List Char) : List Char :=
  match primitive? type with
  | some letter => [letter]
  | none => ofClass type

/-- The number of array dimensions: how often an opening bracket is followed at once by a closing
one. -/
def dimensions : List Char → Nat
  | '[' :: ']' :: rest => dimensions rest + 1
  | _ :: rest => dimensions rest
  | [] => 0

/-- The descriptor of a readable type name. Every pair of brackets adds one dimension, and the
element type ends at the first opening bracket, if there is a pair at all. -/
def ofType (type : List Char) : List Char :=
  match dimensions type with
  | 0 => ofElement type
  | count => List.replicate count '[' ++ ofElement (type.takeWhile (· ≠ '['))

/-- The descriptors of a list of readable argument types, separated by commas. Empty arguments are
left out; blanks around an argument do not belong to it. -/
def ofArguments (arguments : List Char) : List Char :=
  ((arguments.splitOn ',').filter (!·.isEmpty)).flatMap fun argument => ofType (Text.trim argument)

/-- The element of a descriptor with its number of array dimensions. -/
def element (descriptor : List Char) : Nat × List Char :=
  let dims := descriptor.takeWhile (· = '[')
  (dims.length, descriptor.dropWhile (· = '['))

/-- The text between `L` and a semicolon at the very end, if it is not empty. -/
def className? (element : List Char) : Option (List Char) :=
  match element with
  | 'L' :: rest =>
    match rest.reverse with
    | ';' :: name => if name.isEmpty then none else some name.reverse
    | _ => none
  | _ => none

/-- The array dimensions and the class name of a descriptor that names a class. -/
def splitObject? (descriptor : List Char) : Option (Nat × List Char) :=
  let (dims, elem) := element descriptor
  (className? elem).map fun name => (dims, name)

/-- Renames the class in a descriptor. A descriptor without a class, and one whose class has no
new name, stays as it is. -/
def rename (newName? : List Char → Option (List Char)) (descriptor : List Char) : List Char :=
  match splitObject? descriptor with
  | none => descriptor
  | some (dims, name) =>
    match newName? name with
    | none => descriptor
    | some newName => List.replicate dims '[' ++ 'L' :: newName ++ [';']

/-- Whether a text can stand behind the parameters of a method descriptor. -/
def isReturn (descriptor : List Char) : Bool :=
  match (element descriptor).2 with
  | [] => false
  | [c] => isPrimitive c
  | _ => (splitObject? descriptor).isSome

/-- The parameters in a run of descriptors, behind those already `found`. The parameter being read
has the characters `current`, last one first; `inClass` tells whether they include an `L` whose
semicolon is still to come. -/
def parametersFrom (inClass : Bool) (current : List Char) (found : List (List Char)) :
    List Char → Option (List (List Char))
  | [] => if current.isEmpty then some found.reverse else none
  | c :: rest =>
    if inClass then
      if c = ';' then parametersFrom false [] ((c :: current).reverse :: found) rest
      else parametersFrom true (c :: current) found rest
    else if c = 'L' then parametersFrom true (c :: current) found rest
    else if c = '[' then parametersFrom false (c :: current) found rest
    else if isPrimitive c && c ≠ 'V' then
      parametersFrom false [] ((c :: current).reverse :: found) rest
    else none

/-- The parameter descriptors and the return descriptor of a method descriptor. -/
def splitMethod? (descriptor : List Char) : Option (List (List Char) × List Char) :=
  match descriptor with
  | '(' :: rest => do
    let (parameters, result) ← Text.splitFirst? ')' rest
    if isReturn result then
      let parameters ← parametersFrom false [] [] parameters
      return (parameters, result)
    else none
  | _ => none

end Relabel.Descriptor
