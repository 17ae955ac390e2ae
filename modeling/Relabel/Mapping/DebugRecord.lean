import Relabel.Mapping.Fault
import Relabel.Mapping.Scan

/-!
# Records of a debug mapping

A line of a debug mapping is one of

* `#` and a comment,
* a class header `readable -> obfuscated:`,
* a field `type name -> obfuscated`, behind four spaces,
* a method `type name(arguments) -> obfuscated`, behind four spaces.

A method line may carry the line range `a:b:` before its type and `:c` or `:c:d` behind its
arguments. Such numbers are checked and dropped. A dot in the name of a method separates the class
that it was inlined from.
-/

namespace Relabel.Mapping

inductive DebugRecord
  | comment (text : String)
  | classHeader (readable obfuscated : String)
  | field (type name obfuscated : String)
  /-- The owner is given for methods of a foreign class. -/
  | method (type name obfuscated arguments : String) (owner : Option String)
  deriving DecidableEq, Repr

namespace DebugRecord

open Scan

/-- The text behind the line range that a method may start with, and whether there was one. Text
that does not start with a number has no range. -/
def afterRange? (text : List Char) : Option (Bool × List Char) :=
  match number? text with
  | none => some (false, text)
  | some rest => do
    let rest ← word? ":" rest
    let rest ← number? rest
    let rest ← word? ":" rest
    return (true, rest)

/-- The text behind the line numbers that may follow the arguments of a method. -/
def afterLines? (text : List Char) : Option (List Char) :=
  match word? ":" text with
  | none => some text
  | some rest => do
    let rest ← number? rest
    match word? ":" rest with
    | none => return rest
    | some rest => number? rest

/-- The obfuscated name at the end of a member line. -/
def target? (text : List Char) : Option (List Char) := do
  let rest ← word? " -> " text
  let (obfuscated, rest) ← token? Text.isBlank rest
  if atEnd rest then some obfuscated else none

/-- The method with these tokens; its name is cut at the last dot. -/
def ofMethod (type name obfuscated arguments : List Char) : DebugRecord :=
  match Text.splitLast? '.' name with
  | none =>
    .method (String.ofList type) (String.ofList name) (String.ofList obfuscated)
      (String.ofList arguments) none
  | some (owner, name) =>
    .method (String.ofList type) (String.ofList name) (String.ofList obfuscated)
      (String.ofList arguments) (some (String.ofList owner))

/-- A member line behind its four spaces. -/
def member? (text : List Char) : Option DebugRecord := do
  let (ranged, rest) ← afterRange? text
  let (type, rest) ← token? (· = ' ') rest
  let rest ← word? " " rest
  let (name, rest) ← token? (fun c => c = ' ' || c = '(') rest
  match word? "(" rest with
  | some rest =>
    let (arguments, rest) ← Text.splitFirst? ')' rest
    let rest ← afterLines? rest
    let obfuscated ← target? rest
    return ofMethod type name obfuscated arguments
  | none =>
    let obfuscated ← target? rest
    if ranged then none
    else some (.field (String.ofList type) (String.ofList name) (String.ofList obfuscated))

/-- A class header. -/
def header? (text : List Char) : Option DebugRecord := do
  let (readable, rest) ← token? (· = ' ') text
  let rest ← word? " -> " rest
  let (obfuscated, rest) ← token? (fun c => c = ':' || Text.isBlank c) rest
  let rest ← word? ":" rest
  if atEnd rest then
    some (.classHeader (String.ofList readable) (String.ofList obfuscated))
  else none

def ofText? (text : List Char) : Option DebugRecord :=
  match word? "#" text with
  | some rest => some (.comment (String.ofList (Text.trim rest)))
  | none =>
    match word? "    " text with
    | some rest => member? rest
    | none => header? text

def parse (line : Bytes) : Except Fault DebugRecord :=
  match Utf8.decodeChars line with
  | .error fault => .error (.encoding fault)
  | .ok text =>
    match ofText? text with
    | some record => .ok record
    | none => .error (.malformed .debug)

end DebugRecord

/-- The records of a debug mapping, with a fault in the place of each line that is none. -/
def debugRecords (source : Bytes) : List (Line × Except Fault DebugRecord) :=
  (lines source).map fun line => (line, DebugRecord.parse line.bytes)

end Relabel.Mapping
