import Relabel.Text.Utf8

/-!
# Lookup instructions

A lookup instruction is embedded in a text as `SRC(body)`, `SRM(body)` or `SRF(body)`, which look
up a class, a method or a field. An `A` right before it selects the advanced mode, and a slash
before the parenthesis keeps slashes in the result. The body reaches up to the parenthesis that
closes the opening one.

The text from `SR` up to the opening parenthesis is an *opener*. An opener whose parenthesis is
never closed is an error, and only the first opener of a text counts.
-/

namespace Relabel.Lookup

/-- How the body of an instruction is read. -/
inductive Mode
  /-- A dotted class name, and a member name behind a space. -/
  | simple
  /-- A key of the symbol table. -/
  | advanced
  deriving DecidableEq, Repr

inductive Kind
  | type
  | method
  | field
  deriving DecidableEq, Repr

def Kind.name : Kind → String
  | .type => "class"
  | .method => "method"
  | .field => "field"

def Kind.ofLetter? (c : Char) : Option Kind :=
  if c = 'C' then some .type
  else if c = 'M' then some .method
  else if c = 'F' then some .field
  else none

def Kind.letter : Kind → Char
  | .type => 'C'
  | .method => 'M'
  | .field => 'F'

structure Instruction where
  mode : Mode
  kind : Kind
  /-- Whether the result keeps its slashes. -/
  slashes : Bool
  body : List Char
  deriving DecidableEq, Repr

def Instruction.spell (i : Instruction) : List Char :=
  (if i.mode = .advanced then ['A'] else []) ++ 'S' :: 'R' :: i.kind.letter ::
    ((if i.slashes then ['/'] else []) ++ '(' :: i.body ++ [')'])

structure Occurrence where
  before : List Char
  instruction : Instruction
  after : List Char
  deriving DecidableEq, Repr

/-- The byte offset at which an instruction starts. -/
def Occurrence.start (o : Occurrence) : Nat := Utf8.size o.before

def Occurrence.stop (o : Occurrence) : Nat := o.start + Utf8.size o.instruction.spell

/-- The kind and the slash flag of an opener at the front of a text, with the text behind it. -/
def opener? : List Char → Option (Kind × Bool × List Char)
  | 'S' :: 'R' :: letter :: '/' :: '(' :: rest =>
    (Kind.ofLetter? letter).map fun kind => (kind, true, rest)
  | 'S' :: 'R' :: letter :: '(' :: rest =>
    (Kind.ofLetter? letter).map fun kind => (kind, false, rest)
  | _ => none

/-- The text before and behind the parenthesis that closes an open one, where `depth` more have
been opened since and `read` is the text up to here, last character first. -/
def closeFrom (read : List Char) (depth : Nat) : List Char → Option (List Char × List Char)
  | [] => none
  | c :: rest =>
    if c = '(' then closeFrom (c :: read) (depth + 1) rest
    else if c = ')' then
      match depth with
      | 0 => some (read.reverse, rest)
      | depth + 1 => closeFrom (c :: read) depth rest
    else closeFrom (c :: read) depth rest

/-- What a search finds at the first opener: an instruction, or the byte offset at which one starts
that is never closed. -/
def atOpener (seen : List Char) (kind : Kind) (slashes : Bool) (rest : List Char) :
    Except Nat Occurrence :=
  let (mode, before) := match seen with
    | 'A' :: before => (Mode.advanced, before.reverse)
    | _ => (Mode.simple, seen.reverse)
  match closeFrom [] 0 rest with
  | some (body, after) => .ok { before, instruction := { mode, kind, slashes, body }, after }
  | none => .error (Utf8.size before)

/-- The first instruction of a text, where `seen` is the text before it, last character first. -/
def findFrom (seen : List Char) : List Char → Option (Except Nat Occurrence)
  | [] => none
  | c :: rest =>
    match opener? (c :: rest) with
    | some (kind, slashes, rest) => some (atOpener seen kind slashes rest)
    | none => findFrom (c :: seen) rest

/-- The first instruction of a text, if there is any. -/
def find (text : List Char) : Option (Except Nat Occurrence) := findFrom [] text

end Relabel.Lookup
