import Relabel.Json.Skip
import Relabel.Names

/-!
# Reading JSON of a known shape

Readers for the shapes that this library stores: texts, lists, maps of texts, and records with
named fields. A record may also be written as the list of its fields. A value of another shape is a
mismatch, unless something is wrong inside that value before its shape is known.
-/

namespace Relabel.Json

/-- The fault of a value of an unwanted shape. -/
def wrongShape (text : Bytes) : Fault :=
  match text with
  | [] => .truncated
  | 110 :: rest => outcome (skipWord [117, 108, 108] rest)
  | 116 :: rest => outcome (skipWord [114, 117, 101] rest)
  | 102 :: rest => outcome (skipWord [97, 108, 115, 101] rest)
  | 34 :: rest => outcome (string rest)
  | 91 :: _ => .mismatch
  | 123 :: _ => .mismatch
  | byte :: rest =>
    if byte = 45 || isDigit byte then
      match number (byte :: rest) with
      | .error fault => fault
      | .ok (value, _) => if value.isTooLarge then .malformed else .mismatch
    else .malformed
where
  /-- A value that can be read is of the wrong shape. -/
  outcome {α : Type} : Except Fault α → Fault
    | .error fault => fault
    | .ok _ => .mismatch

def text (input : Bytes) : Except Fault (String × Bytes) :=
  match skipBlanks input with
  | 34 :: rest => string rest
  | rest => .error (wrongShape rest)

def null (input : Bytes) : Except Fault Bytes :=
  match skipBlanks input with
  | 110 :: rest => skipWord [117, 108, 108] rest
  | rest => .error (wrongShape rest)

/-- The text behind the colon of a member. -/
def colon (input : Bytes) : Except Fault Bytes :=
  match skipBlanks input with
  | [] => .error .truncated
  | 58 :: rest => .ok rest
  | _ => .error .malformed

/-- The text of the next item of a list, or nothing at the end of the list, which is left in
place. -/
def nextItem (first : Bool) (input : Bytes) : Except Fault (Option Bytes) :=
  match skipBlanks input with
  | [] => .error .truncated
  | 93 :: _ => .ok none
  | 44 :: rest =>
    if first then .ok (some (44 :: rest))
    else
      match skipBlanks rest with
      | [] => .error .truncated
      | 93 :: _ => .error .malformed
      | rest => .ok (some rest)
  | rest => if first then .ok (some rest) else .error .malformed

/-- The text behind the end of a list. -/
def endList (input : Bytes) : Except Fault Bytes :=
  match skipBlanks input with
  | [] => .error .truncated
  | 93 :: rest => .ok rest
  | _ => .error .malformed

/-- The items of a list behind those already `found`, last one first. -/
def itemsWithin {α : Type} (read : Reader α) :
    (fuel : Nat) → (first : Bool) → (found : List α) → Bytes → Except Fault (List α × Bytes)
  | 0, _, _, _ => .error .truncated
  | fuel + 1, first, found, input =>
    match nextItem first input with
    | .error fault => .error fault
    | .ok none => (endList input).map fun rest => (found.reverse, rest)
    | .ok (some rest) =>
      match read rest with
      | .error fault => .error fault
      | .ok (item, rest) => itemsWithin read fuel false (item :: found) rest

def list {α : Type} (read : Reader α) (input : Bytes) : Except Fault (List α × Bytes) :=
  match skipBlanks input with
  | 91 :: rest => itemsWithin read (rest.length + 1) true [] rest
  | rest => .error (wrongShape rest)

/-- An item of a record that is written as a list. -/
def required {α : Type} (read : Reader α) (first : Bool) (input : Bytes) :
    Except Fault (α × Bytes) := do
  match ← nextItem first input with
  | none => .error .mismatch
  | some rest => read rest

/-- An item of a record that is written as a list, which may be left out together with all items
behind it. -/
def optional {α : Type} (absent : α) (read : Reader α) (first : Bool) (input : Bytes) :
    Except Fault (α × Bytes) := do
  match ← nextItem first input with
  | none => return (absent, input)
  | some rest => read rest

/-- The text of the next key of an object behind its opening quote, or nothing at the end of the
object, which is passed. -/
def nextKey (first : Bool) (input : Bytes) : Except Fault (Bytes ⊕ Bytes) :=
  match skipBlanks input with
  | [] => .error .truncated
  | 125 :: rest => .ok (.inr rest)
  | 34 :: rest => if first then .ok (.inl rest) else .error .malformed
  | 44 :: rest =>
    if first then .error .malformed
    else
      match skipBlanks rest with
      | [] => .error .truncated
      | 34 :: rest => .ok (.inl rest)
      | _ => .error .malformed
  | _ => .error .malformed

/-- The members of an object, each of which changes a state. `member` reads from behind the key. -/
def membersWithin {σ : Type} (member : σ → String → Reader σ) :
    (fuel : Nat) → (first : Bool) → σ → Reader σ
  | 0, _, _, _ => .error .truncated
  | fuel + 1, first, state, input =>
    match nextKey first input with
    | .error fault => .error fault
    | .ok (.inr rest) => .ok (state, rest)
    | .ok (.inl rest) =>
      match string rest with
      | .error fault => .error fault
      | .ok (key, rest) =>
        match member state key rest with
        | .error fault => .error fault
        | .ok (state, rest) => membersWithin member fuel false state rest

/-- The members of an object behind its opening brace. -/
def members {σ : Type} (member : σ → String → Reader σ) (start : σ) (input : Bytes) :
    Except Fault (σ × Bytes) :=
  membersWithin member (input.length + 1) true start input

def value {α : Type} (read : Reader α) (input : Bytes) : Except Fault (α × Bytes) := do
  read (← colon input)

/-- The value of a record's field, which must not have been given before. -/
def field {α : Type} (given : Option α) (read : Reader α) (input : Bytes) :
    Except Fault (Option α × Bytes) :=
  match given with
  | some _ => .error .mismatch
  | none => (value read input).map fun (found, rest) => (some found, rest)

/-- Passes over the value of a member. -/
def unknown {σ : Type} (state : σ) (input : Bytes) : Except Fault (σ × Bytes) := do
  let rest ← colon input
  return (state, ← skipValue rest)

/-- A map of texts; the last value of a repeated key counts. -/
def names (input : Bytes) : Except Fault (Names × Bytes) :=
  match skipBlanks input with
  | 123 :: rest =>
    members (fun names key input => do
      let (name, rest) ← value text input
      return (names.insert key name, rest)) ∅ rest
  | rest => .error (wrongShape rest)

/-- A value that takes up a whole text. -/
def whole {α : Type} (read : Reader α) (input : Bytes) : Except Fault α := do
  let (result, rest) ← read input
  if (skipBlanks rest).isEmpty then return result else .error .malformed

end Relabel.Json
