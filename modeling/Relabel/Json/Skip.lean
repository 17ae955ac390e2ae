import Relabel.Json.Number

/-!
# Skipping a JSON value

A member that a reader does not know is checked for its form and passed over. The number of nested
and neighbouring values is at most the number of bytes, which bounds the recursion.
-/

namespace Relabel.Json

/-- The text behind a number whose value nobody wants. A number that is cut off is malformed. -/
def skipNumber (text : Bytes) : Except Fault Bytes :=
  match number text with
  | .ok (_, rest) => .ok rest
  | .error _ => .error .malformed

mutual

def skipValueWithin : (fuel : Nat) → Bytes → Except Fault Bytes
  | 0, _ => .error .truncated
  | fuel + 1, text =>
    match skipBlanks text with
    | [] => .error .truncated
    | 110 :: rest => skipWord [117, 108, 108] rest
    | 116 :: rest => skipWord [114, 117, 101] rest
    | 102 :: rest => skipWord [97, 108, 115, 101] rest
    | 34 :: rest => skipString rest
    | 91 :: rest =>
      match skipBlanks rest with
      | 93 :: rest => .ok rest
      | rest => skipItemsWithin fuel rest
    | 123 :: rest =>
      match skipBlanks rest with
      | 125 :: rest => .ok rest
      | rest => skipMembersWithin fuel rest
    | byte :: rest =>
      if byte = 45 || isDigit byte then skipNumber (byte :: rest) else .error .malformed

/-- The text behind the items of a list that is not empty. -/
def skipItemsWithin : (fuel : Nat) → Bytes → Except Fault Bytes
  | 0, _ => .error .truncated
  | fuel + 1, text =>
    match skipValueWithin fuel text with
    | .error fault => .error fault
    | .ok rest =>
      match skipBlanks rest with
      | [] => .error .truncated
      | 44 :: rest => skipItemsWithin fuel rest
      | 93 :: rest => .ok rest
      | _ => .error .malformed

/-- The text behind the members of an object that is not empty. -/
def skipMembersWithin : (fuel : Nat) → Bytes → Except Fault Bytes
  | 0, _ => .error .truncated
  | fuel + 1, text =>
    match skipBlanks text with
    | [] => .error .truncated
    | 34 :: rest =>
      match skipString rest with
      | .error fault => .error fault
      | .ok rest =>
        match skipBlanks rest with
        | [] => .error .truncated
        | 58 :: rest =>
          match skipValueWithin fuel rest with
          | .error fault => .error fault
          | .ok rest =>
            match skipBlanks rest with
            | [] => .error .truncated
            | 44 :: rest => skipMembersWithin fuel rest
            | 125 :: rest => .ok rest
            | _ => .error .malformed
        | _ => .error .malformed
    | _ => .error .malformed

end

def skipValue (text : Bytes) : Except Fault Bytes := skipValueWithin (2 * text.length + 2) text

end Relabel.Json
