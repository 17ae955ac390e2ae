import Relabel.ClassFile.Constant
import Relabel.Text.ModifiedUtf8

/-!
# Constant pools

A pool is a row of slots, numbered from zero, of which the first is unusable. Entries are only ever
appended, up to 65535 slots in all; what an index once meant it means for good, except that a string
can be made to refer to another text.

Operations that append several entries may fail halfway, and then leave those behind that they have
appended so far. They are *edits*: functions that return the pool whether they fail or not.
-/

namespace Relabel.ClassFile

structure Pool where
  slots : Array Constant
  deriving DecidableEq, Repr

namespace Pool

def empty : Pool := ⟨#[.unusable]⟩

/-- The number of slots, which is also the index of the next entry. -/
def size (pool : Pool) : Nat := pool.slots.size

def isEmpty (pool : Pool) : Bool := pool.size ≤ 1

/-- The usable entries with their indexes. -/
def entries (pool : Pool) : List (Nat × Constant) :=
  (pool.slots.toList.zipIdx.map fun (constant, index) => (index, constant)).filter
    fun entry => entry.2 ≠ .unusable

/-! ## Reading and writing -/

/-- Puts an entry behind the last slot, with an unusable slot behind a wide one. -/
def append (pool : Pool) (constant : Constant) : Pool :=
  if constant.isWide then ⟨(pool.slots.push constant).push .unusable⟩
  else ⟨pool.slots.push constant⟩

/-- Appends entries until there are `count` slots. Each takes at least one, so `fuel` of them are
enough if that many slots are missing. -/
def fill (count : Nat) : (fuel : Nat) → Pool → Reader Pool
  | 0, pool, input => .ok (pool, input)
  | fuel + 1, pool, input =>
    if pool.size < count then
      match Constant.read input with
      | .error fault => .error fault
      | .ok (constant, rest) => fill count fuel (pool.append constant) rest
    else .ok (pool, input)

/-- A pool behind its number of slots. A wide entry must not reach beyond the last slot. -/
def read : Reader Pool := do
  let count := (← Reader.u2).toNat
  let pool ← fill count count empty
  if pool.size = max count 1 then return pool
  else throw (.invalidIndex (UInt16.ofNat (pool.size - 1)))

/-- Appends a pool behind its number of slots. -/
def write (out : Output) (pool : Pool) : Except Fault Output :=
  Output.table .pool Constant.write out pool.slots.toList

/-! ## Looking up entries -/

/-- The usable entry with an index. -/
def get (pool : Pool) (index : UInt16) : Except Fault Constant :=
  match pool.slots[index.toNat]? with
  | none | some .unusable => .error (.invalidIndex index)
  | some constant => .ok constant

def text (pool : Pool) (index : UInt16) : Except Fault String := do
  match ← pool.get index with
  | .text bytes =>
    match ModifiedUtf8.decode bytes with
    | some text => return text
    | none => throw (.invalidText index)
  | _ => throw (.invalidIndex index)

/-- The name of the class with an index. -/
def className (pool : Pool) (index : UInt16) : Except Fault String := do
  match ← pool.get index with
  | .classRef name => pool.text name
  | _ => throw (.invalidIndex index)

/-- The value of the string with an index. -/
def string (pool : Pool) (index : UInt16) : Except Fault String := do
  match ← pool.get index with
  | .string text => pool.text text
  | _ => throw (.invalidIndex index)

/-- The owner, name and descriptor of a member reference. -/
structure Member where
  owner : String
  name : String
  descriptor : String
  deriving DecidableEq, Repr

/-- The member that the reference with an index refers to. -/
def member (pool : Pool) (index : UInt16) : Except Fault Member := do
  match ← pool.get index with
  | .memberRef _ owner nameAndType =>
    match ← pool.get nameAndType with
    | .nameAndType name descriptor =>
      let owner ← pool.className owner
      let name ← pool.text name
      let descriptor ← pool.text descriptor
      return { owner, name, descriptor }
    | _ => throw (.invalidIndex nameAndType)
  | _ => throw (.invalidIndex index)

/-- The text with an index, or nothing if its bytes encode no text. -/
def text? (pool : Pool) (index : UInt16) : Except Fault (Option String) :=
  match pool.text index with
  | .ok text => .ok (some text)
  | .error (.invalidText _) => .ok none
  | .error fault => .error fault

/-! ## Edits -/

/-- A change of a pool, which may fail after part of its work. -/
abbrev Edit := ExceptT Fault (StateM Pool)

/-- Appends an entry and gives its index. -/
def push (constant : Constant) : Edit UInt16 := fun pool =>
  if pool.size + (if constant.isWide then 2 else 1) ≤ 65535 then
    (.ok (UInt16.ofNat pool.size), pool.append constant)
  else (.error .poolFull, pool)

/-- The index of the first text with these bytes. -/
def indexOfText? (pool : Pool) (bytes : Bytes) : Option UInt16 :=
  (pool.slots.findIdx? (· == .text bytes)).map UInt16.ofNat

/-- The index of a text, which is appended unless the pool has it. -/
def addText (text : String) : Edit UInt16 := fun pool =>
  let bytes := ModifiedUtf8.encode text
  if 65535 < bytes.length then (.error (.textTooLong bytes.length), pool)
  else
    match pool.indexOfText? bytes with
    | some index => (.ok index, pool)
    | none => push (.text bytes) pool

/-- Appends a class, after its name if need be. -/
def addClass (name : String) : Edit UInt16 := do
  push (.classRef (← addText name))

/-- Appends a string, after its text if need be. -/
def addString (value : String) : Edit UInt16 := do
  push (.string (← addText value))

/-- Appends a method reference, after its class, and after its name and type. -/
def addMethodRef (owner name descriptor : String) : Edit UInt16 := do
  let owner ← addClass owner
  let name ← addText name
  let descriptor ← addText descriptor
  let nameAndType ← push (.nameAndType name descriptor)
  push (.memberRef .method owner nameAndType)

/-- Makes a string refer to another text. -/
def redirect (index text : UInt16) : Edit Unit := fun pool =>
  match pool.get text with
  | .ok (.text _) =>
    match pool.slots[index.toNat]? with
    | some (.string _) => (.ok (), ⟨pool.slots.set! index.toNat (.string text)⟩)
    | _ => (.error (.invalidIndex index), pool)
  | _ => (.error (.invalidIndex text), pool)

end Pool

end Relabel.ClassFile
