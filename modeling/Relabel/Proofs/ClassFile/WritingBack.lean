import Relabel.Proofs.ClassFile.AttributeLayout

/-!
# Writing back what has been read

A writer *undoes* a reader when it appends, for every value that the reader gives, just the bytes
that the reader has taken off the input. The writers of attributes and annotations undo their
readers at every depth, whatever the pool is: the text of a name decides how a body is read, but a
body of any kind is written as it was found.
-/

namespace Relabel.ClassFile

open Layout

/-- Whatever the reader takes off the input, the writer appends to any output, byte for byte. -/
def Reader.UndoneBy {α : Type} (read : Reader α) (write : Output → α → Except Fault Output) :
    Prop :=
  ∀ {input value rest}, read input = .ok (value, rest) →
    ∃ taken, input = taken ++ rest ∧ ∀ out, write out value = .ok (out ++ taken.toArray)

/-- A sound reader is undone by the writer that emits the same layout: what has been read fits. -/
theorem Reader.undoneBy_of_sound {α : Type} {read : Reader α} {proper : α → Prop}
    {layout : α → Layout} {write : Output → α → Except Fault Output}
    (sound : Sound read proper layout)
    (written : ∀ value out, write out value = (layout value).emit out) : UndoneBy read write := by
  intro input value rest taken
  obtain ⟨-, fits, inputEq⟩ := sound taken
  exact ⟨(layout value).bytes, inputEq, fun out => by rw [written, emit_of_fits fits]⟩

namespace Attribute

/-- What has been read is read again whatever follows, and at every depth that is not below its
number of bytes, so that the bound on the depth decides nothing. -/
theorem readTable_again {pool : Pool} {depth : Nat} {input rest : Bytes}
    {attributes : List Attribute} (read : readTable pool depth input = .ok (attributes, rest)) :
    ∃ taken, input = taken ++ rest ∧ ∀ deeper other, taken.length ≤ deeper →
      readTable pool deeper (taken ++ other) = .ok (attributes, other) := by
  obtain ⟨wellFormed, fits, inputEq⟩ := readTable_sound pool depth read
  exact ⟨_, inputEq, fun deeper other enough =>
    readTable_complete deeper wellFormed fits enough other⟩

/-- Tables of attributes, and at every depth the attributes, the codes, the annotations and the
values in them, are written as the very bytes from which they have been read. -/
theorem readers_undoneBy (pool : Pool) (depth : Nat) :
    Reader.UndoneBy (readTable pool depth) writeTable ∧
      Reader.UndoneBy (read pool depth) write ∧
      Reader.UndoneBy (Code.readWith (read pool depth)) Code.write ∧
      Reader.UndoneBy (AnnotationEntry.read depth) AnnotationEntry.write ∧
      Reader.UndoneBy (ElementValue.read depth) ElementValue.write := by
  have sound : Reader.Sound (read pool depth) (WellFormed pool) layout := read_sound pool depth
  refine ⟨?table, ?entry, ?code, ?annotations, ?value⟩
  case table => exact Reader.undoneBy_of_sound (readTable_sound pool depth) writeTable_eq_emit
  case entry => exact Reader.undoneBy_of_sound sound write_eq_emit
  case code => exact Reader.undoneBy_of_sound (Code.readWith_sound sound) Code.write_eq_emit
  case annotations =>
    exact Reader.undoneBy_of_sound (AnnotationEntry.read_sound depth) AnnotationEntry.write_eq_emit
  case value =>
    exact Reader.undoneBy_of_sound (ElementValue.read_sound depth) ElementValue.write_eq_emit

/-- A pool in which the names of a code and of annotations have a first letter of two bytes. -/
def overlongNames : Pool :=
  ⟨#[.unusable, .text [0xC1, 0x83, 0x6F, 0x64, 0x65],
    .text [0xC1, 0x92, 0x75, 0x6E, 0x74, 0x69, 0x6D, 0x65, 0x56, 0x69, 0x73, 0x69, 0x62, 0x6C, 0x65,
      0x41, 0x6E, 0x6E, 0x6F, 0x74, 0x61, 0x74, 0x69, 0x6F, 0x6E, 0x73]]⟩

/-- A code with an annotation whose array holds an annotation and a text. -/
def annotatedCode : List Attribute :=
  [⟨1, .code
    { maxStack := 0, maxLocals := 1, bytes := [0xB1], handlers := []
      attributes := [⟨2, .annotations [⟨3, [(4, .array [.nested ⟨3, []⟩, .const 115 5])]⟩]⟩] }⟩]

/-- The bytes of this code. -/
def annotatedCodeBytes : Bytes :=
  [0, 1, 0, 1, 0, 0, 0, 38, 0, 0, 0, 1, 0, 0, 0, 1, 0xB1, 0, 0, 0, 1, 0, 2, 0, 0, 0, 19, 0, 1, 0, 3,
    0, 1, 0, 4, 91, 0, 2, 64, 0, 3, 0, 0, 115, 0, 5]

theorem annotatedCode_written_back :
    readTable overlongNames 47 (annotatedCodeBytes ++ [255]) = .ok (annotatedCode, [255]) ∧
      ∀ out, writeTable out annotatedCode = .ok (out ++ annotatedCodeBytes.toArray) := by
  have read : readTable overlongNames 47 (annotatedCodeBytes ++ [255]) =
      .ok (annotatedCode, [255]) := by
    decide +kernel
  obtain ⟨taken, split, written⟩ := (readers_undoneBy overlongNames 47).1 read
  obtain rfl := List.append_cancel_right split
  exact ⟨read, written⟩

end Attribute

end Relabel.ClassFile
