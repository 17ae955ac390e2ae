import Mathlib
import Relabel.ClassFile.Format

/-!
# Layouts

The layout of a value is what a class file shows of it: its bytes, and the sizes that are written in
front of its parts, in the order in which they are compared with their limits. A writer *emits* a
layout when it appends the bytes, or refuses with the first part that is beyond its limit.

A reader is *sound* if whatever it takes off the input is the layout of the value that it gives. It
is *complete* for a value if it takes the layout of that value off the input, whatever follows.
-/

namespace Relabel.ClassFile

/-- The largest size that can be written in front of a part: four bytes hold the size of a blob, two
that of all else. -/
def Part.limit : Part → Nat
  | .body | .code => 4294967295
  | _ => 65535

/-- The bytes of a value, and the sizes that are written in front of its parts. -/
structure Layout where
  sizes : List (Part × Nat)
  bytes : Bytes

namespace Layout

instance : Append Layout where
  append front back := ⟨front.sizes ++ back.sizes, front.bytes ++ back.bytes⟩

@[simp] theorem bytes_append (front back : Layout) :
    (front ++ back).bytes = front.bytes ++ back.bytes := rfl

@[simp] theorem sizes_append (front back : Layout) :
    (front ++ back).sizes = front.sizes ++ back.sizes := rfl

/-- Bytes as they are. -/
def raw (bytes : Bytes) : Layout := ⟨[], bytes⟩

def u1 (value : UInt8) : Layout := raw [value]

def u2 (value : UInt16) : Layout := raw [UInt8.ofNat (value.toNat / 256), UInt8.ofNat value.toNat]

def u4 (value : UInt32) : Layout :=
  raw [UInt8.ofNat (value.toNat / 16777216), UInt8.ofNat (value.toNat / 65536),
    UInt8.ofNat (value.toNat / 256), UInt8.ofNat value.toNat]

def u8 (value : UInt64) : Layout :=
  u4 (UInt32.ofNat (value.toNat / 4294967296)) ++ u4 (UInt32.ofNat value.toNat)

/-- The number of entries of a table. -/
def count (part : Part) (size : Nat) : Layout :=
  ⟨[(part, size)], (u2 (UInt16.ofNat size)).bytes⟩

/-- A blob behind its number of bytes, which is known when all of the blob has been written. -/
def blob (part : Part) (content : Layout) : Layout :=
  ⟨content.sizes ++ [(part, content.bytes.length)],
    (u4 (UInt32.ofNat content.bytes.length)).bytes ++ content.bytes⟩

/-- The entries of a table, one after the other. -/
def entries {α : Type} (layout : α → Layout) : List α → Layout
  | [] => raw []
  | value :: rest => layout value ++ entries layout rest

/-- A table behind its number of entries. -/
def table {α : Type} (part : Part) (layout : α → Layout) (values : List α) : Layout :=
  count part values.length ++ entries layout values

/-! ## Numbers of bytes -/

@[simp] theorem length_u1 (value : UInt8) : (u1 value).bytes.length = 1 := rfl

@[simp] theorem length_u2 (value : UInt16) : (u2 value).bytes.length = 2 := rfl

@[simp] theorem length_u4 (value : UInt32) : (u4 value).bytes.length = 4 := rfl

@[simp] theorem length_count (part : Part) (size : Nat) : (count part size).bytes.length = 2 := rfl

@[simp] theorem length_blob (part : Part) (content : Layout) :
    (blob part content).bytes.length = 4 + content.bytes.length := by
  simp [blob]

theorem length_le_entries {α : Type} (layout : α → Layout) {values : List α} {value : α}
    (member : value ∈ values) :
    (layout value).bytes.length ≤ (entries layout values).bytes.length := by
  induction member with
  | head rest => simp [entries]
  | tail other member ih =>
    simp only [entries, bytes_append, List.length_append]
    omega

/-! ## Limits -/

/-- Whether no size is beyond its limit. -/
def Fits (layout : Layout) : Prop := ∀ size ∈ layout.sizes, size.2 ≤ size.1.limit

@[simp] theorem fits_raw (bytes : Bytes) : (raw bytes).Fits := by simp [Fits, raw]

@[simp] theorem fits_u1 (value : UInt8) : (u1 value).Fits := fits_raw _

@[simp] theorem fits_u2 (value : UInt16) : (u2 value).Fits := fits_raw _

@[simp] theorem fits_u4 (value : UInt32) : (u4 value).Fits := fits_raw _

@[simp] theorem fits_append {front back : Layout} :
    (front ++ back).Fits ↔ front.Fits ∧ back.Fits := by
  simp [Fits, or_imp, forall_and]

@[simp] theorem fits_u8 (value : UInt64) : (u8 value).Fits := by simp [u8]

@[simp] theorem fits_count {part : Part} {size : Nat} :
    (count part size).Fits ↔ size ≤ part.limit := by
  simp [Fits, count]

@[simp] theorem fits_blob {part : Part} {content : Layout} :
    (blob part content).Fits ↔ content.Fits ∧ content.bytes.length ≤ part.limit := by
  simp [Fits, blob, or_imp, forall_and]

@[simp] theorem fits_entries {α : Type} {layout : α → Layout} {values : List α} :
    (entries layout values).Fits ↔ ∀ value ∈ values, (layout value).Fits := by
  induction values with
  | nil => simp [entries]
  | cons value rest ih => simp [entries, ih]

@[simp] theorem fits_table {α : Type} {part : Part} {layout : α → Layout} {values : List α} :
    (table part layout values).Fits ↔
      values.length ≤ part.limit ∧ ∀ value ∈ values, (layout value).Fits := by
  simp [table]

/-- The first part whose size is beyond its limit. -/
def tooLarge? (layout : Layout) : Option Part :=
  (layout.sizes.find? fun size => size.1.limit < size.2).map Prod.fst

theorem tooLarge?_eq_none_iff {layout : Layout} : layout.tooLarge? = none ↔ layout.Fits := by
  simp [tooLarge?, Fits]

theorem tooLarge?_append (front back : Layout) :
    (front ++ back).tooLarge? = front.tooLarge?.or back.tooLarge? := by
  simp only [tooLarge?, sizes_append, List.find?_append]
  cases front.sizes.find? fun size => size.1.limit < size.2 <;> rfl

/-! ## Layouts of the same sizes -/

/-- Whether two layouts differ in nothing but what the bytes are. -/
structure Alike (old new : Layout) : Prop where
  sizes : new.sizes = old.sizes
  length : new.bytes.length = old.bytes.length

theorem Alike.refl (layout : Layout) : Alike layout layout := ⟨rfl, rfl⟩

theorem Alike.fits {old new : Layout} (alike : Alike old new) (fits : old.Fits) : new.Fits := by
  rw [Fits, alike.sizes]
  exact fits

theorem alike_raw {old new : Bytes} (length : new.length = old.length) :
    Alike (raw old) (raw new) := ⟨rfl, length⟩

theorem alike_u2 (old new : UInt16) : Alike (u2 old) (u2 new) := ⟨rfl, rfl⟩

theorem Alike.append {front back newFront newBack : Layout} (first : Alike front newFront)
    (second : Alike back newBack) : Alike (front ++ back) (newFront ++ newBack) where
  sizes := by rw [sizes_append, sizes_append, first.sizes, second.sizes]
  length := by simp [first.length, second.length]

theorem Alike.blob {old new : Layout} (part : Part) (alike : Alike old new) :
    Alike (blob part old) (blob part new) where
  sizes := by simp only [Layout.blob, alike.sizes, alike.length]
  length := by simp [alike.length]

theorem alike_entries {α : Type} {layout : α → Layout} {old new : List α}
    (all : List.Forall₂ (fun before after => Alike (layout before) (layout after)) old new) :
    Alike (entries layout old) (entries layout new) := by
  induction all with
  | nil => exact .refl _
  | cons head tail ih => exact head.append ih

theorem alike_table {α : Type} (part : Part) {layout : α → Layout} {old new : List α}
    (all : List.Forall₂ (fun before after => Alike (layout before) (layout after)) old new) :
    Alike (table part layout old) (table part layout new) := by
  rw [table, table, all.length_eq]
  exact (Alike.refl _).append (alike_entries all)

/-! ## Writing -/

/-- Appends a layout, or refuses with the first part that is beyond its limit. -/
def emit (layout : Layout) (out : Output) : Except Fault Output :=
  match layout.tooLarge? with
  | some part => .error (.tooLarge part)
  | none => .ok (out ++ layout.bytes.toArray)

theorem emit_append (front back : Layout) (out : Output) :
    (front ++ back).emit out =
      match front.emit out with
      | .error fault => .error fault
      | .ok out => back.emit out := by
  simp only [emit, tooLarge?_append]
  cases front.tooLarge? <;> cases back.tooLarge? <;> simp

/-- A layout that fits is appended. -/
theorem emit_of_fits {layout : Layout} (fits : layout.Fits) (out : Output) :
    layout.emit out = .ok (out ++ layout.bytes.toArray) := by
  simp [emit, tooLarge?_eq_none_iff.2 fits]

@[simp] theorem emit_raw (bytes : Bytes) (out : Output) :
    (raw bytes).emit out = .ok (out ++ bytes.toArray) := rfl

@[simp] theorem emit_u1 (value : UInt8) (out : Output) :
    (u1 value).emit out = .ok (Output.u1 out value) := by
  simp [u1, Output.u1]

@[simp] theorem emit_u2 (value : UInt16) (out : Output) :
    (u2 value).emit out = .ok (Output.u2 out value) := by
  simp only [u2, emit_raw, Output.u2, Except.ok.injEq]
  apply Array.toList_inj.1
  simp

@[simp] theorem emit_u4 (value : UInt32) (out : Output) :
    (u4 value).emit out = .ok (Output.u4 out value) := by
  simp only [u4, emit_raw, Output.u4, Except.ok.injEq]
  apply Array.toList_inj.1
  simp

@[simp] theorem emit_u8 (value : UInt64) (out : Output) :
    (u8 value).emit out = .ok (Output.u8 out value) := by
  simp [u8, Output.u8, emit_append]

theorem emit_bytes (content : Bytes) (out : Output) :
    (raw content).emit out = .ok (Output.bytes out content) := by
  simp only [emit_raw, Output.bytes, Except.ok.injEq]
  apply Array.toList_inj.1
  simp

theorem emit_count (part : Part) (limit : part.limit = 65535) (size : Nat) (out : Output) :
    (count part size).emit out = Output.count part out size := by
  by_cases small : size < 65536
  · have fits : (count part size).Fits := by
      rw [fits_count]
      omega
    rw [emit_of_fits fits, Output.count, if_pos small, ← emit_u2]
    rfl
  · have large : part.limit < size := by omega
    rw [Output.count, if_neg small]
    simp [emit, tooLarge?, count, large]

/-- A blob is written apart, and its bytes are counted when all of it is there. -/
theorem emit_blob (part : Part) (limit : part.limit = 4294967295) (content : Layout)
    (out : Output) :
    (blob part content).emit out =
      match content.emit #[] with
      | .error fault => .error fault
      | .ok written => Output.blob part out written := by
  have split : (blob part content).tooLarge? =
      content.tooLarge?.or (tooLarge? ⟨[(part, content.bytes.length)], []⟩) := by
    rw [← tooLarge?_append]
    rfl
  simp only [emit, split]
  -- A part of the content that is too large is refused before the length of the blob.
  cases content.tooLarge? with
  | some inner => rfl
  | none =>
    by_cases small : content.bytes.length < 4294967296
    · have fits : ¬ part.limit < content.bytes.length := by omega
      have appended := emit_u4 (UInt32.ofNat content.bytes.length) out
      rw [emit_of_fits (fits_u4 _), Except.ok.injEq] at appended
      have written : Output.blob part out content.bytes.toArray = .ok _ :=
        if_pos small
      simp [tooLarge?, fits, blob, Array.append_assoc, ← appended, written]
    · have large : part.limit < content.bytes.length := by omega
      have refused : Output.blob part out content.bytes.toArray = .error (.tooLarge part) :=
        if_neg small
      simp [tooLarge?, large, refused]

theorem emit_entries {α : Type} {write : Output → α → Except Fault Output} {layout : α → Layout}
    (written : ∀ value out, write out value = (layout value).emit out) (values : List α)
    (out : Output) :
    (entries layout values).emit out = Output.entries write out values := by
  induction values generalizing out with
  | nil => simp [entries, Output.entries]
  | cons value rest ih =>
    simp only [entries, emit_append, Output.entries, written]
    cases (layout value).emit out with
    | error fault => rfl
    | ok out => exact ih out

theorem emit_table {α : Type} (part : Part) {write : Output → α → Except Fault Output}
    {layout : α → Layout} (limit : part.limit = 65535)
    (written : ∀ value out, write out value = (layout value).emit out) (values : List α)
    (out : Output) :
    (table part layout values).emit out = Output.table part write out values := by
  simp only [table, emit_append, emit_count part limit, Output.table]
  cases Output.count part out values.length with
  | error fault => rfl
  | ok out => exact emit_entries written values out

end Layout

/-! ## Reading -/

namespace Reader

theorem bind_eq_ok {α β : Type} {first : Reader α} {next : α → Reader β} {input rest : Bytes}
    {value : β} :
    (first >>= next) input = .ok (value, rest) ↔
      ∃ found middle, first input = .ok (found, middle) ∧ next found middle = .ok (value, rest) := by
  show (first input >>= fun taken => next taken.1 taken.2) = .ok (value, rest) ↔ _
  cases first input with
  | error fault => simp [bind, Except.bind]
  | ok taken =>
    obtain ⟨found, middle⟩ := taken
    simp [bind, Except.bind, and_assoc]

theorem pure_eq_ok {α : Type} {found value : α} {input rest : Bytes} :
    (pure found : Reader α) input = .ok (value, rest) ↔ found = value ∧ input = rest := by
  show Except.ok (found, input) = .ok (value, rest) ↔ _
  simp

theorem throw_ne_ok {α : Type} {fault : Fault} {value : α} {input rest : Bytes} :
    (throw fault : Reader α) input ≠ .ok (value, rest) := nofun

theorem lift_eq_ok {α : Type} {made : Except Fault α} {input rest : Bytes} {value : α} :
    (liftM made : Reader α) input = .ok (value, rest) ↔ made = .ok value ∧ input = rest := by
  cases made with
  | error fault => exact ⟨nofun, nofun⟩
  | ok found =>
    show Except.ok (found, input) = .ok (value, rest) ↔ _
    simp

theorem u1_eq_ok {input rest : Bytes} {value : UInt8} :
    u1 input = .ok (value, rest) ↔ input = (Layout.u1 value).bytes ++ rest := by
  cases input with
  | nil => simp [u1, Layout.u1, Layout.raw]
  | cons byte tail => simp [u1, Layout.u1, Layout.raw]

theorem u2_eq_ok {input rest : Bytes} {value : UInt16} :
    u2 input = .ok (value, rest) ↔ input = (Layout.u2 value).bytes ++ rest := by
  match input with
  | [] | [_] => simp [u2, Layout.u2, Layout.raw]
  | a :: b :: tail =>
    simp only [u2, Layout.u2, Layout.raw, Except.ok.injEq, Prod.mk.injEq, List.cons_append,
      List.nil_append, List.cons.injEq, ← UInt16.toNat_inj, ← UInt8.toNat_inj,
      UInt16.toNat_ofNat', UInt8.toNat_ofNat', ← and_assoc]
    have := a.toNat_lt
    have := b.toNat_lt
    have := value.toNat_lt
    refine and_congr_left fun _ => ⟨fun digits => ?_, fun digits => ?_⟩ <;> omega

theorem u4_eq_ok {input rest : Bytes} {value : UInt32} :
    u4 input = .ok (value, rest) ↔ input = (Layout.u4 value).bytes ++ rest := by
  match input with
  | [] | [_] | [_, _] | [_, _, _] => simp [u4, Layout.u4, Layout.raw]
  | a :: b :: c :: d :: tail =>
    simp only [u4, Layout.u4, Layout.raw, Except.ok.injEq, Prod.mk.injEq, List.cons_append,
      List.nil_append, List.cons.injEq, ← UInt32.toNat_inj, ← UInt8.toNat_inj,
      UInt32.toNat_ofNat', UInt8.toNat_ofNat', ← and_assoc]
    have := a.toNat_lt
    have := b.toNat_lt
    have := c.toNat_lt
    have := d.toNat_lt
    have := value.toNat_lt
    refine and_congr_left fun _ => ⟨fun digits => ?_, fun digits => ?_⟩ <;> omega

theorem u8_eq_ok {input rest : Bytes} {value : UInt64} :
    u8 input = .ok (value, rest) ↔ input = (Layout.u8 value).bytes ++ rest := by
  simp only [u8, bind_eq_ok, pure_eq_ok, u4_eq_ok, Layout.u8, Layout.bytes_append,
    List.append_assoc]
  have halves (high low : UInt32) :
      UInt64.ofNat (high.toNat * 4294967296 + low.toNat) = value ↔
        high = UInt32.ofNat (value.toNat / 4294967296) ∧ low = UInt32.ofNat value.toNat := by
    simp only [← UInt64.toNat_inj, ← UInt32.toNat_inj, UInt64.toNat_ofNat', UInt32.toNat_ofNat']
    have := high.toNat_lt
    have := low.toNat_lt
    have := value.toNat_lt
    omega
  constructor
  · rintro ⟨high, _, rfl, low, _, rfl, whole, rfl⟩
    obtain ⟨rfl, rfl⟩ := (halves high low).1 whole
    rfl
  · rintro rfl
    exact ⟨_, _, rfl, _, _, rfl, (halves _ _).2 ⟨rfl, rfl⟩, rfl⟩

theorem bytes_eq_ok {count : Nat} {input content rest : Bytes} :
    bytes count input = .ok (content, rest) ↔
      content.length = count ∧ input = content ++ rest := by
  rw [← Bytes.splitExact?_eq_some_iff, bytes]
  cases Bytes.splitExact? count input <;> simp

/-- Whatever the reader takes off the input is the layout of the value that it gives, and this value
is proper. -/
def Sound {α : Type} (read : Reader α) (proper : α → Prop) (layout : α → Layout) : Prop :=
  ∀ {input value rest}, read input = .ok (value, rest) →
    proper value ∧ (layout value).Fits ∧ input = (layout value).bytes ++ rest

/-- The reader takes the layout of the value off the input, whatever follows. -/
def Complete {α : Type} (read : Reader α) (layout : α → Layout) (value : α) : Prop :=
  ∀ rest, read ((layout value).bytes ++ rest) = .ok (value, rest)

theorem u2_sound : Sound u2 (fun _ => True) Layout.u2 :=
  fun read => ⟨trivial, Layout.fits_u2 _, u2_eq_ok.1 read⟩

theorem u2_complete (value : UInt16) : Complete u2 Layout.u2 value :=
  fun _ => u2_eq_ok.2 rfl

theorem manyFrom_sound {α : Type} {entry : Reader α} {proper : α → Prop} {layout : α → Layout}
    (sound : Sound entry proper layout) {found values : List α} {count : Nat}
    {input rest : Bytes} (read : manyFrom entry found count input = .ok (values, rest)) :
    ∃ moved, values = found.reverse ++ moved ∧ moved.length = count ∧
      (∀ value ∈ moved, proper value ∧ (layout value).Fits) ∧
      input = (Layout.entries layout moved).bytes ++ rest := by
  -- The values found so far are kept in reverse, and those still to come are `moved`.
  induction count generalizing found input with
  | zero =>
    simp only [manyFrom, Except.ok.injEq, Prod.mk.injEq] at read
    exact ⟨[], by simp [read.1], rfl, by simp, by simp [Layout.entries, Layout.raw, read.2]⟩
  | succ count ih =>
    simp only [manyFrom] at read
    split at read
    · cases read
    · next value middle first =>
      obtain ⟨isProper, fits, inputEq⟩ := sound first
      obtain ⟨moved, valuesEq, size, good, middleEq⟩ := ih read
      refine ⟨value :: moved, by simp [valuesEq], by simp [size], ?_, ?_⟩
      · rintro other (_ | ⟨_, member⟩)
        · exact ⟨isProper, fits⟩
        · exact good other member
      · simp [Layout.entries, inputEq, middleEq]

theorem manyFrom_complete {α : Type} {entry : Reader α} {layout : α → Layout} {values : List α}
    (complete : ∀ value ∈ values, Complete entry layout value) (found : List α) (rest : Bytes) :
    manyFrom entry found values.length ((Layout.entries layout values).bytes ++ rest) =
      .ok (found.reverse ++ values, rest) := by
  induction values generalizing found with
  | nil => simp [manyFrom, Layout.entries, Layout.raw]
  | cons value values ih =>
    have first := complete value (by simp)
      ((Layout.entries layout values).bytes ++ rest)
    simp only [List.length_cons, manyFrom, Layout.entries, Layout.bytes_append, List.append_assoc,
      first]
    rw [ih fun other member => complete other (by simp [member])]
    simp

theorem table_sound {α : Type} (part : Part) {entry : Reader α} {proper : α → Prop}
    {layout : α → Layout} (limit : part.limit = 65535) (sound : Sound entry proper layout) :
    Sound (table entry) (fun values => ∀ value ∈ values, proper value)
      (Layout.table part layout) := by
  intro input values rest read
  simp only [table, many, bind_eq_ok, u2_eq_ok] at read
  obtain ⟨count, middle, rfl, read⟩ := read
  obtain ⟨_, rfl, size, good, rfl⟩ := manyFrom_sound sound read
  have small := count.toNat_lt
  refine ⟨fun value member => (good value member).1, ?_, ?_⟩
  · rw [Layout.fits_table]
    exact ⟨by omega, fun value member => (good value member).2⟩
  · simp [Layout.table, Layout.count, size]

theorem table_complete {α : Type} (part : Part) {entry : Reader α} {layout : α → Layout}
    {values : List α} (size : values.length ≤ 65535)
    (complete : ∀ value ∈ values, Complete entry layout value) :
    Complete (table entry) (Layout.table part layout) values := by
  intro rest
  simp only [table, many, bind_eq_ok, u2_eq_ok]
  refine ⟨UInt16.ofNat values.length, (Layout.entries layout values).bytes ++ rest, ?_, ?_⟩
  · simp [Layout.table, Layout.count]
  · have counted : (UInt16.ofNat values.length).toNat = values.length := by
      rw [UInt16.toNat_ofNat']
      omega
    rw [counted]
    exact manyFrom_complete complete [] rest

end Reader

end Relabel.ClassFile
