import Relabel.ClassFile.Pool
import Relabel.Proofs.ClassFile.Layout

/-!
# Layouts of constant pools

An entry of a pool is laid out behind its tag, and an unusable slot is not laid out at all. A pool
is *well formed* when its unusable slots are the first one and those behind wide entries; such pools
are the ones that appending entries gives, and the ones that reading gives.

Reading takes the number of slots as it stands in the input, except that zero slots are read as the
one slot that every pool has.
-/

namespace Relabel.ClassFile

/-! ## Entries -/

namespace Constant

open Layout in
/-- The layout of an entry with its tag. -/
def layout : Constant → Layout
  | .text content => u1 1 ++ count .text content.length ++ raw content
  | .integer value => u1 3 ++ u4 value.toUInt32
  | .float bits => u1 4 ++ u4 bits
  | .long value => u1 5 ++ u8 value.toUInt64
  | .double bits => u1 6 ++ u8 bits
  | .classRef name => u1 7 ++ u2 name
  | .string value => u1 8 ++ u2 value
  | .memberRef .field owner pair => u1 9 ++ u2 owner ++ u2 pair
  | .memberRef .method owner pair => u1 10 ++ u2 owner ++ u2 pair
  | .memberRef .interfaceMethod owner pair => u1 11 ++ u2 owner ++ u2 pair
  | .nameAndType name descriptor => u1 12 ++ u2 name ++ u2 descriptor
  | .methodHandle kind reference => u1 15 ++ u1 kind ++ u2 reference
  | .methodType descriptor => u1 16 ++ u2 descriptor
  | .dynamic bootstrap pair => u1 17 ++ u2 bootstrap ++ u2 pair
  | .invokeDynamic bootstrap pair => u1 18 ++ u2 bootstrap ++ u2 pair
  | .module name => u1 19 ++ u2 name
  | .package name => u1 20 ++ u2 name
  | .unusable => raw []

theorem write_eq_emit (constant : Constant) (out : Output) :
    write out constant = constant.layout.emit out := by
  cases constant with
  | text content =>
    have written := Layout.emit_count .text rfl content.length (Output.u1 out 1)
    simp only [write, layout, Layout.emit_append, Layout.emit_u1, written]
    cases Output.count .text (Output.u1 out 1) content.length with
    | error fault => rfl
    | ok out => exact (Layout.emit_bytes content out).symm
  | memberRef kind owner pair => cases kind <;> simp [write, layout, Layout.emit_append]
  | _ => simp [write, layout, Layout.emit_append]

theorem read_sound : Reader.Sound read (· ≠ .unusable) layout := by
  intro input constant rest taken
  simp only [read, Reader.bind_eq_ok, Reader.u1_eq_ok] at taken
  obtain ⟨tag, input, rfl, taken⟩ := taken
  unfold readContent at taken
  split at taken
  -- Only texts have a length of their own; all other entries are one or two numbers.
  case h_18 => exact absurd taken Reader.throw_ne_ok
  all_goals
    simp only [Reader.bind_eq_ok, Reader.pure_eq_ok, Reader.u1_eq_ok, Reader.u2_eq_ok,
      Reader.u4_eq_ok, Reader.u8_eq_ok, Reader.bytes_eq_ok] at taken
  case h_1 =>
    obtain ⟨size, _, rfl, content, _, ⟨sizeEq, rfl⟩, rfl, rfl⟩ := taken
    have counted : UInt16.ofNat content.length = size := by
      rw [sizeEq, UInt16.ofNat_toNat]
    have small : content.length ≤ Part.text.limit := by
      have := size.toNat_lt
      simp only [Part.limit]
      omega
    exact ⟨nofun, by simp [layout, small], by simp [layout, Layout.count, Layout.raw, counted]⟩
  all_goals
    first
    | obtain ⟨value, _, rfl, rfl, rfl⟩ := taken
    | obtain ⟨first, _, rfl, second, _, rfl, rfl, rfl⟩ := taken
    simp [layout]

theorem read_complete {constant : Constant} (usable : constant ≠ .unusable)
    (fits : constant.layout.Fits) : Reader.Complete read layout constant := by
  intro rest
  simp only [read, Reader.bind_eq_ok, Reader.u1_eq_ok]
  cases constant with
  | text content =>
    simp only [layout, Layout.fits_append, Layout.fits_count, Part.limit] at fits
    have counted : (UInt16.ofNat content.length).toNat = content.length := by
      rw [UInt16.toNat_ofNat']
      omega
    refine ⟨1, _, by simp only [layout, Layout.bytes_append, List.append_assoc]; rfl, ?_⟩
    simp only [readContent, Reader.bind_eq_ok, Reader.pure_eq_ok, Reader.u2_eq_ok,
      Reader.bytes_eq_ok]
    exact ⟨_, _, rfl, content, rest, ⟨counted.symm, rfl⟩, rfl, rfl⟩
  | unusable => exact absurd rfl usable
  | memberRef kind owner pair =>
    cases kind <;>
    · simp only [layout, Layout.bytes_append, List.append_assoc]
      refine ⟨_, _, rfl, ?_⟩
      simp only [readContent, Reader.bind_eq_ok, Reader.pure_eq_ok, Reader.u2_eq_ok]
      exact ⟨_, _, rfl, _, _, rfl, rfl, rfl⟩
  | nameAndType first second | methodHandle first second | dynamic first second
  | invokeDynamic first second =>
    simp only [layout, Layout.bytes_append, List.append_assoc]
    refine ⟨_, _, rfl, ?_⟩
    simp only [readContent, Reader.bind_eq_ok, Reader.pure_eq_ok, Reader.u1_eq_ok, Reader.u2_eq_ok]
    exact ⟨_, _, rfl, _, _, rfl, rfl, rfl⟩
  | integer value | float value | long value | double value | classRef value | string value
  | methodType value | module value | package value =>
    simp only [layout, Layout.bytes_append, List.append_assoc]
    refine ⟨_, _, rfl, ?_⟩
    simp only [readContent, Reader.bind_eq_ok, Reader.pure_eq_ok, Reader.u2_eq_ok, Reader.u4_eq_ok,
      Reader.u8_eq_ok]
    exact ⟨_, _, rfl, by simp, rfl⟩

end Constant

/-! ## Pools -/

namespace Pool

/-- The layout of a pool behind its number of slots. -/
def layout (pool : Pool) : Layout := Layout.table .pool Constant.layout pool.slots.toList

theorem write_eq_emit (pool : Pool) (out : Output) : pool.write out = pool.layout.emit out :=
  (Layout.emit_table .pool rfl Constant.write_eq_emit pool.slots.toList out).symm

/-- The unusable slots are the first one and those right behind wide entries. -/
def WellFormed (pool : Pool) : Prop :=
  ∀ index, pool.slots[index]? = some .unusable ↔
    index = 0 ∨ ∃ previous wide, index = previous + 1 ∧
      pool.slots[previous]? = some wide ∧ wide.isWide

theorem empty_wellFormed : empty.WellFormed := by
  intro index
  cases index with
  | zero => simp [empty]
  | succ index =>
    cases index with
    | zero => simp [empty, Constant.isWide]
    | succ index => simp [empty]

theorem WellFormed.size_pos {pool : Pool} (wellFormed : pool.WellFormed) : 0 < pool.size := by
  have first := (wellFormed 0).2 (.inl rfl)
  exact (Array.getElem?_eq_some_iff.1 first).1

/-- A well-formed pool does not end in a wide entry: the slot behind that would be missing. -/
theorem WellFormed.not_wide_at_end {pool : Pool} (wellFormed : pool.WellFormed) {index : Nat}
    {wide : Constant} (found : pool.slots[index]? = some wide) (isWide : wide.isWide) :
    index + 1 < pool.size := by
  have behind := (wellFormed (index + 1)).2 (.inr ⟨index, wide, rfl, found, isWide⟩)
  exact (Array.getElem?_eq_some_iff.1 behind).1

theorem append_wellFormed {pool : Pool} (wellFormed : pool.WellFormed) {constant : Constant}
    (usable : constant ≠ .unusable) : (pool.append constant).WellFormed := by
  intro index
  have old := wellFormed index
  have inside : ∀ {index wide}, pool.slots[index]? = some wide → wide.isWide →
      index + 1 < pool.slots.size := wellFormed.not_wide_at_end
  have positive : 0 < pool.slots.size := wellFormed.size_pos
  have narrow : Constant.isWide .unusable = false := rfl
  cases isWide : constant.isWide with
  | true =>
    simp only [append, isWide, if_true, Array.getElem?_push, Array.size_push]
    grind
  | false =>
    simp only [append, isWide, Bool.false_eq_true, if_false, Array.getElem?_push]
    grind

/-! ### Reading -/

/-- The slots that appending an entry adds have the entry's layout. -/
theorem append_slots (pool : Pool) (constant : Constant) :
    ∃ moved, (pool.append constant).slots.toList = pool.slots.toList ++ constant :: moved ∧
      ∀ slot ∈ moved, slot = .unusable := by
  cases isWide : constant.isWide with
  | true => exact ⟨[.unusable], by simp [append, isWide], by simp⟩
  | false => exact ⟨[], by simp [append, isWide], by simp⟩

theorem entries_behind_unusable {unusable : List Constant}
    (all : ∀ slot ∈ unusable, slot = .unusable) (slots : List Constant) :
    Layout.entries Constant.layout (unusable ++ slots) = Layout.entries Constant.layout slots := by
  induction unusable with
  | nil => rfl
  | cons slot unusable ih =>
    obtain rfl := all slot (by simp)
    rw [List.cons_append, Layout.entries, ih fun slot member => all slot (by simp [member])]
    rfl

theorem fill_sound {count fuel : Nat} {pool filled : Pool} {input rest : Bytes}
    (wellFormed : pool.WellFormed) (read : fill count fuel pool input = .ok (filled, rest)) :
    filled.WellFormed ∧ ∃ moved, filled.slots.toList = pool.slots.toList ++ moved ∧
      (Layout.entries Constant.layout moved).Fits ∧
      input = (Layout.entries Constant.layout moved).bytes ++ rest := by
  induction fuel generalizing pool input with
  | zero =>
    cases read
    exact ⟨wellFormed, [], by simp, by simp, rfl⟩
  | succ fuel ih =>
    simp only [fill] at read
    split at read
    · split at read
      · cases read
      · next constant middle taken =>
        obtain ⟨usable, fits, rfl⟩ := Constant.read_sound taken
        -- The slot behind a wide entry is filled, but nothing is read for it.
        obtain ⟨added, slotsEq, unusable⟩ := append_slots pool constant
        obtain ⟨filledWellFormed, moved, filledEq, movedFit, rfl⟩ :=
          ih (append_wellFormed wellFormed usable) read
        have layouts : Layout.entries Constant.layout (constant :: (added ++ moved)) =
            constant.layout ++ Layout.entries Constant.layout moved := by
          rw [Layout.entries, entries_behind_unusable unusable]
        refine ⟨filledWellFormed, constant :: (added ++ moved), by simp [filledEq, slotsEq], ?_, ?_⟩
        · rw [layouts]
          exact Layout.fits_append.2 ⟨fits, movedFit⟩
        · simp [layouts]
    · cases read
      exact ⟨wellFormed, [], by simp, by simp, rfl⟩

/-- What is read as a pool is its layout, except that the number of slots may be given as zero when
there is only the first slot. -/
theorem read_sound {input rest : Bytes} {pool : Pool} (taken : read input = .ok (pool, rest)) :
    pool.WellFormed ∧ pool.layout.Fits ∧ ∃ count : UInt16, pool.size = max count.toNat 1 ∧
      input = (Layout.u2 count).bytes ++
        (Layout.entries Constant.layout pool.slots.toList).bytes ++ rest := by
  simp only [read, Reader.bind_eq_ok, Reader.u2_eq_ok] at taken
  obtain ⟨count, _, rfl, filled, middle, taken, checked⟩ := taken
  obtain ⟨wellFormed, moved, slotsEq, fits, rfl⟩ := fill_sound empty_wellFormed taken
  split at checked
  case isFalse => exact absurd checked Reader.throw_ne_ok
  case isTrue sizeEq =>
    obtain ⟨rfl, rfl⟩ := Reader.pure_eq_ok.1 checked
    have unusable : ∀ slot ∈ empty.slots.toList, slot = .unusable := by simp [empty]
    have layouts := entries_behind_unusable unusable moved
    rw [← slotsEq] at layouts
    refine ⟨wellFormed, ?_, count, sizeEq, by simp [layouts]⟩
    rw [layout, Layout.table, Layout.fits_append, layouts]
    have small := count.toNat_lt
    exact ⟨by simp only [size] at sizeEq; simp [Part.limit]; omega, fits⟩

theorem fill_complete {pool : Pool} (wellFormed : pool.WellFormed)
    (fits : ∀ constant ∈ pool.slots.toList, constant.layout.Fits) (fuel : Nat)
    (front back : List Constant) (split : pool.slots.toList = front ++ back)
    (atEntry : back.head? ≠ some .unusable) (enough : back.length ≤ fuel) (rest : Bytes) :
    fill pool.size fuel ⟨front.toArray⟩ ((Layout.entries Constant.layout back).bytes ++ rest) =
      .ok (pool, rest) := by
  induction fuel generalizing front back with
  | zero =>
    obtain rfl := List.length_eq_zero_iff.1 (Nat.le_zero.1 enough)
    rw [List.append_nil] at split
    simp [fill, Layout.entries, Layout.raw, ← split]
  | succ fuel ih =>
    have sizeEq : pool.size = front.length + back.length := by
      rw [size, ← Array.length_toList, split, List.length_append]
    cases back with
    | nil =>
      rw [List.append_nil] at split
      simp [fill, Layout.entries, Layout.raw, ← split, size]
    | cons constant back =>
      have usable : constant ≠ .unusable := by simpa using atEntry
      have taken := Constant.read_complete usable (fits constant (by simp [split]))
        ((Layout.entries Constant.layout back).bytes ++ rest)
      have room : size ⟨front.toArray⟩ < pool.size := by
        simp [size] at sizeEq ⊢
        omega
      simp only [fill, room, if_true, Layout.entries, Layout.bytes_append, List.append_assoc, taken]
      have slotAt (index : Nat) : pool.slots[index]? = (front ++ constant :: back)[index]? := by
        rw [← split, Array.getElem?_toList]
      have here : pool.slots[front.length]? = some constant := by simp [slotAt]
      -- Whether the slots that are left start with an unusable one is for the last entry to say.
      have behind : back.head? = some .unusable ↔ constant.isWide := by
        have next := wellFormed (front.length + 1)
        rw [slotAt, List.getElem?_append_right (by omega)] at next
        simpa [List.head?_eq_getElem?, here] using next
      cases isWide : constant.isWide with
      | true =>
        obtain ⟨back, rfl⟩ : ∃ tail, back = .unusable :: tail := by
          cases back with
          | nil => simp [isWide] at behind
          | cons slot tail => exact ⟨tail, by simpa [isWide] using behind⟩
        have atNext : back.head? ≠ some .unusable := by
          have next := wellFormed (front.length + 2)
          rw [slotAt, List.getElem?_append_right (by omega)] at next
          have gap : pool.slots[front.length + 1]? = some .unusable := by
            rw [slotAt, List.getElem?_append_right (by omega)]
            simp
          simpa [List.head?_eq_getElem?, gap, Constant.isWide] using next
        have next := ih (front ++ [constant, .unusable]) back
          (by simpa using split) atNext (by simp at enough; omega)
        simpa [append, isWide, Layout.entries, Constant.layout, Layout.raw] using next
      | false =>
        have next := ih (front ++ [constant]) back (by simpa using split)
          (by simpa [isWide] using behind) (by simpa using enough)
        simpa [append, isWide] using next

theorem read_complete {pool : Pool} (wellFormed : pool.WellFormed) (fits : pool.layout.Fits) :
    Reader.Complete read layout pool := by
  intro rest
  obtain ⟨small, constantsFit⟩ := Layout.fits_table.1 fits
  have sizeEq : pool.slots.toList.length = pool.size := Array.length_toList
  have counted : (UInt16.ofNat pool.slots.toList.length).toNat = pool.size := by
    rw [UInt16.toNat_ofNat', sizeEq]
    simp only [Part.limit] at small
    omega
  have first : pool.slots.toList[0]? = some .unusable := by
    rw [Array.getElem?_toList]
    exact (wellFormed 0).2 (.inl rfl)
  cases slotsEq : pool.slots.toList with
  | nil => simp [slotsEq] at first
  | cons slot back =>
    obtain rfl : slot = .unusable := by simpa [slotsEq] using first
    have atEntry : back.head? ≠ some .unusable := by
      have second := wellFormed 1
      rw [← Array.getElem?_toList, slotsEq] at second
      have gap : pool.slots[0]? = some .unusable := (wellFormed 0).2 (.inl rfl)
      simpa [List.head?_eq_getElem?, gap, Constant.isWide] using second
    have filled := fill_complete wellFormed constantsFit pool.size [.unusable] back slotsEq atEntry
      (by rw [← sizeEq, slotsEq]; simp) rest
    simp only [read, Reader.bind_eq_ok, Reader.u2_eq_ok]
    refine ⟨UInt16.ofNat pool.slots.toList.length,
      (Layout.entries Constant.layout back).bytes ++ rest, ?_, pool, rest, ?_, ?_⟩
    · rw [layout, Layout.table, slotsEq, Layout.entries]
      simp [Layout.count, Constant.layout, Layout.raw]
    · rw [counted]
      exact filled
    · have atLeastOne : pool.size = max pool.size 1 := by
        have := wellFormed.size_pos
        omega
      rw [counted, if_pos atLeastOne]
      rfl

end Pool

end Relabel.ClassFile
