import Mathlib
import Relabel.ClassFile.Attribute
import Relabel.ClassFile.Bytecode

/-!
# Decoding and changing bytecode

Decoding cuts a code into whole instructions that follow each other without a gap, up to its end or
to an opcode with which none starts; there is only one way to do so. Changing the constant pool
index of an instruction keeps its length, so that all others are decoded as before, at the same
offsets.
-/

namespace Relabel.ClassFile

namespace Opcode

/-- The opcodes without a fixed number of operand bytes. -/
theorem operandCount?_eq_none_iff {opcode : UInt8} :
    operandCount? opcode = none ↔
      opcode = tableSwitch ∨ opcode = lookupSwitch ∨ opcode = wide ∨ 0xC9 < opcode := by
  -- Checked for each of the 256 opcodes.
  have all : ∀ code < 256, operandCount? (UInt8.ofNat code) = none ↔
      UInt8.ofNat code = tableSwitch ∨ UInt8.ofNat code = lookupSwitch ∨ UInt8.ofNat code = wide ∨
        0xC9 < UInt8.ofNat code := by decide +kernel
  have here := all opcode.toNat opcode.toNat_lt
  rwa [UInt8.ofNat_toNat] at here

end Opcode

namespace Instruction

/-! ## Numbers of operand bytes -/

/-- How many bytes behind the opcode decide how many there are. -/
def header (offset : Nat) (opcode : UInt8) : Nat :=
  if opcode = Opcode.tableSwitch then padding offset + 12
  else if opcode = Opcode.lookupSwitch then padding offset + 8
  else if opcode = Opcode.wide then 1
  else 0

theorem int32?_append {front : Bytes} (enough : 4 ≤ front.length) (back : Bytes) :
    int32? (front ++ back) = int32? front := by
  match front with
  | [] | [_] | [_, _] | [_, _, _] => simp at enough
  | _ :: _ :: _ :: _ :: _ => rfl

theorem int32?_drop_append {front : Bytes} {count : Nat} (enough : count + 4 ≤ front.length)
    (back : Bytes) : int32? ((front ++ back).drop count) = int32? (front.drop count) := by
  have inside : 4 ≤ (front.drop count).length := by
    rw [List.length_drop]
    omega
  rw [List.drop_append_of_le_length (by omega), int32?_append inside]

/-- The bytes of the header decide, and what follows them does not matter. -/
theorem operandCount_append {offset : Nat} {opcode : UInt8} {front : Bytes}
    (enough : header offset opcode ≤ front.length) (back : Bytes) :
    operandCount offset opcode (front ++ back) = operandCount offset opcode front := by
  unfold operandCount
  cases Opcode.operandCount? opcode with
  | some count => rfl
  | none =>
    unfold header at enough
    simp only [List.drop_drop]
    by_cases isTable : opcode = Opcode.tableSwitch
    · rw [if_pos isTable] at enough
      simp only [if_pos isTable]
      rw [int32?_drop_append (by omega), int32?_drop_append (by omega)]
    · by_cases isLookup : opcode = Opcode.lookupSwitch
      · rw [if_neg isTable, if_pos isLookup] at enough
        simp only [if_neg isTable, if_pos isLookup]
        rw [int32?_drop_append (by omega)]
      · by_cases isWide : opcode = Opcode.wide
        · rw [if_neg isTable, if_neg isLookup, if_pos isWide] at enough
          simp only [if_neg isTable, if_neg isLookup, if_pos isWide]
          cases front with
          | nil => simp at enough
          | cons form front => rfl
        · simp only [if_neg isTable, if_neg isLookup, if_neg isWide]

theorem header_le_of_operandCount {offset count : Nat} {opcode : UInt8} {rest : Bytes}
    (counted : operandCount offset opcode rest = .ok count) : header offset opcode ≤ count := by
  revert counted
  unfold header
  fun_cases operandCount offset opcode rest with
  | case1 rest count fixed =>
    rintro ⟨⟩
    -- The three opcodes with a header have no fixed number of operand bytes.
    have noHeader : ¬ (opcode = Opcode.tableSwitch ∨ opcode = Opcode.lookupSwitch ∨
        opcode = Opcode.wide ∨ 0xC9 < opcode) := by
      simp [← Opcode.operandCount?_eq_none_iff, fixed]
    simp only [not_or] at noHeader
    simp [noHeader]
  | case3 rest noCount isTable =>
    rintro ⟨⟩
    rw [if_pos isTable]
    omega
  | case6 rest noCount notTable isLookup =>
    rintro ⟨⟩
    rw [if_neg notTable, if_pos isLookup]
    omega
  | case9 noCount notTable notLookup isWide form tail =>
    rintro ⟨⟩
    rw [if_neg notTable, if_neg notLookup, if_pos isWide]
    split <;> omega
  | case2 | case4 | case5 | case7 | case8 | case10 => nofun

/-! ## Whole instructions -/

/-- Whether an instruction has as many operand bytes as its opcode takes. -/
def WellFormed (i : Instruction) : Prop :=
  operandCount i.offset i.opcode i.operands = .ok i.operands.length

/-- The bytes of an instruction. -/
def bytes (i : Instruction) : Bytes := i.opcode :: i.operands

theorem wellFormed_iff (i : Instruction) (rest : Bytes) :
    i.WellFormed ↔ operandCount i.offset i.opcode (i.operands ++ rest) = .ok i.operands.length := by
  unfold WellFormed
  constructor
  · intro counted
    rw [operandCount_append (header_le_of_operandCount counted), counted]
  · intro counted
    rw [← operandCount_append (header_le_of_operandCount counted) rest, counted]

/-! ## Faults -/

/-- Whether no instruction starts with an opcode, whatever may follow the bytes behind it: it is
beyond the last opcode that is defined, or that of a switch with impossible bounds. -/
inductive IsInvalid (offset : Nat) (opcode : UInt8) (rest : Bytes) : Prop
  | undefined (beyond : 0xC9 < opcode)
  | table {low high : Int} (isTable : opcode = Opcode.tableSwitch)
      (hasLow : int32? (rest.drop (padding offset + 4)) = some low)
      (hasHigh : int32? (rest.drop (padding offset + 8)) = some high) (reversed : high < low)
  | lookup {pairs : Int} (isLookup : opcode = Opcode.lookupSwitch)
      (hasCount : int32? (rest.drop (padding offset + 4)) = some pairs) (negative : pairs < 0)

variable {offset : Nat} {opcode : UInt8} {rest : Bytes}

theorem IsInvalid.operandCount_eq (isInvalid : IsInvalid offset opcode rest) :
    operandCount offset opcode rest = .error (.invalidInstruction opcode offset) := by
  have noCount : Opcode.operandCount? opcode = none := by
    apply Opcode.operandCount?_eq_none_iff.2
    cases isInvalid with
    | undefined beyond => exact .inr (.inr (.inr beyond))
    | table isTable => exact .inl isTable
    | lookup isLookup => exact .inr (.inl isLookup)
  cases isInvalid with
  | undefined beyond =>
    have isOther (other : UInt8) (within : other ≤ 0xC9) : opcode ≠ other := by
      rintro rfl
      exact absurd beyond (UInt8.not_lt.2 within)
    simp [operandCount, noCount, isOther Opcode.tableSwitch (by decide),
      isOther Opcode.lookupSwitch (by decide), isOther Opcode.wide (by decide)]
  | table isTable hasLow hasHigh reversed =>
    subst isTable
    simp [operandCount, noCount, List.drop_drop, hasLow, hasHigh, reversed]
  | lookup isLookup hasCount negative =>
    subst isLookup
    have notTable : Opcode.lookupSwitch ≠ Opcode.tableSwitch := by decide
    simp [operandCount, noCount, notTable, List.drop_drop, hasCount, negative]

/-- Operands cannot be counted for an invalid instruction, or for want of the bytes that decide. -/
theorem operandCount_eq_error {fault : Fault}
    (failed : operandCount offset opcode rest = .error fault) :
    fault = .unexpectedEnd ∨
      IsInvalid offset opcode rest ∧ fault = .invalidInstruction opcode offset := by
  revert failed
  fun_cases operandCount offset opcode rest with
  | case2 rest noCount isTable table low high hasHigh hasLow reversed =>
    rintro ⟨⟩
    simp only [table, List.drop_drop] at hasLow hasHigh
    exact .inr ⟨.table isTable hasLow hasHigh reversed, rfl⟩
  | case5 rest noCount notTable isLookup pairs hasCount negative =>
    rintro ⟨⟩
    rw [List.drop_drop] at hasCount
    exact .inr ⟨.lookup isLookup hasCount negative, rfl⟩
  | case10 rest noCount notTable notLookup notWide =>
    rintro ⟨⟩
    have beyond : 0xC9 < opcode := by
      simpa [notTable, notLookup, notWide] using Opcode.operandCount?_eq_none_iff.1 noCount
    exact .inr ⟨.undefined beyond, rfl⟩
  | case1 | case3 | case6 | case9 => nofun
  | case4 | case7 | case8 =>
    rintro ⟨⟩
    exact .inl rfl

/-- Why no whole instruction starts with an opcode: it is invalid, or the bytes end inside of it. -/
inductive FaultAt (offset : Nat) (opcode : UInt8) (rest : Bytes) : Fault → Prop
  | invalid (isInvalid : IsInvalid offset opcode rest) :
      FaultAt offset opcode rest (.invalidInstruction opcode offset)
  | cut (isValid : ¬ IsInvalid offset opcode rest)
      (isCut : ∀ operands back, rest = operands ++ back →
        ¬ WellFormed ⟨offset, opcode, operands⟩) :
      FaultAt offset opcode rest .unexpectedEnd

theorem faultAt_of_operandCount {fault : Fault}
    (failed : operandCount offset opcode rest = .error fault) : FaultAt offset opcode rest fault := by
  obtain rfl | ⟨isInvalid, rfl⟩ := operandCount_eq_error failed
  · apply FaultAt.cut
    · intro isInvalid
      simp [isInvalid.operandCount_eq] at failed
    · rintro operands back rfl wellFormed
      rw [wellFormed_iff _ back] at wellFormed
      cases failed.symm.trans wellFormed
  · exact .invalid isInvalid

/-- The bytes end inside of an instruction if they are fewer than its operands. -/
theorem faultAt_of_splitExact? {count : Nat} (counted : operandCount offset opcode rest = .ok count)
    (short : Bytes.splitExact? count rest = none) : FaultAt offset opcode rest .unexpectedEnd := by
  apply FaultAt.cut
  · intro isInvalid
    simp [isInvalid.operandCount_eq] at counted
  · rintro operands back rfl wellFormed
    rw [wellFormed_iff _ back] at wellFormed
    cases counted.symm.trans wellFormed
    simp [Bytes.splitExact?_eq_some_iff.2 ⟨rfl, rfl⟩] at short

/-- No whole instruction starts where there is a fault. -/
theorem FaultAt.not_wellFormed {fault : Fault} {operands back : Bytes}
    (isFault : FaultAt offset opcode (operands ++ back) fault) :
    ¬ WellFormed ⟨offset, opcode, operands⟩ := by
  cases isFault with
  | invalid isInvalid =>
    intro wellFormed
    rw [wellFormed_iff _ back] at wellFormed
    cases isInvalid.operandCount_eq.symm.trans wellFormed
  | cut isValid isCut => exact isCut operands back rfl

theorem FaultAt.eq_invalid_iff {fault : Fault} (isFault : FaultAt offset opcode rest fault) :
    fault = .invalidInstruction opcode offset ↔ IsInvalid offset opcode rest := by
  cases isFault with
  | invalid isInvalid => simp [isInvalid]
  | cut isValid => simp [isValid]

theorem FaultAt.eq_cut_iff {fault : Fault} (isFault : FaultAt offset opcode rest fault) :
    fault = .unexpectedEnd ↔ ¬ IsInvalid offset opcode rest := by
  cases isFault with
  | invalid isInvalid => simp [isInvalid]
  | cut isValid => simp [isValid]

theorem FaultAt.unique {first second : Fault} (one : FaultAt offset opcode rest first)
    (other : FaultAt offset opcode rest second) : first = second := by
  by_cases isInvalid : IsInvalid offset opcode rest
  · rw [one.eq_invalid_iff.2 isInvalid, other.eq_invalid_iff.2 isInvalid]
  · rw [one.eq_cut_iff.2 isInvalid, other.eq_cut_iff.2 isInvalid]

/-- Of two whole instructions that start with the same bytes none goes on behind the other. -/
theorem WellFormed.unique {i j : Instruction} {back other : Bytes} (first : i.WellFormed)
    (second : j.WellFormed) (sameOffset : i.offset = j.offset)
    (sameBytes : i.bytes ++ back = j.bytes ++ other) : i = j ∧ back = other := by
  obtain ⟨offset, opcode, operands⟩ := i
  obtain ⟨_, _, operands'⟩ := j
  obtain rfl := sameOffset
  obtain ⟨rfl, sameRest⟩ := List.cons.inj sameBytes
  replace sameRest : operands ++ back = operands' ++ other := sameRest
  have counted : operandCount offset opcode (operands ++ back) = .ok operands.length :=
    (wellFormed_iff _ back).1 first
  have countedToo : operandCount offset opcode (operands' ++ other) = .ok operands'.length :=
    (wellFormed_iff _ other).1 second
  rw [sameRest, countedToo] at counted
  obtain ⟨rfl, rfl⟩ := List.append_inj sameRest (Except.ok.inj counted).symm
  exact ⟨rfl, rfl⟩

end Instruction

namespace Bytecode

/-- The bytes of instructions, one after the other. -/
def assemble (instructions : List Instruction) : Bytes := instructions.flatMap (·.bytes)

/-- Whether whole instructions follow each other from an offset on. -/
def Consecutive (offset : Nat) : List Instruction → Prop
  | [] => True
  | i :: rest => i.offset = offset ∧ i.WellFormed ∧ Consecutive (offset + i.bytes.length) rest

theorem consecutive_append {offset : Nat} {front back : List Instruction} :
    Consecutive offset (front ++ back) ↔
      Consecutive offset front ∧ Consecutive (offset + (assemble front).length) back := by
  induction front generalizing offset with
  | nil => simp [Consecutive, assemble]
  | cons i front ih =>
    simp only [List.cons_append, Consecutive, ih, and_assoc]
    simp [assemble, Nat.add_assoc]

/-! ## Decoding -/

open Instruction

/-- What is left of a code behind whole instructions: nothing, or a fault. -/
inductive EndsWith (offset : Nat) : Bytes → Option Fault → Prop
  | nothing : EndsWith offset [] none
  | fault {opcode : UInt8} {rest : Bytes} {fault : Fault}
      (isFault : FaultAt offset opcode rest fault) : EndsWith offset (opcode :: rest) (some fault)

/-- Whether a code from an offset on is made of whole instructions that follow each other, up to its
end or to a fault. -/
def Tiles (offset : Nat) (code : Bytes) (decoded : Decoded) : Prop :=
  Consecutive offset decoded.instructions ∧ ∃ rest, code = assemble decoded.instructions ++ rest ∧
    EndsWith (offset + (assemble decoded.instructions).length) rest decoded.fault

section

variable {offset : Nat} {code : Bytes} {fault : Option Fault}

theorem tiles_nil_iff : Tiles offset code ⟨[], fault⟩ ↔ EndsWith offset code fault := by
  simp [Tiles, Consecutive, assemble]

theorem tiles_cons_iff {i : Instruction} {instructions : List Instruction} :
    Tiles offset code ⟨i :: instructions, fault⟩ ↔ i.offset = offset ∧ i.WellFormed ∧
      ∃ back, code = i.bytes ++ back ∧
        Tiles (offset + i.bytes.length) back ⟨instructions, fault⟩ := by
  simp only [Tiles, Consecutive, assemble, List.flatMap_cons, List.length_append, List.append_assoc,
    ← Nat.add_assoc]
  constructor
  · rintro ⟨⟨sameOffset, wellFormed, consecutive⟩, rest, rfl, ends⟩
    exact ⟨sameOffset, wellFormed, _, rfl, consecutive, rest, rfl, ends⟩
  · rintro ⟨sameOffset, wellFormed, _, rfl, consecutive, rest, rfl, ends⟩
    exact ⟨⟨sameOffset, wellFormed, consecutive⟩, rest, rfl, ends⟩

/-- Where nothing or a fault is left no whole instruction starts. -/
theorem EndsWith.not_wellFormed {i : Instruction} {back : Bytes}
    (ends : EndsWith i.offset (i.bytes ++ back) fault) : ¬ i.WellFormed := by
  cases ends with
  | fault isFault => exact isFault.not_wellFormed

theorem EndsWith.unique {other : Option Fault} (ends : EndsWith offset code fault)
    (endsToo : EndsWith offset code other) : fault = other := by
  cases ends with
  | nothing =>
    cases endsToo
    rfl
  | fault isFault =>
    cases endsToo with
    | fault isFaultToo => rw [isFault.unique isFaultToo]

/-- A code can be cut into instructions and a fault in one way only. -/
theorem Tiles.unique {first second : Decoded} (one : Tiles offset code first)
    (other : Tiles offset code second) : first = second := by
  obtain ⟨instructions, fault⟩ := first
  obtain ⟨instructions', fault'⟩ := second
  induction instructions generalizing offset code instructions' with
  | nil =>
    rw [tiles_nil_iff] at one
    cases instructions' with
    | nil => rw [one.unique (tiles_nil_iff.1 other)]
    | cons j others =>
      obtain ⟨rfl, wellFormed, back, rfl, -⟩ := tiles_cons_iff.1 other
      exact absurd wellFormed one.not_wellFormed
  | cons i instructions ih =>
    obtain ⟨rfl, wellFormed, back, rfl, tiles⟩ := tiles_cons_iff.1 one
    cases instructions' with
    | nil => exact absurd wellFormed (tiles_nil_iff.1 other).not_wellFormed
    | cons j others =>
      obtain ⟨sameOffset, wellFormedToo, backToo, sameBytes, tilesToo⟩ := tiles_cons_iff.1 other
      obtain ⟨rfl, rfl⟩ := wellFormed.unique wellFormedToo sameOffset.symm sameBytes
      cases ih tiles _ tilesToo
      rfl

/-- An instruction is made of the bytes at its offset. -/
theorem Tiles.drop_offset {decoded : Decoded} (tiles : Tiles 0 code decoded) {i : Instruction}
    (member : i ∈ decoded.instructions) : ∃ behind, code.drop i.offset = i.bytes ++ behind := by
  obtain ⟨consecutive, rest, rfl, -⟩ := tiles
  obtain ⟨front, back, split⟩ := List.append_of_mem member
  rw [split] at consecutive
  obtain ⟨-, stands, -⟩ := consecutive_append.1 consecutive
  rw [Nat.zero_add] at stands
  refine ⟨assemble back ++ rest, ?_⟩
  rw [split, stands]
  simp [assemble]

end

/-- Decoding cuts the code, and puts the instructions behind those that have been found. -/
theorem decodeFrom_tiles (found : List Instruction) (offset : Nat) {fuel : Nat} {code : Bytes}
    (enough : code.length ≤ fuel) :
    ∃ instructions fault, Tiles offset code ⟨instructions, fault⟩ ∧
      decodeFrom found offset fuel code = ⟨found.reverse ++ instructions, fault⟩ := by
  -- Each instruction takes at least its opcode off the code, so that one unit of fuel for every byte
  -- is enough.
  induction fuel generalizing found offset code with
  | zero =>
    obtain rfl := List.length_eq_zero_iff.1 (Nat.le_zero.1 enough)
    exact ⟨[], none, tiles_nil_iff.2 .nothing, by simp [decodeFrom]⟩
  | succ fuel ih =>
    cases code with
    | nil => exact ⟨[], none, tiles_nil_iff.2 .nothing, by simp [decodeFrom]⟩
    | cons opcode rest =>
      cases counted : operandCount offset opcode rest with
      | error fault =>
        have isFault := faultAt_of_operandCount counted
        exact ⟨[], some fault, tiles_nil_iff.2 (.fault isFault), by simp [decodeFrom, counted]⟩
      | ok count =>
        cases split : Bytes.splitExact? count rest with
        | none =>
          have isFault := faultAt_of_splitExact? counted split
          exact ⟨[], _, tiles_nil_iff.2 (.fault isFault), by simp [decodeFrom, counted, split]⟩
        | some parts =>
          obtain ⟨operands, back⟩ := parts
          obtain ⟨rfl, rfl⟩ := Bytes.splitExact?_eq_some_iff.1 split
          have enough : back.length ≤ fuel := by
            simp only [List.length_cons, List.length_append] at enough
            omega
          obtain ⟨instructions, fault, tiles, decoded⟩ :=
            ih (⟨offset, opcode, operands⟩ :: found) (offset + 1 + operands.length) enough
          refine ⟨⟨offset, opcode, operands⟩ :: instructions, fault, tiles_cons_iff.2 ?_, ?_⟩
          · refine ⟨rfl, (wellFormed_iff _ back).2 counted, back, rfl, ?_⟩
            rwa [Instruction.bytes, List.length_cons, Nat.add_comm operands.length, ← Nat.add_assoc]
          · simp [decodeFrom, counted, split, decoded]

/-- Decoding a code gives the one way to cut it. -/
theorem decode_eq_iff_tiles {code : Bytes} {decoded : Decoded} :
    decode code = decoded ↔ Tiles 0 code decoded := by
  obtain ⟨instructions, fault, tiles, same⟩ := decodeFrom_tiles [] 0 (Nat.le_refl code.length)
  rw [decode, same]
  constructor
  · rintro rfl
    exact tiles
  · exact tiles.unique

/-- Code decodes to whole instructions without a gap, and to nothing else. -/
theorem decode_eq_iff {code : Bytes} {instructions : List Instruction} :
    decode code = ⟨instructions, none⟩ ↔
      Consecutive 0 instructions ∧ code = assemble instructions := by
  rw [decode_eq_iff_tiles, Tiles]
  constructor
  · rintro ⟨consecutive, rest, rfl, ends⟩
    cases ends
    simp [consecutive]
  · rintro ⟨consecutive, rfl⟩
    exact ⟨consecutive, [], by simp, .nothing⟩

end Bytecode

/-! ## Changing an index -/

namespace Instruction

/-- The instruction with another constant pool index, if it has one and can hold the new one. -/
def withIndex? (i : Instruction) (index : UInt16) : Option Instruction :=
  if i.opcode = Opcode.ldc then
    match i.operands with
    | [] => none
    | _ :: rest =>
      if 255 < index.toNat then none
      else some { i with operands := UInt8.ofNat index.toNat :: rest }
  else if Opcode.hasIndex i.opcode then
    match i.operands with
    | _ :: _ :: rest =>
      some { i with
             operands :=
              UInt8.ofNat (index.toNat / 256) :: UInt8.ofNat index.toNat :: rest }
    | _ => none
  else none

theorem two_le_operandCount? {opcode : UInt8} (hasIndex : Opcode.hasIndex opcode) :
    ∃ count, Opcode.operandCount? opcode = some count ∧ 2 ≤ count := by
  -- Checked for each of the 256 opcodes.
  have all : ∀ code < 256, Opcode.hasIndex (UInt8.ofNat code) = true →
      (Opcode.operandCount? (UInt8.ofNat code)).any (2 ≤ ·) = true := by decide +kernel
  have here := all opcode.toNat opcode.toNat_lt
  rw [UInt8.ofNat_toNat] at here
  simpa [Option.any_eq_true] using here hasIndex

/-- The instructions with an index have operands to hold it. -/
theorem WellFormed.operands_of_hasIndex {i : Instruction} (wellFormed : i.WellFormed)
    (hasIndex : Opcode.hasIndex i.opcode) :
    ∃ high low rest, i.operands = high :: low :: rest := by
  obtain ⟨count, fixed, enough⟩ := two_le_operandCount? hasIndex
  simp only [WellFormed, operandCount, fixed, Except.ok.injEq] at wellFormed
  match operandsEq : i.operands with
  | [] | [_] => simp [operandsEq] at wellFormed; omega
  | high :: low :: rest => exact ⟨high, low, rest, rfl⟩

theorem WellFormed.operands_of_ldc {i : Instruction} (wellFormed : i.WellFormed)
    (isLdc : i.opcode = Opcode.ldc) : ∃ index, i.operands = [index] := by
  have fixed : Opcode.operandCount? i.opcode = some 1 := by
    rw [isLdc]
    rfl
  simp only [WellFormed, operandCount, fixed, Except.ok.injEq] at wellFormed
  exact List.length_eq_one_iff.1 wellFormed.symm

/-- The instruction has the new index, and all else of it is as before. -/
theorem WellFormed.withIndex?_eq_some {i changed : Instruction} (wellFormed : i.WellFormed)
    {index : UInt16} (made : i.withIndex? index = some changed) :
    changed.WellFormed ∧ changed.offset = i.offset ∧ changed.opcode = i.opcode ∧
      changed.operands.length = i.operands.length ∧ changed.constantIndex? = some index := by
  unfold withIndex? at made
  by_cases isLdc : i.opcode = Opcode.ldc
  · obtain ⟨old, operandsEq⟩ := wellFormed.operands_of_ldc isLdc
    simp only [if_pos isLdc, operandsEq] at made
    split at made
    · cases made
    · next small =>
      cases made
      have fixed : Opcode.operandCount? i.opcode = some 1 := by
        rw [isLdc]
        rfl
      refine ⟨by simp [WellFormed, operandCount, fixed], rfl, rfl, by simp [operandsEq], ?_⟩
      simp only [constantIndex?, if_pos isLdc, List.head?_cons, Option.map_some,
        Option.some.injEq, ← UInt16.toNat_inj, UInt8.toNat_toUInt16, UInt8.toNat_ofNat']
      omega
  · by_cases hasIndex : Opcode.hasIndex i.opcode
    · obtain ⟨high, low, rest, operandsEq⟩ := wellFormed.operands_of_hasIndex hasIndex
      obtain ⟨count, fixed, -⟩ := two_le_operandCount? hasIndex
      simp only [if_neg isLdc, if_pos hasIndex, operandsEq] at made
      cases made
      refine ⟨?_, rfl, rfl, by simp [operandsEq], ?_⟩
      · simpa [WellFormed, operandCount, fixed, operandsEq] using wellFormed
      · have small := index.toNat_lt
        simp only [constantIndex?, if_neg isLdc, if_pos hasIndex, Option.some.injEq,
          ← UInt16.toNat_inj, UInt16.toNat_ofNat', UInt8.toNat_ofNat']
        omega
    · simp only [if_neg isLdc, if_neg hasIndex] at made
      cases made

/-- The number of operand bytes that hold the index. -/
def indexSize (i : Instruction) : Nat := if i.opcode = Opcode.ldc then 1 else 2

/-- The operands behind the index stay. -/
theorem drop_of_withIndex? {i changed : Instruction} {index : UInt16}
    (made : i.withIndex? index = some changed) :
    changed.operands.drop i.indexSize = i.operands.drop i.indexSize := by
  revert made
  unfold indexSize
  fun_cases i.withIndex? index with
  | case3 isLdc old rest operandsEq =>
    rintro ⟨⟩
    simp [isLdc, operandsEq]
  | case4 notLdc hasIndex high low rest operandsEq =>
    rintro ⟨⟩
    simp [notLdc, operandsEq]
  | case1 | case2 | case5 | case6 => nofun

/-- The index can be changed just if there is one, and if a single byte can hold the new one where
there is only one. -/
theorem WellFormed.isSome_withIndex? {i : Instruction} (wellFormed : i.WellFormed)
    (index : UInt16) :
    (i.withIndex? index).isSome ↔
      i.constantIndex?.isSome ∧ (i.opcode = Opcode.ldc → index.toNat ≤ 255) := by
  unfold withIndex? constantIndex?
  by_cases isLdc : i.opcode = Opcode.ldc
  · obtain ⟨old, operandsEq⟩ := wellFormed.operands_of_ldc isLdc
    simp only [isLdc, if_true, operandsEq, List.head?_cons, Option.map_some, forall_const]
    split
    · next large =>
      simp
      omega
    · next small =>
      simp
      omega
  · by_cases hasIndex : Opcode.hasIndex i.opcode
    · obtain ⟨high, low, rest, operandsEq⟩ := wellFormed.operands_of_hasIndex hasIndex
      simp [isLdc, hasIndex, operandsEq]
    · simp [isLdc, hasIndex]

end Instruction

namespace Bytecode

/-- The bytes around an instruction stay when its index is changed. -/
theorem setIndex?_append {i : Instruction} (wellFormed : i.WellFormed) (front back : Bytes)
    (index : UInt16) :
    setIndex? (front ++ (i.bytes ++ back)) front.length index =
      (i.withIndex? index).map fun changed => front ++ (changed.bytes ++ back) := by
  unfold setIndex? Instruction.withIndex?
  rw [List.drop_left, Instruction.bytes]
  by_cases isLdc : i.opcode = Opcode.ldc
  · obtain ⟨old, operandsEq⟩ := wellFormed.operands_of_ldc isLdc
    simp only [List.cons_append, if_pos isLdc, operandsEq]
    by_cases large : 255 < index.toNat
    · simp [large]
    · simp [large, Instruction.bytes, List.set_append_right]
  · by_cases hasIndex : Opcode.hasIndex i.opcode
    · obtain ⟨high, low, rest, operandsEq⟩ := wellFormed.operands_of_hasIndex hasIndex
      simp [isLdc, hasIndex, operandsEq, Instruction.bytes, List.set_append_right]
    · simp [isLdc, hasIndex]

theorem assemble_append_cons (front back : List Instruction) (i : Instruction) :
    assemble (front ++ i :: back) = assemble front ++ (i.bytes ++ assemble back) := by
  simp [assemble]

/-- Changing the index of an instruction in a code changes that instruction. -/
theorem setIndex?_assemble {front back : List Instruction} {i : Instruction}
    (consecutive : Consecutive 0 (front ++ i :: back)) (index : UInt16) :
    setIndex? (assemble (front ++ i :: back)) i.offset index =
      (i.withIndex? index).map fun changed => assemble (front ++ changed :: back) := by
  obtain ⟨-, offsetEq, wellFormed, -⟩ := consecutive_append.1 consecutive
  rw [offsetEq, Nat.zero_add, assemble_append_cons, setIndex?_append wellFormed]
  simp only [assemble_append_cons]

/-- The index of any decoded instruction that can hold the new one can be changed, and then the
code decodes to the same instructions but for that one. -/
theorem setIndex?_of_decode {code : Bytes} {front back : List Instruction} {i : Instruction}
    (decoded : decode code = ⟨front ++ i :: back, none⟩) (index : UInt16) :
    ((setIndex? code i.offset index).isSome ↔
        i.constantIndex?.isSome ∧ (i.opcode = Opcode.ldc → index.toNat ≤ 255)) ∧
      ∀ changedCode, setIndex? code i.offset index = some changedCode →
        ∃ changed, i.withIndex? index = some changed ∧
          decode changedCode = ⟨front ++ changed :: back, none⟩ := by
  obtain ⟨consecutive, rfl⟩ := decode_eq_iff.1 decoded
  obtain ⟨before, offsetEq, wellFormed, behind⟩ := consecutive_append.1 consecutive
  rw [setIndex?_assemble consecutive]
  refine ⟨by rw [Option.isSome_map, wellFormed.isSome_withIndex?], fun changedCode made => ?_⟩
  obtain ⟨changed, isChanged, rfl⟩ := Option.map_eq_some_iff.1 made
  obtain ⟨stillWellFormed, sameOffset, -, sameSize, -⟩ :=
    wellFormed.withIndex?_eq_some isChanged
  have sameLength : changed.bytes.length = i.bytes.length := by
    simp [Instruction.bytes, sameSize]
  -- The instructions behind it stand where they stood, as the changed one has the same length.
  refine ⟨changed, isChanged, decode_eq_iff.2 ⟨consecutive_append.2 ⟨before, ?_⟩, rfl⟩⟩
  exact ⟨sameOffset.trans offsetEq, stillWellFormed, sameLength ▸ behind⟩

end Bytecode

/-! ## Changing an index in place -/

/-- Whether an instruction is another one but for its constant pool index, which is a given one. -/
structure Instruction.SameButIndex (index : UInt16) (i changed : Instruction) : Prop where
  offset : changed.offset = i.offset
  opcode : changed.opcode = i.opcode
  size : changed.operands.length = i.operands.length
  operands : changed.operands.drop i.indexSize = i.operands.drop i.indexSize
  constantIndex : changed.constantIndex? = some index

namespace Code

theorem putIndex_fst (code : Code) (offset : Nat) (index : UInt16) :
    (code.putIndex offset index).1 = (Bytecode.setIndex? code.bytes offset index).isSome := by
  unfold putIndex
  cases Bytecode.setIndex? code.bytes offset index <;> rfl

theorem putIndex_eq_true_iff {code after : Code} {offset : Nat} {index : UInt16} :
    code.putIndex offset index = (true, after) ↔
      Bytecode.setIndex? code.bytes offset index = some after.bytes ∧
        after = { code with bytes := after.bytes } := by
  unfold putIndex
  cases Bytecode.setIndex? code.bytes offset index with
  | none => simp
  | some bytes =>
    simp only [Prod.mk.injEq, true_and, Option.some.injEq]
    constructor
    · rintro rfl
      exact ⟨rfl, rfl⟩
    · rintro ⟨rfl, same⟩
      exact same.symm

theorem putIndex_eq_false {code after : Code} {offset : Nat} {index : UInt16}
    (put : code.putIndex offset index = (false, after)) : after = code := by
  unfold putIndex at put
  cases set : Bytecode.setIndex? code.bytes offset index with
  | none => simpa [set, eq_comm] using put
  | some bytes => simp [set] at put

/-- An index can be put into just the decoded instructions that have one, except for one above 255
into the load that has a single byte for it. The code then decodes as before but for the index of
that instruction. Otherwise it stays. -/
theorem putIndex_of_decode {code : Code} {front back : List Instruction} {i : Instruction}
    (decoded : Bytecode.decode code.bytes = ⟨front ++ i :: back, none⟩) (index : UInt16) :
    ((code.putIndex i.offset index).1 = true ↔
        i.constantIndex?.isSome ∧ (i.opcode ≠ Opcode.ldc ∨ index.toNat ≤ 255)) ∧
      (∀ after, code.putIndex i.offset index = (true, after) →
        ∃ changed, i.SameButIndex index changed ∧
          Bytecode.decode after.bytes = ⟨front ++ changed :: back, none⟩ ∧
          after = { code with bytes := after.bytes }) ∧
      ∀ after, code.putIndex i.offset index = (false, after) → after = code := by
  obtain ⟨possible, changes⟩ := Bytecode.setIndex?_of_decode decoded index
  refine ⟨?_, fun after put => ?_, fun after => putIndex_eq_false⟩
  · rw [putIndex_fst, possible, imp_iff_not_or]
  · obtain ⟨set, sameElse⟩ := putIndex_eq_true_iff.1 put
    obtain ⟨changed, isChanged, decodedAfter⟩ := changes after.bytes set
    obtain ⟨consecutive, -⟩ := Bytecode.decode_eq_iff.1 decoded
    obtain ⟨-, -, wellFormed, -⟩ := Bytecode.consecutive_append.1 consecutive
    obtain ⟨-, sameOffset, sameOpcode, sameSize, hasIndex⟩ :=
      wellFormed.withIndex?_eq_some isChanged
    exact ⟨changed, ⟨sameOffset, sameOpcode, sameSize, Instruction.drop_of_withIndex? isChanged,
      hasIndex⟩, decodedAfter, sameElse⟩

/-- A load of a constant, a switch of one case behind a byte of padding, and a return. -/
def loadAndSwitch : Code where
  maxStack := 1
  maxLocals := 1
  bytes := [0x12, 3, 0xAA, 0, 0, 0, 0, 18, 0, 0, 0, 1, 0, 0, 0, 1, 0, 0, 0, 18, 0xB1]
  handlers := []
  attributes := []

/-- The index of the load can become 7, which leaves the switch as it is, but not 256. -/
theorem putIndex_of_loadAndSwitch :
    let load : Instruction := ⟨0, Opcode.ldc, [3]⟩
    let back : List Instruction :=
      [⟨2, Opcode.tableSwitch, [0, 0, 0, 0, 18, 0, 0, 0, 1, 0, 0, 0, 1, 0, 0, 0, 18]⟩,
        ⟨20, 0xB1, []⟩]
    Bytecode.decode loadAndSwitch.bytes = ⟨load :: back, none⟩ ∧
      (∃ changed, load.SameButIndex 7 changed ∧
        Bytecode.decode (loadAndSwitch.putIndex 0 7).2.bytes = ⟨changed :: back, none⟩) ∧
      (loadAndSwitch.putIndex 0 256).1 = false := by
  intro load back
  have decoded : Bytecode.decode loadAndSwitch.bytes = ⟨[] ++ load :: back, none⟩ := by
    decide +kernel
  obtain ⟨possible, changes, -⟩ := putIndex_of_decode decoded 7
  obtain ⟨possibleToo, -, -⟩ := putIndex_of_decode decoded 256
  refine ⟨decoded, ?_, ?_⟩
  · obtain ⟨changed, same, decodedAfter, -⟩ := changes _ (Prod.ext (possible.2 (by decide)) rfl)
    exact ⟨changed, same, decodedAfter⟩
  · rw [← Bool.not_eq_true, possibleToo]
    decide

end Code

end Relabel.ClassFile
