import Relabel.Proofs.ClassFile.Bytecode

/-!
# Walking through code

Code can be read by indexes into its bytes, one instruction after the other, without being cut up.
Such a walk computes with words of 64 bits: the places of the tables behind a switch, the size of
these tables, and where the operands of an instruction end. It could go wrong where decoding cannot,
by a number that a word does not hold or by an index behind the end of the code. It never does, it
ends, and it yields what decoding finds.
-/

namespace Relabel.ClassFile

namespace Walk

open Instruction

/-! ## The walk -/

/-- Why a step of the walk gives no instruction. -/
inductive Stop
  /-- A number that 64 bits do not hold. -/
  | overflow
  /-- An index at which the code has no byte. -/
  | outside (index : Nat)
  | fault (fault : Fault)
  deriving DecidableEq, Repr

/-- A number that is computed in a word without a sign. -/
def word (n : Int) : Except Stop Nat :=
  if 0 ≤ n ∧ n < 2 ^ 64 then .ok n.toNat else .error .overflow

/-- A number that is computed in a word with a sign. -/
def signedWord (n : Int) : Except Stop Int :=
  if -2 ^ 63 ≤ n ∧ n < 2 ^ 63 then .ok n else .error .overflow

/-- The bytes between two indexes of a code, if it has them. -/
def slice? (code : Bytes) (start stop : Nat) : Option Bytes :=
  if start ≤ stop ∧ stop ≤ code.length then some ((code.take stop).drop start) else none

/-- The signed number of four bytes at an index. -/
def int32At (code : Bytes) (index : Nat) : Except Stop Int := do
  let stop ← word (index + 4)
  match (slice? code index stop).bind int32? with
  | some n => return n
  | none => throw (.fault .unexpectedEnd)

/-- The index of the first byte behind the opcode of a switch and its padding. -/
def tableStart (offset : Nat) : Except Stop Nat := do
  let behind ← word (offset + 1)
  word (behind + padding offset)

/-- The number of cases between two bounds. -/
def caseCount (low high : Int) : Except Stop Nat := do
  let distance ← signedWord (high - low)
  let count ← signedWord (distance + 1)
  word count

/-- The number of bytes of a switch that has `count` entries of `width` bytes behind `header` bytes
at the start of its table. -/
def switchSize (offset start header count width : Nat) : Except Stop Nat := do
  let front ← word (start - offset)
  let front ← word (front + header)
  let entries ← word (count * width)
  word (front + entries)

def tableSize (code : Bytes) (offset : Nat) (opcode : UInt8) : Except Stop Nat := do
  let start ← tableStart offset
  let low ← int32At code (← word (start + 4))
  let high ← int32At code (← word (start + 8))
  if high < low then throw (.fault (.invalidInstruction opcode offset))
  else switchSize offset start 12 (← caseCount low high) 4

def lookupSize (code : Bytes) (offset : Nat) (opcode : UInt8) : Except Stop Nat := do
  let start ← tableStart offset
  let pairs ← int32At code (← word (start + 4))
  if pairs < 0 then throw (.fault (.invalidInstruction opcode offset))
  else switchSize offset start 8 (← word pairs) 8

def wideSize (code : Bytes) (offset : Nat) : Except Stop Nat := do
  let behind ← word (offset + 1)
  match code[behind]? with
  | none => throw (.fault .unexpectedEnd)
  | some form => return if form = Opcode.iinc then 6 else 4

/-- The number of bytes of the instruction at an offset, with its opcode. -/
def size (code : Bytes) (offset : Nat) : Except Stop Nat :=
  match code[offset]? with
  | none => .error (.outside offset)
  | some opcode =>
    match Opcode.operandCount? opcode with
    | some count => .ok (count + 1)
    | none =>
      if opcode = Opcode.tableSwitch then tableSize code offset opcode
      else if opcode = Opcode.lookupSwitch then lookupSize code offset opcode
      else if opcode = Opcode.wide then wideSize code offset
      else .error (.fault (.invalidInstruction opcode offset))

/-- The instruction of an opcode at an offset, and the offset behind it. -/
def instructionAt (code : Bytes) (offset : Nat) (opcode : UInt8) :
    Except Stop (Instruction × Nat) := do
  let count ← size code offset
  let start ← word (offset + 1)
  let stop ← word (offset + count)
  match slice? code start stop with
  | some operands => return (⟨offset, opcode, operands⟩, stop)
  | none => throw (.fault .unexpectedEnd)

/-- What the walk yields at an offset, and where it goes on; nothing at the end of the code, which
is also where it goes on behind a fault. -/
def next (code : Bytes) (offset : Nat) :
    Except Stop (Option (Except Fault Instruction × Nat)) :=
  match code[offset]? with
  | none => .ok none
  | some opcode =>
    match instructionAt code offset opcode with
    | .ok (i, stop) => .ok (some (.ok i, stop))
    | .error (.fault fault) => .ok (some (.error fault, code.length))
    | .error stop => .error stop

/-- The items that a walk from an offset on yields up to its end. -/
inductive Yields (code : Bytes) : Nat → List (Except Fault Instruction) → Prop
  | done {offset : Nat} (ended : next code offset = .ok none) : Yields code offset []
  | item {offset stop : Nat} {item : Except Fault Instruction}
      {rest : List (Except Fault Instruction)} (yielded : next code offset = .ok (some (item, stop)))
      (goesOn : Yields code stop rest) : Yields code offset (item :: rest)

theorem Yields.unique {code : Bytes} {offset : Nat} {first second : List (Except Fault Instruction)}
    (one : Yields code offset first) (other : Yields code offset second) : first = second := by
  induction one generalizing second with
  | done ended =>
    cases other with
    | done => rfl
    | item yielded => simp [ended] at yielded
  | item yielded goesOn ih =>
    cases other with
    | done ended => simp [yielded] at ended
    | item yieldedToo goesOnToo =>
      cases yielded.symm.trans yieldedToo
      rw [ih goesOnToo]

/-! ## Numbers that words hold -/

theorem word_eq {n : Int} {value : Nat} (same : n = value) (holds : value < 2 ^ 64) :
    word n = .ok value := by
  subst same
  have inside : 0 ≤ (value : Int) ∧ (value : Int) < 2 ^ 64 := by omega
  rw [word, if_pos inside, Int.toNat_natCast]

theorem signedWord_eq {n : Int} (low : -2 ^ 63 ≤ n) (high : n < 2 ^ 63) :
    signedWord n = .ok n := if_pos ⟨low, high⟩

theorem bind_word {α : Type} {n : Int} (value : Nat) (same : n = value) (holds : value < 2 ^ 64)
    (next : Nat → Except Stop α) : word n >>= next = next value := by
  rw [word_eq same holds]
  rfl

theorem bind_signedWord {α : Type} {n : Int} (least : -2 ^ 63 ≤ n) (greatest : n < 2 ^ 63)
    (next : Int → Except Stop α) : signedWord n >>= next = next n := by
  rw [signedWord_eq least greatest]
  rfl

theorem int32?_eq_some {bytes : Bytes} {n : Int} (read : int32? bytes = some n) :
    4 ≤ bytes.length ∧ -2 ^ 31 ≤ n ∧ n < 2 ^ 31 := by
  unfold int32? at read
  split at read
  · next a b c d rest =>
    have := a.toNat_lt
    have := b.toNat_lt
    have := c.toNat_lt
    have := d.toNat_lt
    simp only [Option.some.injEq] at read
    simp only [List.length_cons]
    split at read <;> omega
  · cases read

/-- The operands of an instruction take less than 32 gigabytes. -/
theorem operandCount_lt {offset count : Nat} {opcode : UInt8} {rest : Bytes}
    (counted : operandCount offset opcode rest = .ok count) : count < 2 ^ 35 := by
  have padded : padding offset < 4 := Nat.mod_lt _ (by decide)
  revert counted
  fun_cases operandCount offset opcode rest with
  | case1 rest fixedCount fixed =>
    rintro ⟨⟩
    -- Checked for each of the 256 opcodes.
    have all : ∀ code < 256, (Opcode.operandCount? (UInt8.ofNat code)).all (· < 8) := by
      decide +kernel
    have here := all opcode.toNat opcode.toNat_lt
    simp only [UInt8.ofNat_toNat, fixed, Option.all_some, decide_eq_true_eq] at here
    omega
  | case3 rest noCount isTable table low high hasHigh hasLow =>
    rintro ⟨⟩
    have := int32?_eq_some hasHigh
    have := int32?_eq_some hasLow
    omega
  | case6 rest noCount notTable isLookup pairs hasCount =>
    rintro ⟨⟩
    have := int32?_eq_some hasCount
    omega
  | case9 =>
    rintro ⟨⟩
    split <;> decide
  | case2 | case4 | case5 | case7 | case8 | case10 =>
    intro failed
    cases failed

/-! ## Places in a code -/

theorem slice?_append (front rest : Bytes) (skipped count : Nat) :
    slice? (front ++ rest) (front.length + skipped) (front.length + skipped + count) =
      if skipped + count ≤ rest.length then some ((rest.drop skipped).take count) else none := by
  unfold slice?
  by_cases enough : skipped + count ≤ rest.length
  · rw [if_pos enough, if_pos (by simp; omega), List.drop_take, List.drop_length_add_append,
      Nat.add_sub_cancel_left]
  · rw [if_neg enough, if_neg (by simp; omega)]

theorem int32?_take {bytes : Bytes} (enough : 4 ≤ bytes.length) :
    int32? (bytes.take 4) = int32? bytes := by
  have whole : int32? (bytes.take 4 ++ bytes.drop 4) = int32? (bytes.take 4) :=
    int32?_append (by simp [enough]) _
  rw [List.take_append_drop] at whole
  exact whole.symm

/-- A number is read at an index as it is read at the front of the bytes there. -/
theorem int32At_append (front rest : Bytes) (skipped : Nat)
    (holds : front.length + skipped + 4 < 2 ^ 64) :
    int32At (front ++ rest) (front.length + skipped) =
      (int32? (rest.drop skipped)).elim (.error (.fault .unexpectedEnd)) .ok := by
  have cut : (slice? (front ++ rest) (front.length + skipped) (front.length + skipped + 4)).bind
      int32? = int32? (rest.drop skipped) := by
    rw [slice?_append]
    by_cases enough : skipped + 4 ≤ rest.length
    · rw [if_pos enough]
      exact int32?_take (by simp; omega)
    · rw [if_neg enough, Option.bind_none]
      cases read : int32? (rest.drop skipped) with
      | none => rfl
      | some n =>
        have four := (int32?_eq_some read).1
        rw [List.length_drop] at four
        omega
  rw [int32At, bind_word (front.length + skipped + 4) (by omega) holds]
  simp only [cut]
  cases int32? (rest.drop skipped) <;> rfl

theorem tableStart_eq {offset : Nat} (possible : offset < 2 ^ 63) :
    tableStart offset = .ok (offset + 1 + padding offset) := by
  have padded : padding offset < 4 := Nat.mod_lt _ (by decide)
  rw [tableStart, bind_word (offset + 1) (by omega) (by omega)]
  exact word_eq (by omega) (by omega)

theorem caseCount_eq {low high : Int} (least : -2 ^ 31 ≤ low) (greatest : high < 2 ^ 31)
    (ordered : ¬ high < low) : caseCount low high = .ok (high - low + 1).toNat := by
  rw [caseCount, bind_signedWord (by omega) (by omega), bind_signedWord (by omega) (by omega)]
  exact word_eq (by omega) (by omega)

theorem switchSize_eq {offset header count width : Nat} (small : header ≤ 12)
    (few : count * width < 2 ^ 35) :
    switchSize offset (offset + 1 + padding offset) header count width =
      .ok (padding offset + header + count * width + 1) := by
  have padded : padding offset < 4 := Nat.mod_lt _ (by decide)
  rw [switchSize, bind_word (1 + padding offset) (by omega) (by omega),
    bind_word (1 + padding offset + header) (by omega) (by omega),
    bind_word (count * width) (by push_cast; rfl) (by omega)]
  exact word_eq (by omega) (by omega)

theorem ok_bind {α β : Type} (a : α) (next : α → Except Stop β) :
    (Except.ok a : Except Stop α) >>= next = next a := rfl

section

variable {front rest : Bytes} {opcode : UInt8}

theorem int32At_table {skipped : Nat} (possible : (front ++ opcode :: rest).length < 2 ^ 63)
    (inHeader : skipped ≤ 8) :
    int32At (front ++ opcode :: rest) (front.length + 1 + padding front.length + skipped) =
      (int32? ((rest.drop (padding front.length)).drop skipped)).elim
        (.error (.fault .unexpectedEnd)) .ok := by
  have padded : padding front.length < 4 := Nat.mod_lt _ (by decide)
  rw [List.length_append] at possible
  have read := int32At_append (front ++ [opcode]) rest (padding front.length + skipped)
    (by simp; omega)
  simpa [Nat.add_assoc, List.drop_drop] using read

/-- What is counted as operands has one more byte with its opcode. -/
def withOpcode : Except Fault Nat → Except Stop Nat
  | .ok count => .ok (count + 1)
  | .error fault => .error (.fault fault)

theorem tableSize_append (possible : (front ++ opcode :: rest).length < 2 ^ 63)
    (isTable : opcode = Opcode.tableSwitch) :
    tableSize (front ++ opcode :: rest) front.length opcode =
      withOpcode (operandCount front.length opcode rest) := by
  have inside : front.length < 2 ^ 63 := by
    rw [List.length_append] at possible
    omega
  have padded : padding front.length < 4 := Nat.mod_lt _ (by decide)
  have noCount : Opcode.operandCount? opcode = none := by
    rw [isTable]
    rfl
  simp only [operandCount, noCount, if_pos isTable]
  rw [tableSize, tableStart_eq inside, ok_bind,
    bind_word (front.length + 1 + padding front.length + 4) (by omega) (by omega),
    int32At_table possible (by decide)]
  cases hasLow : int32? ((rest.drop (padding front.length)).drop 4) with
  | none => rfl
  | some low =>
    rw [Option.elim_some, ok_bind,
      bind_word (front.length + 1 + padding front.length + 8) (by omega) (by omega),
      int32At_table possible (by decide)]
    cases hasHigh : int32? ((rest.drop (padding front.length)).drop 8) with
    | none => rfl
    | some high =>
      obtain ⟨-, least, -⟩ := int32?_eq_some hasLow
      obtain ⟨-, -, greatest⟩ := int32?_eq_some hasHigh
      rw [Option.elim_some, ok_bind]
      by_cases reversed : high < low
      · simp only [if_pos reversed]
        rfl
      · simp only [if_neg reversed]
        rw [caseCount_eq least greatest reversed, ok_bind, switchSize_eq (by decide) (by omega)]
        rfl

theorem lookupSize_append (possible : (front ++ opcode :: rest).length < 2 ^ 63)
    (isLookup : opcode = Opcode.lookupSwitch) :
    lookupSize (front ++ opcode :: rest) front.length opcode =
      withOpcode (operandCount front.length opcode rest) := by
  have inside : front.length < 2 ^ 63 := by
    rw [List.length_append] at possible
    omega
  have padded : padding front.length < 4 := Nat.mod_lt _ (by decide)
  have noCount : Opcode.operandCount? opcode = none := by
    rw [isLookup]
    rfl
  have notTable : opcode ≠ Opcode.tableSwitch := by
    rw [isLookup]
    decide
  simp only [operandCount, noCount, if_neg notTable, if_pos isLookup]
  rw [lookupSize, tableStart_eq inside, ok_bind,
    bind_word (front.length + 1 + padding front.length + 4) (by omega) (by omega),
    int32At_table possible (by decide)]
  cases hasCount : int32? ((rest.drop (padding front.length)).drop 4) with
  | none => rfl
  | some pairs =>
    obtain ⟨-, -, greatest⟩ := int32?_eq_some hasCount
    rw [Option.elim_some, ok_bind]
    by_cases negative : pairs < 0
    · simp only [if_pos negative]
      rfl
    · simp only [if_neg negative]
      rw [bind_word pairs.toNat (by omega) (by omega),
        switchSize_eq (by decide) (by omega)]
      rfl

theorem wideSize_append (possible : (front ++ opcode :: rest).length < 2 ^ 63)
    (isWide : opcode = Opcode.wide) :
    wideSize (front ++ opcode :: rest) front.length =
      withOpcode (operandCount front.length opcode rest) := by
  rw [List.length_append] at possible
  subst isWide
  have behind : (front ++ Opcode.wide :: rest)[front.length + 1]? = rest[0]? := by
    rw [List.getElem?_append_right (by omega)]
    simp
  rw [wideSize, bind_word (front.length + 1) (by omega) (by omega)]
  simp only [behind]
  cases rest with
  | nil => rfl
  | cons form rest =>
    have counted : operandCount front.length Opcode.wide (form :: rest) =
        .ok (if form = Opcode.iinc then 5 else 3) := rfl
    rw [counted]
    by_cases isIinc : form = Opcode.iinc
    · simp [isIinc, withOpcode, pure, Except.pure]
    · simp [isIinc, withOpcode, pure, Except.pure]

/-- The walk computes the size that decoding finds. -/
theorem size_append (possible : (front ++ opcode :: rest).length < 2 ^ 63) :
    size (front ++ opcode :: rest) front.length =
      withOpcode (operandCount front.length opcode rest) := by
  have here : (front ++ opcode :: rest)[front.length]? = some opcode := by simp
  simp only [size, here]
  cases counted : Opcode.operandCount? opcode with
  | some count => simp only [operandCount, counted, withOpcode]
  | none =>
    by_cases isTable : opcode = Opcode.tableSwitch
    · rw [if_pos isTable, tableSize_append possible isTable]
    by_cases isLookup : opcode = Opcode.lookupSwitch
    · rw [if_neg isTable, if_pos isLookup, lookupSize_append possible isLookup]
    by_cases isWide : opcode = Opcode.wide
    · rw [if_neg isTable, if_neg isLookup, if_pos isWide, wideSize_append possible isWide]
    · simp only [operandCount, counted, if_neg isTable, if_neg isLookup, if_neg isWide, withOpcode]

/-- The operands are looked for between two indexes. -/
theorem slice?_operands (count : Nat) :
    slice? (front ++ opcode :: rest) (front.length + 1) (front.length + 1 + count) =
      (Bytes.splitExact? count rest).map Prod.fst := by
  have cut := slice?_append (front ++ [opcode]) rest 0 count
  simp only [List.append_assoc, List.singleton_append, List.length_append, List.length_singleton,
    Nat.add_zero, Nat.zero_add, List.drop_zero] at cut
  rw [cut]
  by_cases enough : count ≤ rest.length
  · have split : Bytes.splitExact? count rest = some (rest.take count, rest.drop count) :=
      Bytes.splitExact?_eq_some_iff.2 ⟨by simp [enough], by simp⟩
    rw [if_pos enough, split]
    rfl
  · cases split : Bytes.splitExact? count rest with
    | none => rw [if_neg enough, Option.map_none]
    | some parts =>
      obtain ⟨rfl, rfl⟩ := Bytes.splitExact?_eq_some_iff.1 split
      simp at enough

/-- What is done at an opcode: its operands are counted and then looked for. -/
theorem next_append (possible : (front ++ opcode :: rest).length < 2 ^ 63) :
    next (front ++ opcode :: rest) front.length = .ok (some (
      match operandCount front.length opcode rest with
      | .error fault => (.error fault, (front ++ opcode :: rest).length)
      | .ok count =>
        match Bytes.splitExact? count rest with
        | none => (.error .unexpectedEnd, (front ++ opcode :: rest).length)
        | some (operands, _) =>
          (.ok ⟨front.length, opcode, operands⟩, front.length + 1 + count))) := by
  have here : (front ++ opcode :: rest)[front.length]? = some opcode := by simp
  have inside : front.length < 2 ^ 63 := by
    rw [List.length_append] at possible
    omega
  simp only [next, here]
  rw [instructionAt, size_append possible]
  cases counted : operandCount front.length opcode rest with
  | error fault => rfl
  | ok count =>
    have small := operandCount_lt counted
    rw [withOpcode, ok_bind, bind_word (front.length + 1) (by omega) (by omega),
      bind_word (front.length + 1 + count) (by omega) (by omega)]
    simp only [slice?_operands]
    cases Bytes.splitExact? count rest <;> rfl

/-- A whole instruction is yielded, and the walk goes on behind it. -/
theorem next_of_wellFormed {i : Instruction}
    (possible : (front ++ (i.bytes ++ rest)).length < 2 ^ 63) (wellFormed : i.WellFormed)
    (stands : i.offset = front.length) :
    next (front ++ (i.bytes ++ rest)) front.length =
      .ok (some (.ok i, (front ++ i.bytes).length)) := by
  have counted := (wellFormed_iff i rest).1 wellFormed
  have split : Bytes.splitExact? i.operands.length (i.operands ++ rest) = some (i.operands, rest) :=
    Bytes.splitExact?_eq_some_iff.2 ⟨rfl, rfl⟩
  have whole : (⟨front.length, i.opcode, i.operands⟩ : Instruction) = i := by rw [← stands]
  have step : next (front ++ i.opcode :: (i.operands ++ rest)) front.length = _ :=
    next_append possible
  rw [stands] at counted
  simp only [counted, split, whole] at step
  simpa [Instruction.bytes, Nat.add_assoc, Nat.add_comm 1] using step

/-- A fault is yielded, and the walk goes on at the end. -/
theorem next_of_faultAt {fault : Fault} (possible : (front ++ opcode :: rest).length < 2 ^ 63)
    (isFault : FaultAt front.length opcode rest fault) :
    next (front ++ opcode :: rest) front.length =
      .ok (some (.error fault, (front ++ opcode :: rest).length)) := by
  rw [next_append possible]
  cases counted : operandCount front.length opcode rest with
  | error other => rw [isFault.unique (faultAt_of_operandCount counted)]
  | ok count =>
    cases split : Bytes.splitExact? count rest with
    | none =>
      rw [isFault.unique (faultAt_of_splitExact? counted split)]
      simp only [split]
    | some parts =>
      obtain ⟨rfl, rfl⟩ := Bytes.splitExact?_eq_some_iff.1 split
      exact absurd ((wellFormed_iff ⟨_, _, _⟩ parts.2).2 counted) isFault.not_wellFormed

end

/-! ## The items of a walk -/

/-- The items that a walk through a code should yield: the instructions that decoding finds, and
then the fault, if there is one. -/
def items (decoded : Decoded) : List (Except Fault Instruction) :=
  decoded.instructions.map .ok ++ decoded.fault.toList.map .error

theorem next_at_end (code : Bytes) : next code code.length = .ok none := by
  simp [next]

/-- A walk from an offset on yields what the code there is cut into. -/
theorem yields_of_tiles (front : Bytes) {code : Bytes} {instructions : List Instruction}
    {fault : Option Fault} (possible : (front ++ code).length < 2 ^ 63)
    (tiles : Bytecode.Tiles front.length code ⟨instructions, fault⟩) :
    Yields (front ++ code) front.length (items ⟨instructions, fault⟩) := by
  induction instructions generalizing front code with
  | nil =>
    cases Bytecode.tiles_nil_iff.1 tiles with
    | nothing =>
      have ended := next_at_end (front ++ [])
      rw [List.append_nil] at ended ⊢
      exact .done ended
    | fault isFault => exact .item (next_of_faultAt possible isFault) (.done (next_at_end _))
  | cons i rest ih =>
    obtain ⟨stands, wellFormed, back, rfl, behind⟩ := Bytecode.tiles_cons_iff.1 tiles
    apply Yields.item (next_of_wellFormed possible wellFormed stands)
    rw [← List.append_assoc] at possible ⊢
    rw [← List.length_append] at behind
    exact ih _ possible behind

theorem yields_iff {code : Bytes} (possible : code.length < 2 ^ 63)
    {found : List (Except Fault Instruction)} :
    Yields code 0 found ↔ found = items (Bytecode.decode code) := by
  have yields : Yields code 0 (items (Bytecode.decode code)) :=
    yields_of_tiles [] possible (Bytecode.decode_eq_iff_tiles.1 rfl)
  constructor
  · exact fun other => other.unique yields
  · rintro rfl
    exact yields

/-- **A walk through code yields its instructions, and ends.** Any code is cut into instructions,
each of which starts where the one before it ended and has the opcode and the operands that stand
there. They make up the code, up to its end or to an opcode with which no whole instruction starts;
the fault then says whether this opcode is invalid or the code ends inside of its instruction. A walk
yields these instructions, behind them the fault if there is one, and nothing else, and it never
computes a number that 64 bits do not hold. No code has more bytes than a signed word can count. -/
theorem walk_yields (code : Bytes) :
    ∃ instructions fault rest, Bytecode.decode code = ⟨instructions, fault⟩ ∧
      (code.length < 2 ^ 63 → ∀ found,
        Yields code 0 found ↔ found = instructions.map .ok ++ fault.toList.map .error) ∧
      Bytecode.Consecutive 0 instructions ∧
      (∀ i ∈ instructions, 1 ≤ i.bytes.length ∧ ∃ behind, code.drop i.offset = i.bytes ++ behind) ∧
      code = Bytecode.assemble instructions ++ rest ∧
      (fault = none → rest = []) ∧
      (∀ cause, fault = some cause → ∃ opcode behind, rest = opcode :: behind ∧
        let offset := (Bytecode.assemble instructions).length
        (cause = .invalidInstruction opcode offset ↔ IsInvalid offset opcode behind) ∧
        (cause = .unexpectedEnd ↔ ¬ IsInvalid offset opcode behind) ∧
        ∀ operands back, behind = operands ++ back →
          ¬ Instruction.WellFormed ⟨offset, opcode, operands⟩) := by
  cases decoded : Bytecode.decode code with
  | mk instructions fault =>
    have tiles := Bytecode.decode_eq_iff_tiles.1 decoded
    have yields (possible : code.length < 2 ^ 63) (found : List (Except Fault Instruction)) :
        Yields code 0 found ↔ found = items ⟨instructions, fault⟩ := by
      rw [yields_iff possible, decoded]
    have whole (i : Instruction) (member : i ∈ instructions) :
        1 ≤ i.bytes.length ∧ ∃ behind, code.drop i.offset = i.bytes ++ behind :=
      ⟨Nat.succ_pos _, tiles.drop_offset member⟩
    obtain ⟨consecutive, rest, made, ends⟩ := tiles
    rw [Nat.zero_add] at ends
    refine ⟨instructions, fault, rest, rfl, yields, consecutive, whole, made, ?faultless, ?faulty⟩
    case faultless =>
      rintro rfl
      cases ends
      rfl
    case faulty =>
      rintro cause rfl
      cases ends with
      | @fault opcode behind _ isFault =>
        refine ⟨opcode, behind, rfl, isFault.eq_invalid_iff, isFault.eq_cut_iff, ?_⟩
        rintro operands back rfl
        exact isFault.not_wellFormed

/-- A switch, one byte behind the start of the code, whose lower bound is above its upper one. -/
def reversedSwitch : Bytes :=
  [0x2A, Opcode.tableSwitch, 0, 0, 0, 0, 0, 20, 0, 0, 0, 1, 0xFF, 0xFF, 0xFF, 0xFF]

theorem walk_yields_of_reversedSwitch :
    reversedSwitch.length < 2 ^ 63 ∧ Yields reversedSwitch 0
      [.ok ⟨0, 0x2A, []⟩, .error (.invalidInstruction Opcode.tableSwitch 1)] := by
  have possible : reversedSwitch.length < 2 ^ 63 := by decide
  obtain ⟨instructions, fault, -, decoded, yields, -⟩ := walk_yields reversedSwitch
  have found : Bytecode.decode reversedSwitch =
      ⟨[⟨0, 0x2A, []⟩], some (.invalidInstruction Opcode.tableSwitch 1)⟩ := by decide +kernel
  cases found.symm.trans decoded
  exact ⟨possible, (yields possible _).2 rfl⟩

end Walk

end Relabel.ClassFile
