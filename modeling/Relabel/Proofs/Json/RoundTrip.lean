import Mathlib
import Relabel.Json.Printer
import Relabel.Json.Shape
import Relabel.Proofs.Names
import Relabel.Proofs.Text.Utf8

/-!
# Reading what was printed

Whatever stands behind them, printed texts and maps are read as what they were printed from. An
escape stands for the character that it was made for, and no byte of another character ends a string
or starts an escape. Objects are read member by member, as a fold over the members, so that it only
has to be known what one printed member does to the state.
-/

namespace Relabel

namespace Json

open Utf8

/-! ## Characters -/

/-- The byte of a hexadecimal digit in lower case. -/
def hexDigit (value : Nat) : UInt8 := if value < 10 then .ofNat (48 + value) else .ofNat (87 + value)

theorem hexDigit_spec : ∀ value < 16,
    String.utf8EncodeChar (Nat.digitChar value) = [hexDigit value] ∧
      hexValue? (hexDigit value) = some value := by
  decide

/-- A byte that stands for itself inside a string. -/
def IsPlainByte (byte : UInt8) : Prop := ¬ byte < 32 ∧ byte ≠ 34 ∧ byte ≠ 92

theorem isPlainByte_iff {byte : UInt8} :
    IsPlainByte byte ↔ ¬ byte.toNat < 32 ∧ byte.toNat ≠ 34 ∧ byte.toNat ≠ 92 := by
  simp [IsPlainByte, UInt8.lt_iff_toNat_lt, ← UInt8.toNat_inj]

theorem stringFrom_plain {bytes : Bytes} (plain : ∀ byte ∈ bytes, IsPlainByte byte)
    (read rest : Bytes) :
    stringFrom read (bytes ++ rest) = stringFrom (bytes.reverse ++ read) rest := by
  induction bytes generalizing read with
  | nil => rfl
  | cons byte bytes ih =>
    rw [List.forall_mem_cons] at plain
    obtain ⟨⟨notControl, notQuote, notEscape⟩, plain⟩ := plain
    have next : stringFrom read (byte :: (bytes ++ rest)) =
        stringFrom (byte :: read) (bytes ++ rest) := by
      rw [stringFrom, if_neg notControl]
      all_goals simp [notQuote, notEscape]
    rw [List.cons_append, next, ih plain]
    simp

/-- The bytes of a character that needs no escape stand for themselves. -/
theorem isPlainByte_of_mem {c : Char} (notControl : ¬ c.toNat < 32) (notQuote : c ≠ '"')
    (notEscape : c ≠ '\\') : ∀ byte ∈ String.utf8EncodeChar c, IsPlainByte byte := by
  have large {byte : UInt8} (isLarge : 0x80 ≤ byte.toNat) : IsPlainByte byte := by
    rw [isPlainByte_iff]
    omega
  rcases utf8EncodeChar_cases c with ⟨-, -, a, isFirst, encoded⟩ |
    ⟨-, -, -, a, b, isFirst, isSecond, encoded⟩ |
    ⟨-, -, -, a, b, d, isFirst, isSecond, isThird, encoded⟩ |
    ⟨-, -, a, b, d, e, isFirst, isSecond, isThird, isFourth, encoded⟩
  · have differs {n : Char} (other : c ≠ n) : c.toNat ≠ n.toNat := fun same =>
      other (Char.toNat_inj.1 same)
    have noQuote : c.toNat ≠ 34 := differs notQuote
    have noEscape : c.toNat ≠ 92 := differs notEscape
    intro byte isByte
    rw [encoded, List.mem_singleton] at isByte
    rw [isByte, isPlainByte_iff, isFirst]
    exact ⟨notControl, noQuote, noEscape⟩
  all_goals
    rw [encoded]
    simp only [List.forall_mem_cons, List.not_mem_nil, false_imp_iff, forall_true_iff, and_true]
  · exact ⟨large (by omega), large (by omega)⟩
  · exact ⟨large (by omega), large (by omega), large (by omega)⟩
  · exact ⟨large (by omega), large (by omega), large (by omega), large (by omega)⟩

/-- A control character is read from its code. -/
theorem stringFrom_code {code : Nat} (isControl : code < 32) (read rest : Bytes) :
    stringFrom read (encodeChars ['\\', 'u', '0', '0', Nat.digitChar (code / 16),
      Nat.digitChar (code % 16)] ++ rest) = stringFrom (pushChar code read) rest := by
  obtain ⟨high, isHigh⟩ := hexDigit_spec (code / 16) (by omega)
  obtain ⟨low, isLow⟩ := hexDigit_spec (code % 16) (by omega)
  have value : hexValue4? 48 48 (hexDigit (code / 16)) (hexDigit (code % 16)) = some code := by
    have zero : hexValue? 48 = some 0 := rfl
    simp [hexValue4?, zero, isHigh, isLow]
    omega
  have bytes : encodeChars ['\\', 'u', '0', '0', Nat.digitChar (code / 16),
      Nat.digitChar (code % 16)] =
        [92, 117, 48, 48, hexDigit (code / 16), hexDigit (code % 16)] := by
    simp only [encodeChars_cons, high, low]
    rfl
  rw [bytes]
  simp only [List.cons_append, List.nil_append]
  rw [stringFrom, value]
  simp only
  rw [if_neg (by omega), if_pos (by omega)]

/-- A character is read as it was escaped. -/
theorem stringFrom_escapeChar (c : Char) (read rest : Bytes) :
    stringFrom read (encodeChars (escapeChar c) ++ rest) =
      stringFrom ((String.utf8EncodeChar c).reverse ++ read) rest := by
  unfold escapeChar
  split
  · rfl
  · rfl
  · rfl
  · rfl
  · rfl
  · rfl
  · rfl
  · next notQuote notEscape _ _ _ _ _ =>
    split
    · next isControl =>
      rw [stringFrom_code isControl, pushChar, Char.ofNat_toNat]
    · next notControl =>
      rw [encodeChars, List.flatMap_singleton,
        stringFrom_plain (isPlainByte_of_mem notControl notQuote notEscape)]

/-! ## Texts -/

theorem stringFrom_escaped (chars : List Char) (read rest : Bytes) :
    stringFrom read (encodeChars (chars.flatMap escapeChar) ++ 34 :: rest) =
      .ok (read.reverse ++ encodeChars chars, rest) := by
  induction chars generalizing read with
  | nil => simp [stringFrom, encodeChars]
  | cons c chars ih =>
    rw [List.flatMap_cons, encodeChars_append, List.append_assoc, stringFrom_escapeChar, ih,
      encodeChars_cons]
    simp

/-- A printed text is read behind its opening quote. -/
theorem string_printed (value : String) (rest : Bytes) :
    string (encodeChars (value.toList.flatMap escapeChar) ++ 34 :: rest) = .ok (value, rest) := by
  have decoded : decode? (encodeChars value.toList) = some value := decode?_eq_some_iff.2 rfl
  rw [string, stringFrom_escaped]
  simp only [List.reverse_nil, List.nil_append, bind, Except.bind, decoded]
  rfl

/-- A printed text starts and ends with a quote. -/
theorem encodeChars_printText (value : String) :
    encodeChars (printText value) =
      34 :: (encodeChars (value.toList.flatMap escapeChar) ++ [34]) := by
  rw [printText, List.cons_append, encodeChars_cons, encodeChars_append]
  rfl

/-- A printed text is read back. -/
theorem text_printText (value : String) (rest : Bytes) :
    text (encodeChars (printText value) ++ rest) = .ok (value, rest) := by
  rw [encodeChars_printText, List.cons_append, List.append_assoc, List.singleton_append]
  exact string_printed value rest

/-! ## Objects -/

/-- Printed items behind others: each has a comma in front of it. -/
def furtherItems (items : List (List Char)) : List Char := items.flatMap fun item => ',' :: item

theorem printItems_cons (item : List Char) (items : List (List Char)) :
    printItems (item :: items) = item ++ furtherItems items := by
  induction items generalizing item with
  | nil => simp [printItems, furtherItems]
  | cons next items ih =>
    rw [printItems, List.intercalate_cons_cons, ← printItems, ih]
    simp [furtherItems]

/-- The members of an object, each with its value in print. -/
abbrev Members := List (String × List Char)

def printMembers (entries : Members) : List (List Char) :=
  entries.map fun entry => printMember entry.1 entry.2

/-- What printed members do to a state, one after the other, whatever stands behind them. -/
inductive Takes {σ : Type} (member : σ → String → Reader σ) : σ → Members → σ → Prop
  | nil (state : σ) : Takes member state [] state
  | cons {state middle final : σ} {key : String} {value : List Char} {entries : Members}
      (reads : ∀ rest, member state key (encodeChars (':' :: value) ++ rest) = .ok (middle, rest))
      (further : Takes member middle entries final) :
      Takes member state ((key, value) :: entries) final

theorem encodeChars_printMember (key : String) (value : List Char) (rest : Bytes) :
    encodeChars (printMember key value) ++ rest =
      34 :: (encodeChars (key.toList.flatMap escapeChar) ++
        34 :: (encodeChars (':' :: value) ++ rest)) := by
  rw [printMember, encodeChars_append, encodeChars_printText]
  simp

/-- Every member behind the first takes up a byte at least. -/
theorem length_le_furtherItems (items : List (List Char)) :
    items.length ≤ (encodeChars (furtherItems items)).length := by
  induction items with
  | nil => exact Nat.zero_le _
  | cons item items ih =>
    have comma : String.utf8EncodeChar ',' = [44] := rfl
    rw [furtherItems] at ih
    rw [furtherItems, List.flatMap_cons, encodeChars_append, encodeChars_cons, comma]
    simp only [List.length_cons, List.length_append]
    omega

section

variable {σ : Type} {member : σ → String → Reader σ} {state middle final : σ} {entries : Members}
  {key : String} {value : List Char}

/-- One member is read as soon as its key has been found. -/
theorem membersWithin_of_nextKey {first : Bool} {input rest : Bytes}
    (next : nextKey first input = .ok (.inl (encodeChars (key.toList.flatMap escapeChar) ++
      34 :: (encodeChars (':' :: value) ++ rest))))
    (reads : member state key (encodeChars (':' :: value) ++ rest) = .ok (middle, rest))
    (fuel : Nat) :
    membersWithin member (fuel + 1) first state input =
      membersWithin member fuel false middle rest := by
  rw [membersWithin, next]
  simp only [string_printed, reads]

theorem membersWithin_further (takes : Takes member state entries final) {fuel : Nat}
    (enough : entries.length < fuel) (rest : Bytes) :
    membersWithin member fuel false state
        (encodeChars (furtherItems (printMembers entries)) ++ 125 :: rest) = .ok (final, rest) := by
  obtain ⟨fuel, rfl⟩ := Nat.exists_eq_add_one_of_ne_zero (Nat.ne_zero_of_lt enough)
  induction takes generalizing fuel with
  | nil state => rfl
  | @cons state middle final key value entries reads further ih =>
    have enough : entries.length < fuel := by simpa using enough
    obtain ⟨fuel, rfl⟩ := Nat.exists_eq_add_one_of_ne_zero (Nat.ne_zero_of_lt enough)
    have comma (text : List Char) : encodeChars (',' :: text) = 44 :: encodeChars text := rfl
    rw [printMembers, List.map_cons, furtherItems, List.flatMap_cons, encodeChars_append, comma,
      List.append_assoc, List.cons_append, encodeChars_printMember]
    rw [membersWithin_of_nextKey rfl (reads _)]
    exact ih fuel enough

/-- The members of a printed object are taken one after the other. -/
theorem members_printed (takes : Takes member state entries final) (rest : Bytes) :
    members member state (encodeChars (printItems (printMembers entries)) ++ 125 :: rest) =
      .ok (final, rest) := by
  cases takes with
  | nil => rfl
  | @cons _ _ _ _ _ entries reads further =>
    rw [printMembers, List.map_cons, printItems_cons, encodeChars_append, List.append_assoc,
      encodeChars_printMember, members]
    rw [membersWithin_of_nextKey rfl (reads _)]
    -- The bytes of the object are fuel enough, one for each member and one for its end.
    have further_le := length_le_furtherItems (printMembers entries)
    rw [printMembers, List.length_map] at further_le
    refine membersWithin_further further ?_ rest
    simp only [List.length_cons, List.length_append]
    omega

end

theorem encodeChars_printObject (members : List (List Char)) (rest : Bytes) :
    encodeChars (printObject members) ++ rest =
      123 :: (encodeChars (printItems members) ++ 125 :: rest) := by
  rw [printObject, List.cons_append, encodeChars_cons, encodeChars_append, List.append_assoc]
  simp only [List.append_assoc]
  rfl

/-! ## Maps -/

/-- A value is read from behind its colon. -/
theorem value_printed {α : Type} {read : Reader α} {printed : List Char} {result : α} {rest : Bytes}
    (reads : read (encodeChars printed ++ rest) = .ok (result, rest)) :
    value read (encodeChars (':' :: printed) ++ rest) = .ok (result, rest) := by
  have behind : colon (encodeChars (':' :: printed) ++ rest) = .ok (encodeChars printed ++ rest) :=
    rfl
  rw [value, behind]
  exact reads

/-- Reads a member of a map from behind its key. -/
def nameMember (names : Names) (key : String) : Reader Names := fun input => do
  let (name, rest) ← value text input
  return (names.insert key name, rest)

theorem takes_names (entries : List (String × String)) (start : Names) :
    Takes nameMember start (entries.map fun entry => (entry.1, printText entry.2))
      (entries.foldl (fun names entry => names.insert entry.1 entry.2) start) := by
  induction entries generalizing start with
  | nil => exact .nil start
  | cons entry entries ih =>
    refine .cons (fun rest => ?_) (ih _)
    rw [nameMember, value_printed (text_printText entry.2 rest)]
    rfl

/-- A printed map is read back. -/
theorem names_printNames (map : Names) (rest : Bytes) :
    names (encodeChars (printNames map) ++ rest) = .ok (map, rest) := by
  have printed : printNames map =
      printObject (printMembers (map.toList.map fun entry => (entry.1, printText entry.2))) := by
    rw [printNames, printMembers, List.map_map]
    rfl
  have takes := takes_names map.toList ∅
  rw [← Names.ofEntries, Names.ofEntries_toList] at takes
  rw [printed, encodeChars_printObject]
  exact members_printed takes rest

end Json

end Relabel
