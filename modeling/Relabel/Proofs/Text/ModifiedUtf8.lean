import Relabel.Proofs.Text.Utf8
import Relabel.Text.ModifiedUtf8

/-!
# Round trips of modified UTF-8

Every text comes back from its encoding. Both directions have a fast path through UTF-8 next to
the general one, and the two agree: plain bytes spell the same characters either way. For no other
bytes do they agree, since all that is read unit by unit or written character by character is plain.
-/

namespace Relabel.ModifiedUtf8

open Utf8 (isContinuation isContinuation_iff utf8EncodeChar_cases char_scalar)

/-! ## Plain bytes -/

theorem isPlain_append (front back : Bytes) :
    isPlain (front ++ back) = (isPlain front && isPlain back) := by
  simp [isPlain]

@[simp] theorem isPlain_nil : isPlain [] := rfl

theorem isPlain_cons {byte : UInt8} {rest : Bytes} :
    isPlain (byte :: rest) ↔ (0 < byte.toNat ∧ byte.toNat < 0xF0) ∧ isPlain rest := by
  simp only [isPlain, List.all_cons, Bool.and_eq_true, decide_eq_true_eq, UInt8.lt_iff_toNat_lt,
    ne_eq, ← UInt8.toNat_inj, UInt8.reduceToNat, Nat.pos_iff_ne_zero]

theorem isPlain_utf8EncodeChar (c : Char) :
    isPlain (String.utf8EncodeChar c) ↔ 0 < c.toNat ∧ c.toNat < 0x10000 := by
  have scalar := char_scalar c
  rcases utf8EncodeChar_cases c with ⟨small, -, a, ha, encoded⟩ |
    ⟨least, greatest, -, a, b, ha, hb, encoded⟩ |
    ⟨least, greatest, -, a, b, d, ha, hb, hd, encoded⟩ |
    ⟨least, -, a, b, d, e, ha, hb, hd, he, encoded⟩ <;>
    rw [encoded] <;>
    simp only [isPlain_cons, isPlain_nil, and_true] <;>
    omega

/-- Characters with plain bytes are encoded in UTF-8. -/
theorem encodeChar_of_isPlain {c : Char} (plain : isPlain (String.utf8EncodeChar c)) :
    encodeChar c = String.utf8EncodeChar c := by
  rw [isPlain_utf8EncodeChar] at plain
  have notZero : c ≠ '\x00' := by
    rintro rfl
    exact absurd plain.1 (by decide)
  rw [encodeChar, if_neg notZero, if_pos plain.2]

theorem encodeEach_of_isPlain {chars : List Char} (plain : isPlain (Utf8.encodeChars chars)) :
    chars.flatMap encodeChar = Utf8.encodeChars chars := by
  induction chars with
  | nil => rfl
  | cons c chars ih =>
    have split : Utf8.encodeChars (c :: chars) =
        String.utf8EncodeChar c ++ Utf8.encodeChars chars := rfl
    rw [split, isPlain_append, Bool.and_eq_true] at plain
    rw [List.flatMap_cons, encodeChar_of_isPlain plain.1, ih plain.2, split]

/-- The encoding is the one that goes character by character. -/
theorem encode_eq_encodeEach (text : String) : encode text = encodeEach text := by
  cases plain : isPlain (Utf8.encode text) with
  | false => simp [encode, plain]
  | true =>
    rw [encode, if_pos plain, encodeEach, encodeEach_of_isPlain plain]
    rfl

/-! ## Units -/

/-- The UTF-16 units of a character. -/
def unitsOf (c : Char) : List Nat :=
  if c.toNat < 0x10000 then [c.toNat]
  else
    [0xD800 + (c.toNat - 0x10000) / 0x400, 0xDC00 + (c.toNat - 0x10000) % 0x400]

theorem unitsFrom_one {a : UInt8} (positive : 0 < a.toNat) (small : a.toNat < 0x80)
    (read : List Nat) (rest : Bytes) :
    unitsFrom read (a :: rest) = unitsFrom (a.toNat :: read) rest := by
  have lead : 0x01 ≤ a ∧ a ≤ 0x7F := by
    simp only [UInt8.le_iff_toNat_le, UInt8.reduceToNat]
    omega
  rw [unitsFrom.eq_def]
  simp only [if_pos lead]

theorem unitsFrom_two {a b : UInt8} (least : 0xC0 ≤ a.toNat) (greatest : a.toNat < 0xE0)
    (second : isContinuation b) (read : List Nat) (rest : Bytes) :
    unitsFrom read (a :: b :: rest) = unitsFrom ((a.toNat % 32 * 64 + low6 b) :: read) rest := by
  have notOne : ¬ (0x01 ≤ a ∧ a ≤ 0x7F) := by
    simp only [UInt8.le_iff_toNat_le, UInt8.reduceToNat]
    omega
  have lead : 0xC0 ≤ a ∧ a ≤ 0xDF := by
    simp only [UInt8.le_iff_toNat_le, UInt8.reduceToNat]
    omega
  rw [unitsFrom, if_neg notOne, if_pos lead]
  simp only [second, if_true]

theorem unitsFrom_three {a b c : UInt8} (least : 0xE0 ≤ a.toNat) (greatest : a.toNat < 0xF0)
    (second : isContinuation b) (third : isContinuation c) (read : List Nat) (rest : Bytes) :
    unitsFrom read (a :: b :: c :: rest) =
      unitsFrom (((a.toNat % 16 * 64 + low6 b) * 64 + low6 c) :: read) rest := by
  have notOne : ¬ (0x01 ≤ a ∧ a ≤ 0x7F) := by
    simp only [UInt8.le_iff_toNat_le, UInt8.reduceToNat]
    omega
  have notTwo : ¬ (0xC0 ≤ a ∧ a ≤ 0xDF) := by
    simp only [UInt8.le_iff_toNat_le, UInt8.reduceToNat]
    omega
  have lead : 0xE0 ≤ a ∧ a ≤ 0xEF := by
    simp only [UInt8.le_iff_toNat_le, UInt8.reduceToNat]
    omega
  rw [unitsFrom, if_neg notOne, if_neg notTwo, if_pos lead]
  simp only [second, third, Bool.and_self, if_true]

theorem unitsFrom_encodeUnit {unit : Nat} (small : unit < 0x10000) (read : List Nat)
    (rest : Bytes) : unitsFrom read (encodeUnit unit ++ rest) = unitsFrom (unit :: read) rest := by
  have first : (UInt8.ofNat (0xE0 + unit / 4096)).toNat = 0xE0 + unit / 4096 := by
    rw [UInt8.toNat_ofNat']
    omega
  have second : (UInt8.ofNat (0x80 + unit / 64 % 64)).toNat = 0x80 + unit / 64 % 64 := by
    rw [UInt8.toNat_ofNat']
    omega
  have third : (UInt8.ofNat (0x80 + unit % 64)).toNat = 0x80 + unit % 64 := by
    rw [UInt8.toNat_ofNat']
    omega
  rw [encodeUnit, List.cons_append, List.cons_append, List.cons_append, List.nil_append,
    unitsFrom_three (by omega) (by omega) (isContinuation_iff.2 (by omega))
      (isContinuation_iff.2 (by omega)), first, low6, second, low6, third]
  congr 2
  omega

theorem unitsFrom_encodeChar (c : Char) (read : List Nat) (rest : Bytes) :
    unitsFrom read (encodeChar c ++ rest) = unitsFrom ((unitsOf c).reverse ++ read) rest := by
  have scalar := char_scalar c
  by_cases zero : c = '\x00'
  · subst zero
    -- NUL is the one character whose encoding is longer than necessary.
    exact unitsFrom_two (a := 0xC0) (b := 0x80) (by decide) (by decide) rfl read rest
  have positive : 0 < c.toNat :=
    Nat.pos_of_ne_zero fun none => zero (Char.toNat_inj.1 none)
  by_cases small : c.toNat < 0x10000
  · have units : unitsOf c = [c.toNat] := if_pos small
    rw [encodeChar, if_neg zero, if_pos small, units]
    rcases utf8EncodeChar_cases c with ⟨_, -, a, ha, encoded⟩ |
      ⟨least, greatest, -, a, b, ha, hb, encoded⟩ |
      ⟨least, greatest, -, a, b, d, ha, hb, hd, encoded⟩ | ⟨least, -⟩ <;> try omega
    · rw [encoded, List.singleton_append, unitsFrom_one (by omega) (by omega), ha]
      rfl
    · rw [encoded, List.cons_append, List.singleton_append, unitsFrom_two (by omega) (by omega)
        (isContinuation_iff.2 (by omega)), low6, ha, hb]
      congr 2
      omega
    · rw [encoded, List.cons_append, List.cons_append, List.singleton_append,
        unitsFrom_three (by omega) (by omega) (isContinuation_iff.2 (by omega))
          (isContinuation_iff.2 (by omega)), low6, low6, ha, hb, hd]
      congr 2
      omega
  · have units : unitsOf c =
        [0xD800 + (c.toNat - 0x10000) / 0x400, 0xDC00 + (c.toNat - 0x10000) % 0x400] :=
      if_neg small
    rw [encodeChar, if_neg zero, if_neg small, units, List.append_assoc,
      unitsFrom_encodeUnit (by omega), unitsFrom_encodeUnit (by omega)]
    rfl

theorem charsFrom_unitsOf (c : Char) (read : List Char) (rest : List Nat) :
    charsFrom read (unitsOf c ++ rest) = charsFrom (c :: read) rest := by
  have scalar := char_scalar c
  by_cases small : c.toNat < 0x10000
  · have single : c.toNat < 0xD800 ∨ 0xDFFF < c.toNat := by omega
    have units : unitsOf c = [c.toNat] := if_pos small
    rw [units, List.singleton_append, charsFrom.eq_def]
    simp only [if_pos single, Char.ofNat_toNat]
  · have units : unitsOf c =
        [0xD800 + (c.toNat - 0x10000) / 0x400, 0xDC00 + (c.toNat - 0x10000) % 0x400] :=
      if_neg small
    -- Both units of a pair are surrogates, and together they have the twenty bits of the character.
    have notSingle : ¬ (0xD800 + (c.toNat - 0x10000) / 0x400 < 0xD800 ∨
        0xDFFF < 0xD800 + (c.toNat - 0x10000) / 0x400) := by omega
    have high : 0xD800 + (c.toNat - 0x10000) / 0x400 ≤ 0xDBFF := by omega
    have low : 0xDC00 ≤ 0xDC00 + (c.toNat - 0x10000) % 0x400 ∧
        0xDC00 + (c.toNat - 0x10000) % 0x400 ≤ 0xDFFF := by omega
    have whole : 0x10000 + (0xD800 + (c.toNat - 0x10000) / 0x400 - 0xD800) * 0x400 +
        (0xDC00 + (c.toNat - 0x10000) % 0x400 - 0xDC00) = c.toNat := by omega
    rw [units, List.cons_append, List.singleton_append, charsFrom, if_neg notSingle, if_pos high]
    simp only [low, and_self, if_true, whole, Char.ofNat_toNat]

/-! ## Decoding -/

theorem unitsFrom_encodeEach (chars : List Char) (read : List Nat) :
    unitsFrom read (chars.flatMap encodeChar) = some (read.reverse ++ chars.flatMap unitsOf) := by
  induction chars generalizing read with
  | nil => simp [unitsFrom]
  | cons c chars ih => simp [unitsFrom_encodeChar, ih]

theorem charsFrom_units (chars read : List Char) :
    charsFrom read (chars.flatMap unitsOf) = some (read.reverse ++ chars) := by
  induction chars generalizing read with
  | nil => simp [charsFrom]
  | cons c chars ih => simp [charsFrom_unitsOf, ih]

/-- Decoding unit by unit gives back what was encoded. -/
theorem decodeUnits_encodeEach (text : String) : decodeUnits (encodeEach text) = some text := by
  simp [decodeUnits, encodeEach, unitsFrom_encodeEach, charsFrom_units]

/-- The decoding is the one that goes unit by unit. -/
theorem decode_eq_decodeUnits (bytes : Bytes) : decode bytes = decodeUnits bytes := by
  cases plain : isPlain bytes with
  | false => simp [decode, plain]
  | true =>
    rw [decode, if_pos plain]
    cases decoded : Utf8.decode? bytes with
    | none => rfl
    | some text =>
      -- What decodes as UTF-8 is the encoding of its text, which plain bytes spell the same.
      obtain rfl := Utf8.decode?_eq_some_iff.1 decoded
      have each : encodeEach text = Utf8.encode text := encodeEach_of_isPlain plain
      rw [← each, decodeUnits_encodeEach]

/-- Every text comes back from its encoding. -/
theorem decode_encode (text : String) : decode (encode text) = some text := by
  rw [decode_eq_decodeUnits, encode_eq_encodeEach, decodeUnits_encodeEach]

/-! ## Encodings -/

theorem isPlain_encodeUnit {unit : Nat} (small : unit < 0x10000) : isPlain (encodeUnit unit) := by
  simp only [encodeUnit, isPlain_cons, UInt8.toNat_ofNat', isPlain_nil, and_true]
  omega

/-- NUL is not encoded as a zero byte, and no character needs a byte from `F0` up. -/
theorem isPlain_encodeChar (c : Char) : isPlain (encodeChar c) := by
  have scalar := char_scalar c
  by_cases zero : c = '\x00'
  · subst zero
    rfl
  have positive : 0 < c.toNat :=
    Nat.pos_of_ne_zero fun none => zero (Char.toNat_inj.1 none)
  by_cases small : c.toNat < 0x10000
  · have plain := (isPlain_utf8EncodeChar c).2 ⟨positive, small⟩
    rwa [encodeChar_of_isPlain plain]
  · rw [encodeChar, if_neg zero, if_neg small, isPlain_append, Bool.and_eq_true]
    exact ⟨isPlain_encodeUnit (by omega), isPlain_encodeUnit (by omega)⟩

theorem isPlain_encode (text : String) : isPlain (encode text) := by
  rw [encode_eq_encodeEach, encodeEach, isPlain, List.all_flatMap, List.all_eq_true]
  exact fun c _ => isPlain_encodeChar c

theorem mem_encode {text : String} {byte : UInt8} (member : byte ∈ encode text) :
    byte ≠ 0 ∧ byte < 0xF0 := by
  simpa using List.all_eq_true.1 (isPlain_encode text) byte member

/-- Whether a text is encoded in UTF-8 or unit by unit is for the whole text to say, but its parts
have the same bytes either way. -/
theorem encode_append (front back : String) :
    encode (front ++ back) = encode front ++ encode back := by
  simp only [encode_eq_encodeEach, encodeEach, String.toList_append, List.flatMap_append]

theorem encode_inj {first second : String} : encode first = encode second ↔ first = second := by
  constructor
  · intro same
    have decoded := decode_encode first
    rw [same, decode_encode] at decoded
    exact (Option.some.inj decoded).symm
  · exact congrArg encode

/-! ## Fast paths -/

/-- What is read unit by unit is plain: a zero byte or a byte from `F0` up neither starts a unit nor
continues one. -/
theorem isPlain_of_unitsFrom {read units : List Nat} {bytes : Bytes}
    (found : unitsFrom read bytes = some units) : isPlain bytes := by
  fun_induction unitsFrom read bytes with
  | case1 read => rfl
  | case2 read a rest one ih =>
    simp only [UInt8.le_iff_toNat_le, UInt8.reduceToNat] at one
    exact isPlain_cons.2 ⟨by omega, ih found⟩
  | case3 read a notOne two b rest second ih =>
    rw [isContinuation_iff] at second
    simp only [UInt8.le_iff_toNat_le, UInt8.reduceToNat] at two
    exact isPlain_cons.2 ⟨by omega, isPlain_cons.2 ⟨by omega, ih found⟩⟩
  | case6 read a notOne notTwo three b c rest others ih =>
    rw [Bool.and_eq_true, isContinuation_iff, isContinuation_iff] at others
    simp only [UInt8.le_iff_toNat_le, UInt8.reduceToNat] at three
    exact isPlain_cons.2 ⟨by omega, isPlain_cons.2 ⟨by omega, isPlain_cons.2 ⟨by omega, ih found⟩⟩⟩
  | case4 | case5 | case7 | case8 | case9 => cases found

theorem isPlain_of_decodeUnits {bytes : Bytes} {text : String}
    (decoded : decodeUnits bytes = some text) : isPlain bytes := by
  obtain ⟨units, found, -⟩ := Option.bind_eq_some_iff.1 decoded
  exact isPlain_of_unitsFrom found

theorem decodeUnits_utf8_eq_some_iff {text : String} :
    decodeUnits (Utf8.encode text) = some text ↔ isPlain (Utf8.encode text) := by
  refine ⟨isPlain_of_decodeUnits, fun plain => ?_⟩
  rw [← decode_eq_decodeUnits, decode, if_pos plain, Utf8.decode?_eq_some_iff.2 rfl]

theorem encodeEach_eq_utf8_iff {text : String} :
    encodeEach text = Utf8.encode text ↔ isPlain (Utf8.encode text) := by
  refine ⟨fun same => ?_, encodeEach_of_isPlain⟩
  rw [← same, ← encode_eq_encodeEach]
  exact isPlain_encode text

/-- Decoding is decoding unit by unit, and encoding is encoding character by character. It would not
be so with a wider test: only if the UTF-8 of a text is plain is it read unit by unit as that text,
and only then is it what is written for the text character by character. -/
theorem fast_paths_invisible :
    (∀ bytes, decode bytes = decodeUnits bytes) ∧
      (∀ text, encode text = encodeEach text) ∧
      ∀ text, (decodeUnits (Utf8.encode text) = some text ↔ isPlain (Utf8.encode text)) ∧
        (encodeEach text = Utf8.encode text ↔ isPlain (Utf8.encode text)) :=
  ⟨decode_eq_decodeUnits, encode_eq_encodeEach,
    fun _ => ⟨decodeUnits_utf8_eq_some_iff, encodeEach_eq_utf8_iff⟩⟩

example : Utf8.decode? [0xF0, 0x9F, 0x98, 0x80] = some "😀" ∧
    decodeUnits [0xF0, 0x9F, 0x98, 0x80] = none := by
  decide

end Relabel.ModifiedUtf8
