import Mathlib
import Relabel.Text.Utf8

/-!
# UTF-8 round trips

Strict decoding gives a text just for the bytes that the text is encoded as. The first piece of an
input is a character just if the input starts with its bytes; since no character is encoded as no
bytes, the rest follows by induction on their number. Texts are ordered as their bytes are.
-/

namespace Relabel.Utf8

/-! ## Characters and their bytes -/

/-- Surrogates are no characters, and there are none beyond the last plane. -/
theorem char_scalar (c : Char) :
    c.toNat < 0xD800 ∨ 0xDFFF < c.toNat ∧ c.toNat < 0x110000 := c.valid

theorem toNat_ofNat {n : Nat} (scalar : n < 0xD800 ∨ 0xDFFF < n ∧ n < 0x110000) :
    (Char.ofNat n).toNat = n := by
  have valid : n.isValidChar := scalar
  rw [Char.ofNat, dif_pos valid]
  rfl

/-- The number of bytes of a character and the numbers that they stand for. -/
theorem utf8EncodeChar_cases (c : Char) :
    (c.toNat < 0x80 ∧ c.utf8Size = 1 ∧
        ∃ a : UInt8, a.toNat = c.toNat ∧ String.utf8EncodeChar c = [a]) ∨
      (0x80 ≤ c.toNat ∧ c.toNat < 0x800 ∧ c.utf8Size = 2 ∧
        ∃ a b : UInt8, a.toNat = 0xC0 + c.toNat / 64 ∧ b.toNat = 0x80 + c.toNat % 64 ∧
          String.utf8EncodeChar c = [a, b]) ∨
      (0x800 ≤ c.toNat ∧ c.toNat < 0x10000 ∧ c.utf8Size = 3 ∧
        ∃ a b d : UInt8, a.toNat = 0xE0 + c.toNat / 4096 ∧ b.toNat = 0x80 + c.toNat / 64 % 64 ∧
          d.toNat = 0x80 + c.toNat % 64 ∧ String.utf8EncodeChar c = [a, b, d]) ∨
      (0x10000 ≤ c.toNat ∧ c.utf8Size = 4 ∧
        ∃ a b d e : UInt8, a.toNat = 0xF0 + c.toNat / 262144 ∧
          b.toNat = 0x80 + c.toNat / 4096 % 64 ∧ d.toNat = 0x80 + c.toNat / 64 % 64 ∧
          e.toNat = 0x80 + c.toNat % 64 ∧ String.utf8EncodeChar c = [a, b, d, e]) := by
  have scalar := char_scalar c
  have size := String.length_utf8EncodeChar c
  have value : c.val.toNat = c.toNat := rfl
  unfold String.utf8EncodeChar at size ⊢
  simp only [value] at size ⊢
  by_cases one : c.toNat ≤ 0x7F
  · rw [if_pos one] at size ⊢
    refine .inl ⟨by omega, size.symm, _, ?_, rfl⟩
    rw [UInt8.toNat_ofNat']
    omega
  by_cases two : c.toNat ≤ 0x7FF
  · rw [if_neg one, if_pos two] at size ⊢
    refine .inr (.inl ⟨by omega, by omega, size.symm, _, _, ?_, ?_, rfl⟩)
    all_goals
      rw [UInt8.toNat_ofNat']
      omega
  by_cases three : c.toNat ≤ 0xFFFF
  · rw [if_neg one, if_neg two, if_pos three] at size ⊢
    refine .inr (.inr (.inl ⟨by omega, by omega, size.symm, _, _, _, ?_, ?_, ?_, rfl⟩))
    all_goals
      rw [UInt8.toNat_ofNat']
      omega
  · rw [if_neg one, if_neg two, if_neg three] at size ⊢
    refine .inr (.inr (.inr ⟨by omega, size.symm, _, _, _, _, ?_, ?_, ?_, ?_, rfl⟩))
    all_goals
      rw [UInt8.toNat_ofNat']
      omega

/-- What the first byte of a sequence says, in numbers. -/
theorem Lead.of_cases (byte : UInt8) :
    (byte.toNat < 0x80 ∧ of byte = .ascii) ∨
      (0xC2 ≤ byte.toNat ∧ byte.toNat < 0xE0 ∧ of byte = .two) ∨
      (0xE0 ≤ byte.toNat ∧ byte.toNat < 0xF0 ∧ ∃ low high, of byte = .three low high ∧
        low.toNat = (if byte.toNat = 0xE0 then 0xA0 else 0x80) ∧
        high.toNat = if byte.toNat = 0xED then 0x9F else 0xBF) ∨
      (0xF0 ≤ byte.toNat ∧ byte.toNat < 0xF5 ∧ ∃ low high, of byte = .four low high ∧
        low.toNat = (if byte.toNat = 0xF0 then 0x90 else 0x80) ∧
        high.toNat = if byte.toNat = 0xF4 then 0x8F else 0xBF) ∨
      ((0x80 ≤ byte.toNat ∧ byte.toNat < 0xC2 ∨ 0xF5 ≤ byte.toNat) ∧ of byte = .none) := by
  have lead := of.eq_def byte
  have small := byte.toNat_lt
  simp only [UInt8.lt_iff_toNat_lt, ← UInt8.toNat_inj, UInt8.reduceToNat] at lead
  split at lead
  · exact .inl ⟨by omega, lead⟩
  split at lead
  · exact .inr (.inr (.inr (.inr ⟨by omega, lead⟩)))
  split at lead
  · exact .inr (.inl ⟨by omega, by omega, lead⟩)
  split at lead
  -- The bounds of the second byte differ after the first and the last lead of a length, and after
  -- the one that surrogates would have.
  · next first =>
    exact .inr (.inr (.inl ⟨by omega, by omega, _, _, lead, (if_pos first).symm,
      (if_neg (by omega)).symm⟩))
  split at lead
  · next surrogates =>
    exact .inr (.inr (.inl ⟨by omega, by omega, _, _, lead, (if_neg (by omega)).symm,
      (if_pos surrogates).symm⟩))
  split at lead
  · exact .inr (.inr (.inl ⟨by omega, by omega, _, _, lead, (if_neg (by omega)).symm,
      (if_neg (by omega)).symm⟩))
  split at lead
  · next first =>
    exact .inr (.inr (.inr (.inl ⟨by omega, by omega, _, _, lead, (if_pos first).symm,
      (if_neg (by omega)).symm⟩)))
  split at lead
  · exact .inr (.inr (.inr (.inl ⟨by omega, by omega, _, _, lead, (if_neg (by omega)).symm,
      (if_neg (by omega)).symm⟩)))
  split at lead
  · next last =>
    exact .inr (.inr (.inr (.inl ⟨by omega, by omega, _, _, lead, (if_neg (by omega)).symm,
      (if_pos last).symm⟩)))
  · exact .inr (.inr (.inr (.inr ⟨by omega, lead⟩)))

theorem isContinuation_iff {byte : UInt8} :
    isContinuation byte ↔ 0x80 ≤ byte.toNat ∧ byte.toNat < 0xC0 := by
  simp only [isContinuation, Bool.and_eq_true, decide_eq_true_eq, UInt8.le_iff_toNat_le,
    UInt8.reduceToNat]
  omega

theorem utf8EncodeChar_ascii {a : UInt8} (small : a.toNat < 0x80) :
    String.utf8EncodeChar (Char.ofNat a.toNat) = [a] := by
  have value : (Char.ofNat a.toNat).toNat = a.toNat := toNat_ofNat (by omega)
  rcases utf8EncodeChar_cases (Char.ofNat a.toNat) with ⟨-, -, a', ha, encoded⟩ | _ | _ | _ <;>
    try omega
  rw [encoded, UInt8.toNat_inj.1 (ha.trans value)]

theorem utf8EncodeChar_char2 {a b : UInt8} (least : 0xC2 ≤ a.toNat) (greatest : a.toNat < 0xE0)
    (second : isContinuation b) : String.utf8EncodeChar (char2 a b) = [a, b] := by
  rw [isContinuation_iff] at second
  have value : (char2 a b).toNat = (a.toNat - 0xC0) * 64 + (b.toNat - 0x80) :=
    toNat_ofNat (by omega)
  rcases utf8EncodeChar_cases (char2 a b) with _ | ⟨-, -, -, a', b', ha, hb, encoded⟩ | _ | _ <;>
    try omega
  obtain rfl : a' = a := UInt8.toNat_inj.1 (by omega)
  obtain rfl : b' = b := UInt8.toNat_inj.1 (by omega)
  exact encoded

/-- The bounds of the second byte leave out what two bytes could hold, and the surrogates. -/
theorem utf8EncodeChar_char3 {a b d : UInt8} (least : 0xE0 ≤ a.toNat) (greatest : a.toNat < 0xF0)
    (low : (if a.toNat = 0xE0 then 0xA0 else 0x80) ≤ b.toNat)
    (high : b.toNat ≤ if a.toNat = 0xED then 0x9F else 0xBF) (third : isContinuation d) :
    String.utf8EncodeChar (char3 a b d) = [a, b, d] := by
  rw [isContinuation_iff] at third
  have value : (char3 a b d).toNat =
      ((a.toNat - 0xE0) * 64 + (b.toNat - 0x80)) * 64 + (d.toNat - 0x80) :=
    toNat_ofNat (by split at low <;> split at high <;> omega)
  have lower : 0x80 ≤ b.toNat := by split at low <;> omega
  have upper : b.toNat < 0xC0 := by split at high <;> omega
  have large : 0x800 ≤ (char3 a b d).toNat := by split at low <;> omega
  rcases utf8EncodeChar_cases (char3 a b d) with
    _ | _ | ⟨-, -, -, a', b', d', ha, hb, hd, encoded⟩ | _ <;> try omega
  obtain rfl : a' = a := UInt8.toNat_inj.1 (by omega)
  obtain rfl : b' = b := UInt8.toNat_inj.1 (by omega)
  obtain rfl : d' = d := UInt8.toNat_inj.1 (by omega)
  exact encoded

theorem utf8EncodeChar_char4 {a b d e : UInt8} (least : 0xF0 ≤ a.toNat) (greatest : a.toNat < 0xF5)
    (low : (if a.toNat = 0xF0 then 0x90 else 0x80) ≤ b.toNat)
    (high : b.toNat ≤ if a.toNat = 0xF4 then 0x8F else 0xBF) (third : isContinuation d)
    (fourth : isContinuation e) : String.utf8EncodeChar (char4 a b d e) = [a, b, d, e] := by
  rw [isContinuation_iff] at third fourth
  have value : (char4 a b d e).toNat = (((a.toNat - 0xF0) * 64 + (b.toNat - 0x80)) * 64 +
      (d.toNat - 0x80)) * 64 + (e.toNat - 0x80) :=
    toNat_ofNat (by split at low <;> split at high <;> omega)
  have lower : 0x80 ≤ b.toNat := by split at low <;> omega
  have upper : b.toNat < 0xC0 := by split at high <;> omega
  have large : 0x10000 ≤ (char4 a b d e).toNat := by split at low <;> omega
  rcases utf8EncodeChar_cases (char4 a b d e) with
    _ | _ | _ | ⟨-, -, a', b', d', e', ha, hb, hd, he, encoded⟩ <;> try omega
  obtain rfl : a' = a := UInt8.toNat_inj.1 (by omega)
  obtain rfl : b' = b := UInt8.toNat_inj.1 (by omega)
  obtain rfl : d' = d := UInt8.toNat_inj.1 (by omega)
  obtain rfl : e' = e := UInt8.toNat_inj.1 (by omega)
  exact encoded

/-! ## Texts and their bytes -/

theorem encodeChars_append (front back : List Char) :
    encodeChars (front ++ back) = encodeChars front ++ encodeChars back :=
  List.flatMap_append

theorem encodeChars_cons (c : Char) (text : List Char) :
    encodeChars (c :: text) = String.utf8EncodeChar c ++ encodeChars text :=
  List.flatMap_cons

/-! ## First pieces -/

/-- A piece that is a character starts with the bytes of that character. -/
theorem starts_of_firstPiece {a : UInt8} {rest : Bytes} {c : Char}
    (first : firstPiece a rest = .char c) : ∃ tail, a :: rest = String.utf8EncodeChar c ++ tail := by
  unfold firstPiece at first
  rcases Lead.of_cases a with ⟨small, lead⟩ | ⟨least, greatest, lead⟩ |
    ⟨least, greatest, low, high, lead, lowEq, highEq⟩ |
    ⟨least, greatest, low, high, lead, lowEq, highEq⟩ | ⟨-, lead⟩ <;> simp only [lead] at first
  · obtain rfl := Piece.char.inj first
    exact ⟨rest, by rw [utf8EncodeChar_ascii small]; rfl⟩
  · split at first
    · cases first
    split at first
    · next b tail second =>
      obtain rfl := Piece.char.inj first
      exact ⟨tail, by rw [utf8EncodeChar_char2 least greatest second]; rfl⟩
    · cases first
  · split at first
    · cases first
    · split at first <;> cases first
    split at first
    · next b d tail inside =>
      split at first
      · next third =>
        obtain rfl := Piece.char.inj first
        simp only [UInt8.le_iff_toNat_le, lowEq, highEq] at inside
        exact ⟨tail, by rw [utf8EncodeChar_char3 least greatest inside.1 inside.2 third]; rfl⟩
      · cases first
    · cases first
  · split at first
    · cases first
    · split at first <;> cases first
    · split at first
      · split at first <;> cases first
      · cases first
    split at first
    · next b d e tail inside =>
      split at first
      · next third =>
        split at first
        · next fourth =>
          obtain rfl := Piece.char.inj first
          simp only [UInt8.le_iff_toNat_le, lowEq, highEq] at inside
          exact ⟨tail, by
            rw [utf8EncodeChar_char4 least greatest inside.1 inside.2 third fourth]; rfl⟩
        · cases first
      · cases first
    · cases first
  · cases first

/-- An input that starts with the bytes of a character has it as its first piece. -/
theorem firstPiece_of_starts {a : UInt8} {rest tail : Bytes} {c : Char}
    (starts : a :: rest = String.utf8EncodeChar c ++ tail) : firstPiece a rest = .char c := by
  have scalar := char_scalar c
  have whole {n : Nat} (value : n = c.toNat) : Char.ofNat n = c := by
    rw [value, Char.ofNat_toNat]
  -- The length of the encoding decides the lead; all the other leads contradict its number.
  rcases utf8EncodeChar_cases c with ⟨small, -, a, ha, encoded⟩ |
    ⟨least, greatest, -, a, b, ha, hb, encoded⟩ |
    ⟨least, greatest, -, a, b, d, ha, hb, hd, encoded⟩ |
    ⟨least, -, a, b, d, e, ha, hb, hd, he, encoded⟩ <;>
    rw [encoded] at starts <;> cases starts <;>
    simp only [List.append_eq, List.cons_append, List.nil_append]
  · rcases Lead.of_cases a with ⟨-, lead⟩ | _ | _ | _ | _ <;> try omega
    simp only [firstPiece, lead, whole ha]
  · rcases Lead.of_cases a with _ | ⟨-, -, lead⟩ | _ | _ | _ <;> try omega
    have second : isContinuation b := isContinuation_iff.2 (by omega)
    simp only [firstPiece, lead, second, if_true, char2]
    rw [whole (by omega)]
  · rcases Lead.of_cases a with _ | _ | ⟨-, -, low, high, lead, lowEq, highEq⟩ | _ | _ <;> try omega
    have third : isContinuation d := isContinuation_iff.2 (by omega)
    have second : low ≤ b ∧ b ≤ high := by
      simp only [UInt8.le_iff_toNat_le, lowEq, highEq]
      constructor <;> split <;> omega
    simp only [firstPiece, lead, second, third, and_self, if_true, char3]
    rw [whole (by omega)]
  · rcases Lead.of_cases a with _ | _ | _ | ⟨-, -, low, high, lead, lowEq, highEq⟩ | _ <;> try omega
    have third : isContinuation d := isContinuation_iff.2 (by omega)
    have fourth : isContinuation e := isContinuation_iff.2 (by omega)
    have second : low ≤ b ∧ b ≤ high := by
      simp only [UInt8.le_iff_toNat_le, lowEq, highEq]
      constructor <;> split <;> omega
    simp only [firstPiece, lead, second, third, fourth, and_self, if_true, char4]
    rw [whole (by omega)]

/-! ## Texts -/

theorem piecesFrom_eq (found : List Piece) (skip : Nat) (bytes : Bytes) :
    piecesFrom found skip bytes = found.reverse ++ pieces (bytes.drop skip) := by
  induction bytes generalizing found skip with
  | nil => simp [piecesFrom, pieces]
  | cons a rest ih =>
    cases skip with
    | zero =>
      simp only [piecesFrom, pieces, List.drop_zero]
      rw [ih, ih [firstPiece a rest]]
      simp
    | succ skip => simp only [piecesFrom, ih, List.drop_succ_cons]

theorem pieces_cons (a : UInt8) (rest : Bytes) :
    pieces (a :: rest) =
      firstPiece a rest :: pieces (rest.drop ((firstPiece a rest).length - 1)) := by
  rw [pieces, piecesFrom, piecesFrom_eq]
  rfl

theorem textFrom_eq_ok_iff {index : Nat} {read chars : List Char} {pieces : List Piece} :
    textFrom index read pieces = .ok chars ↔
      ∃ moved, chars = read.reverse ++ moved ∧ pieces = moved.map .char := by
  induction pieces generalizing index read with
  | nil => simp [textFrom, eq_comm]
  | cons piece pieces ih =>
    cases piece with
    | char value =>
      rw [textFrom, ih]
      constructor
      · rintro ⟨moved, charsEq, rfl⟩
        exact ⟨value :: moved, by simpa using charsEq, rfl⟩
      · rintro ⟨moved, charsEq, moves⟩
        cases moved with
        | nil => cases moves
        | cons first moved =>
          cases moves
          exact ⟨moved, by simpa using charsEq, rfl⟩
    | broken length | cut length =>
      refine ⟨nofun, ?_⟩
      rintro ⟨moved, -, moves⟩
      cases moved <;> cases moves

/-- The pieces of an input are characters just if the input is their encoding. -/
theorem pieces_eq_map_iff {bytes : Bytes} {chars : List Char} :
    pieces bytes = chars.map .char ↔ bytes = encodeChars chars := by
  induction chars generalizing bytes with
  | nil =>
    cases bytes with
    | nil => simp [pieces, piecesFrom, encodeChars]
    | cons a rest => simp [pieces_cons, encodeChars]
  | cons c chars ih =>
    have size := String.length_utf8EncodeChar c
    have positive := c.utf8Size_pos
    have split : encodeChars (c :: chars) = String.utf8EncodeChar c ++ encodeChars chars := rfl
    cases bytes with
    | nil =>
      have some : encodeChars (c :: chars) ≠ [] := by
        rw [split]
        intro none
        simp [(List.append_eq_nil_iff.1 none).1] at size
        omega
      simp [pieces, piecesFrom, some.symm]
    | cons a rest =>
      -- The tail behind the first character is what is left when its bytes have been dropped.
      have behind {tail : Bytes} (starts : a :: rest = String.utf8EncodeChar c ++ tail) :
          rest.drop (c.utf8Size - 1) = tail := by
        have dropped : (a :: rest).drop (c.utf8Size - 1 + 1) = tail := by
          rw [starts, Nat.sub_add_cancel positive, ← size, List.drop_left]
        simpa using dropped
      rw [pieces_cons, List.map_cons, List.cons.injEq, split]
      constructor
      · rintro ⟨first, others⟩
        obtain ⟨tail, starts⟩ := starts_of_firstPiece first
        rw [first, Piece.length, behind starts, ih] at others
        rw [starts, others]
      · intro starts
        have first := firstPiece_of_starts starts
        refine ⟨first, ?_⟩
        rw [first, Piece.length, behind starts, ih]

/-- Strict decoding gives a text just for the bytes that it is encoded as. -/
theorem decodeChars_eq_ok_iff {bytes : Bytes} {chars : List Char} :
    decodeChars bytes = .ok chars ↔ bytes = encodeChars chars := by
  rw [decodeChars, textFrom_eq_ok_iff, ← pieces_eq_map_iff]
  simp

theorem decode?_eq_some_iff {bytes : Bytes} {text : String} :
    decode? bytes = some text ↔ bytes = encode text := by
  rw [encode, ← decodeChars_eq_ok_iff, decode?, decode]
  cases decodeChars bytes with
  | error fault => simp [Except.map, Except.toOption]
  | ok chars =>
    simp only [Except.map, Except.toOption, Option.some.injEq, Except.ok.injEq]
    exact ⟨fun same => by rw [← same, String.toList_ofList],
      fun same => by rw [same, String.ofList_toList]⟩

/-! ## The order of texts -/

/-- The bytes of characters are ordered as the characters are. -/
theorem utf8EncodeChar_append_lt {c d : Char} (less : c < d) (front back : Bytes) :
    String.utf8EncodeChar c ++ front < String.utf8EncodeChar d ++ back := by
  replace less : c.toNat < d.toNat := less
  -- More bytes have a greater first one, and as many hold the digits of the number in order.
  rcases utf8EncodeChar_cases c with ⟨_, -, a, ha, hc⟩ | ⟨_, _, -, a, b, ha, hb, hc⟩ |
    ⟨_, _, -, a, b, e, ha, hb, he, hc⟩ | ⟨_, -, a, b, e, f, ha, hb, he, hf, hc⟩ <;>
  rcases utf8EncodeChar_cases d with ⟨_, -, a', ha', hd⟩ | ⟨_, _, -, a', b', ha', hb', hd⟩ |
    ⟨_, _, -, a', b', e', ha', hb', he', hd⟩ |
    ⟨_, -, a', b', e', f', ha', hb', he', hf', hd⟩ <;>
  simp only [hc, hd, List.cons_append, List.nil_append, List.cons_lt_cons_iff,
    UInt8.lt_iff_toNat_lt, ← UInt8.toNat_inj] <;>
  omega

theorem encodeChars_lt_of_lt {text other : List Char} (less : text < other) :
    encodeChars text < encodeChars other := by
  induction text generalizing other with
  | nil =>
    cases other with
    | nil => simp at less
    | cons d other =>
      have size := String.length_utf8EncodeChar d
      rw [encodeChars_cons]
      cases encoded : String.utf8EncodeChar d with
      | nil => exact absurd (size.symm.trans (by rw [encoded]; rfl)) d.utf8Size_pos.ne'
      | cons first rest => exact List.nil_lt_cons first _
  | cons c text ih =>
    cases other with
    | nil => simp at less
    | cons d other =>
      rw [encodeChars_cons, encodeChars_cons]
      obtain first | ⟨rfl, rest⟩ := List.cons_lt_cons_iff.1 less
      · exact utf8EncodeChar_append_lt first _ _
      · exact List.append_left_lt (ih rest)

/-- Texts are ordered as their bytes are. -/
theorem encode_lt_iff {text other : String} : encode text < encode other ↔ text < other := by
  constructor
  · intro less
    rcases lt_trichotomy text other with first | same | second
    · exact first
    · rw [same] at less
      exact absurd less (List.lt_irrefl _)
    · have greater : encode other < encode text := encodeChars_lt_of_lt (String.lt_iff.1 second)
      exact absurd (List.lt_trans less greater) (List.lt_irrefl _)
  · intro less
    exact encodeChars_lt_of_lt (String.lt_iff.1 less)

end Relabel.Utf8
