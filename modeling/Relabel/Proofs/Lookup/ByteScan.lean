import Relabel.Proofs.Lookup.Grammar
import Relabel.Proofs.Text.Utf8

/-!
# Searching the bytes of a text

The first instruction can be searched for in the bytes of a text, without decoding it: the search
looks for the two bytes that openers start with, tells openers from other texts by single bytes, and
counts parentheses. Such a search could go wrong where one on characters cannot, by cutting the text
inside of a character or by closing more parentheses than are open. It never does, and it finds what
the search on characters finds.
-/

namespace Relabel.Lookup

namespace Bytewise

/-! ## The search -/

/-- What would stop the search. -/
inductive Trap
  /-- A slice that does not start and end between two characters. -/
  | slice (start stop : Nat)
  /-- A parenthesis that is closed while none is open. -/
  | depth
  deriving DecidableEq, Repr

/-- Whether a character starts at an index, or the text ends there. -/
def isBoundary (bytes : Bytes) (index : Nat) : Bool :=
  match bytes[index]? with
  | some byte => index = 0 || !Utf8.isContinuation byte
  | none => index = bytes.length

/-- The bytes between two indexes, which must not be inside of a character. -/
def slice (bytes : Bytes) (start stop : Nat) : Except Trap Bytes :=
  if start ≤ stop ∧ isBoundary bytes start ∧ isBoundary bytes stop then
    .ok ((bytes.take stop).drop start)
  else .error (.slice start stop)

/-- The index of the first `SR`. -/
def firstMarker? : Bytes → Option Nat
  | [] => none
  | byte :: rest =>
    if byte = 83 ∧ rest.head? = some 82 then some 0 else (firstMarker? rest).map (· + 1)

def kind? (byte : UInt8) : Option Kind :=
  if byte = 67 then some .type
  else if byte = 77 then some .method
  else if byte = 70 then some .field
  else none

/-- The kind and the slash flag of an opener whose marker has this index, with the index of its
parenthesis. -/
def opener? (bytes : Bytes) (marker : Nat) : Option (Kind × Bool × Nat) :=
  match bytes[marker + 2]?.bind kind? with
  | none => none
  | some kind =>
    let slashes : Bool := bytes[marker + 3]? = some 47
    let parenthesis := if slashes then marker + 4 else marker + 3
    if bytes[parenthesis]? = some 40 then some (kind, slashes, parenthesis) else none

/-- The index of the parenthesis that closes the first one of some bytes, where `depth` are open and
`index` is that of the first byte. -/
def close (depth index : Nat) : Bytes → Except Trap (Option Nat)
  | [] => .ok none
  | byte :: rest =>
    if byte = 40 then close (depth + 1) (index + 1) rest
    else if byte = 41 then
      match depth with
      | 0 => .error .depth
      | 1 => .ok (some index)
      | depth + 2 => close (depth + 1) (index + 1) rest
    else close depth (index + 1) rest

/-- An instruction with the bytes of its body, and the indexes at which it starts and ends. -/
structure Hit where
  mode : Mode
  kind : Kind
  slashes : Bool
  body : Bytes
  start : Nat
  stop : Nat
  deriving DecidableEq, Repr

/-- The instruction at an opener, or the index at which one starts that is never closed. -/
def atOpener (bytes : Bytes) (marker : Nat) (kind : Kind) (slashes : Bool) (parenthesis : Nat) :
    Except Trap (Except Nat Hit) :=
  let marked := 0 < marker ∧ bytes[marker - 1]? = some 65
  let start := if marked then marker - 1 else marker
  match close 0 parenthesis (bytes.drop parenthesis) with
  | .error trap => .error trap
  | .ok none => .ok (.error start)
  | .ok (some stop) =>
    (slice bytes (parenthesis + 1) stop).map fun body =>
      .ok { mode := if marked then .advanced else .simple, kind, slashes, body, start,
            stop := stop + 1 }

theorem firstMarker?_lt {bytes : Bytes} {offset : Nat} (found : firstMarker? bytes = some offset) :
    offset < bytes.length := by
  induction bytes generalizing offset with
  | nil => cases found
  | cons byte rest ih =>
    rw [firstMarker?] at found
    split at found
    · cases found
      simp
    · obtain ⟨behind, foundBehind, rfl⟩ := Option.map_eq_some_iff.1 found
      simpa using ih foundBehind

/-- The first instruction that starts at an index or behind it. -/
def findFrom (bytes : Bytes) (start : Nat) : Except Trap (Option (Except Nat Hit)) :=
  match slice bytes start bytes.length with
  | .error trap => .error trap
  | .ok _ =>
    match _found : firstMarker? (bytes.drop start) with
    | none => .ok none
    | some offset =>
      match opener? bytes (start + offset) with
      | some (kind, slashes, parenthesis) =>
        (atOpener bytes (start + offset) kind slashes parenthesis).map some
      | none => findFrom bytes (start + offset + 1)
termination_by bytes.length - start
decreasing_by
  have := firstMarker?_lt _found
  rw [List.length_drop] at this
  omega

/-- The first instruction in the bytes of a text. -/
def find (bytes : Bytes) : Except Trap (Option (Except Nat Hit)) := findFrom bytes 0

/-! ## Bytes of characters -/

open Utf8

/-- A byte below 0x80 is the character with its number, and no part of another one. -/
theorem mem_utf8EncodeChar {c : Char} {byte : UInt8} (ascii : byte.toNat < 0x80) :
    byte ∈ String.utf8EncodeChar c ↔ c = Char.ofNat byte.toNat := by
  constructor
  · intro member
    have value : (Char.ofNat byte.toNat).toNat = byte.toNat := toNat_ofNat (by omega)
    obtain ⟨-, -, a, ha, encoded⟩ | ⟨-, -, -, a, b, ha, hb, encoded⟩ |
      ⟨-, -, -, a, b, d, ha, hb, hd, encoded⟩ | ⟨-, -, a, b, d, e, ha, hb, hd, he, encoded⟩ :=
      utf8EncodeChar_cases c
    all_goals
      rw [encoded] at member
      simp only [List.mem_cons, List.not_mem_nil, or_false] at member
    · subst member
      exact Char.toNat_inj.1 (ha.symm.trans value.symm)
    -- All bytes of longer characters are large.
    · obtain rfl | rfl := member <;> omega
    · obtain rfl | rfl | rfl := member <;> omega
    · obtain rfl | rfl | rfl | rfl := member <;> omega
  · intro same
    rw [same, utf8EncodeChar_ascii ascii]
    exact List.mem_singleton_self byte

theorem size_cons (c : Char) (text : List Char) : size (c :: text) = c.utf8Size + size text := by
  have split := size_append [c] text
  rw [List.singleton_append] at split
  rw [split]
  simp [size]

theorem length_encodeChars (text : List Char) : (encodeChars text).length = size text := by
  induction text with
  | nil => rfl
  | cons c text ih =>
    rw [encodeChars_cons, List.length_append, String.length_utf8EncodeChar, ih, size_cons]

theorem utf8EncodeChar_ne_nil (c : Char) : String.utf8EncodeChar c ≠ [] := by
  apply List.ne_nil_of_length_pos
  rw [String.length_utf8EncodeChar]
  exact c.utf8Size_pos

theorem head?_encodeChars {text : List Char} {byte : UInt8} (ascii : byte.toNat < 0x80) :
    (encodeChars text).head? = some byte ↔ text.head? = some (Char.ofNat byte.toNat) := by
  cases text with
  | nil => simp [encodeChars]
  | cons c rest =>
    rw [encodeChars_cons, List.head?_cons, Option.some.injEq]
    constructor
    · intro first
      rw [List.head?_append_of_ne_nil _ (utf8EncodeChar_ne_nil c)] at first
      exact (mem_utf8EncodeChar ascii).1 (List.mem_of_mem_head? first)
    · intro same
      rw [same, utf8EncodeChar_ascii ascii]
      rfl

theorem getLast?_encodeChars {text : List Char} {byte : UInt8} (ascii : byte.toNat < 0x80) :
    (encodeChars text).getLast? = some byte ↔ text.getLast? = some (Char.ofNat byte.toNat) := by
  cases text using List.reverseRecOn with
  | nil => simp [encodeChars]
  | append_singleton before c =>
    rw [encodeChars_append, encodeChars_cons, List.getLast?_concat, Option.some.injEq]
    have empty : encodeChars [] = [] := rfl
    rw [empty, List.append_nil]
    constructor
    · intro last
      rw [List.getLast?_append_of_ne_nil _ (utf8EncodeChar_ne_nil c)] at last
      exact (mem_utf8EncodeChar ascii).1 (List.mem_of_getLast? last)
    · intro same
      rw [same, utf8EncodeChar_ascii ascii]
      simp

/-! ## Slices -/

/-- The bytes behind a text have indexes that start at its size. -/
theorem getElem?_behind (front back : List Char) (index : Nat) :
    (encodeChars (front ++ back))[size front + index]? = (encodeChars back)[index]? := by
  rw [encodeChars_append, ← length_encodeChars, List.getElem?_append_right (Nat.le_add_right ..),
    Nat.add_sub_cancel_left]

theorem drop_front (front back : List Char) :
    (encodeChars (front ++ back)).drop (size front) = encodeChars back := by
  rw [encodeChars_append, ← length_encodeChars, List.drop_left]

/-- Between two characters there is a boundary. -/
theorem isBoundary_behind (front back : List Char) :
    isBoundary (encodeChars (front ++ back)) (size front) = true := by
  unfold isBoundary
  have first := getElem?_behind front back 0
  rw [Nat.add_zero] at first
  rw [first]
  cases back with
  | nil => simp [encodeChars, ← length_encodeChars]
  | cons c back =>
    rw [encodeChars_cons]
    -- The first byte of a character is below or above all those that continue one.
    obtain ⟨small, -, a, first, encoded⟩ | ⟨-, -, -, a, _, first, -, encoded⟩ |
      ⟨-, -, -, a, _, _, first, -, -, encoded⟩ | ⟨-, -, a, _, _, _, first, -, -, -, encoded⟩ :=
      utf8EncodeChar_cases c
    all_goals
      have notContinuation : ¬ isContinuation a := by
        rw [isContinuation_iff]
        omega
      simp [encoded, notContinuation]

theorem slice_encodeChars (front middle back : List Char) :
    slice (encodeChars (front ++ (middle ++ back))) (size front) (size front + size middle) =
      .ok (encodeChars middle) := by
  have start := isBoundary_behind front (middle ++ back)
  have stop := isBoundary_behind (front ++ middle) back
  rw [List.append_assoc, size_append] at stop
  rw [slice, if_pos ⟨Nat.le_add_right .., start, stop⟩, List.drop_take, drop_front,
    Nat.add_sub_cancel_left, encodeChars_append, ← length_encodeChars, List.take_left]

/-! ## Closing parentheses -/

theorem close_opening (depth index : Nat) (rest : Bytes) :
    close depth index (40 :: rest) = close (depth + 1) (index + 1) rest := by
  rw [close.eq_def]
  rfl

theorem close_closing (depth index : Nat) (rest : Bytes) :
    close (depth + 1) index (41 :: rest) =
      if depth = 0 then .ok (some index) else close depth (index + 1) rest := by
  rw [close.eq_def]
  cases depth <;> rfl

/-- No parenthesis is among the bytes that are passed over. -/
theorem close_append {skipped : Bytes} (plain : ∀ byte ∈ skipped, byte ≠ 40 ∧ byte ≠ 41)
    (depth index : Nat) (bytes : Bytes) :
    close depth index (skipped ++ bytes) = close depth (index + skipped.length) bytes := by
  induction skipped generalizing index with
  | nil => rfl
  | cons byte skipped ih =>
    obtain ⟨here, behind⟩ := List.forall_mem_cons.1 plain
    rw [List.cons_append, close.eq_def]
    simp only [if_neg here.1, if_neg here.2]
    rw [ih behind, List.length_cons, Nat.add_right_comm, Nat.add_assoc]

theorem size_reverse_cons (c : Char) (read : List Char) :
    size (c :: read).reverse = size read.reverse + c.utf8Size := by
  rw [List.reverse_cons, size_append, size_cons]
  rfl

/-- Counting parentheses by bytes never goes wrong inside of one that is open, and closes it where
counting by characters does. -/
theorem close_encodeChars (start depth : Nat) (read rest : List Char) :
    close (depth + 1) (start + size read.reverse) (encodeChars rest) =
      .ok ((closeFrom read depth rest).map fun parts => start + size parts.1) := by
  induction rest generalizing read depth with
  | nil => rfl
  | cons c rest ih =>
    have next {depth : Nat} := ih depth (c :: read)
    rw [size_reverse_cons, ← Nat.add_assoc] at next
    rw [closeFrom.eq_def]
    simp only
    by_cases isOpening : c = '('
    · subst isOpening
      have bytes : encodeChars ('(' :: rest) = 40 :: encodeChars rest := rfl
      rw [if_pos rfl, ← next, bytes, close_opening]
      rfl
    by_cases isClosing : c = ')'
    · subst isClosing
      have bytes : encodeChars (')' :: rest) = 41 :: encodeChars rest := rfl
      rw [if_neg (by decide), if_pos rfl, bytes, close_closing]
      cases depth with
      | zero => rfl
      | succ depth => exact next
    · have plain : ∀ byte ∈ String.utf8EncodeChar c, byte ≠ 40 ∧ byte ≠ 41 := by
        intro byte member
        constructor
        · rintro rfl
          exact isOpening ((mem_utf8EncodeChar (by decide)).1 member)
        · rintro rfl
          exact isClosing ((mem_utf8EncodeChar (by decide)).1 member)
      rw [if_neg isOpening, if_neg isClosing, ← next, encodeChars_cons, close_append plain,
        String.length_utf8EncodeChar]

/-! ## Markers and openers -/

theorem firstMarker?_append {skipped : Bytes} (plain : ∀ byte ∈ skipped, byte ≠ 83)
    (bytes : Bytes) :
    firstMarker? (skipped ++ bytes) = (firstMarker? bytes).map (· + skipped.length) := by
  induction skipped with
  | nil => simp
  | cons byte skipped ih =>
    obtain ⟨here, behind⟩ := List.forall_mem_cons.1 plain
    rw [List.cons_append, firstMarker?, if_neg fun marker => here marker.1, ih behind,
      Option.map_map]
    rfl

/-- What does not start with a marker has its first marker behind the first character. -/
theorem firstMarker?_cons {c : Char} {text : List Char}
    (noMarker : ¬ (c = 'S' ∧ text.head? = some 'R')) :
    firstMarker? (encodeChars (c :: text)) =
      (firstMarker? (encodeChars text)).map (· + c.utf8Size) := by
  by_cases isFirst : c = 'S'
  · subst isFirst
    have bytes : encodeChars ('S' :: text) = 83 :: encodeChars text := rfl
    have notSecond : (encodeChars text).head? ≠ some 82 := by
      intro second
      exact noMarker ⟨rfl, (head?_encodeChars (by decide)).1 second⟩
    rw [bytes, firstMarker?, if_neg fun marker => notSecond marker.2]
    rfl
  · have plain : ∀ byte ∈ String.utf8EncodeChar c, byte ≠ 83 := by
      rintro byte member rfl
      exact isFirst ((mem_utf8EncodeChar (by decide)).1 member)
    rw [encodeChars_cons, firstMarker?_append plain, String.length_utf8EncodeChar]

theorem opener?_of_noMarker {c : Char} {text : List Char}
    (noMarker : ¬ (c = 'S' ∧ text.head? = some 'R')) : Lookup.opener? (c :: text) = none := by
  apply Option.eq_none_iff_forall_ne_some.2
  intro ⟨kind, slashes, rest⟩ isOpener
  obtain ⟨same, textEq⟩ := List.cons.inj (opener?_eq_some_iff.1 isOpener)
  exact noMarker ⟨same, by simp [textEq]⟩

theorem skips_cons {c : Char} {front back : List Char} (skips : Skips front back)
    (here : Lookup.opener? (c :: (front ++ back)) = none) : Skips (c :: front) back := by
  intro part nonempty isSuffix
  cases List.suffix_cons_iff.1 isSuffix with
  | inl whole =>
    rw [whole]
    exact here
  | inr inFront => exact skips part nonempty inFront

/-- The first marker of a text, in front of which no opener starts. -/
theorem firstMarker?_encodeChars (text : List Char) :
    (firstMarker? (encodeChars text) = none ∧ Skips text []) ∨
      ∃ front rest, text = front ++ 'S' :: 'R' :: rest ∧
        firstMarker? (encodeChars text) = some (size front) ∧ Skips front ('S' :: 'R' :: rest) := by
  induction text with
  | nil => exact .inl ⟨rfl, Inert.nil.skips []⟩
  | cons c text ih =>
    by_cases isMarker : c = 'S' ∧ text.head? = some 'R'
    · obtain ⟨rfl, second⟩ := isMarker
      obtain ⟨rest, rfl⟩ := List.head?_eq_some_iff.1 second
      exact .inr ⟨[], rest, rfl, rfl, Inert.nil.skips _⟩
    · have here := opener?_of_noMarker isMarker
      rw [firstMarker?_cons isMarker]
      cases ih with
      | inl nothing =>
        rw [nothing.1]
        exact .inl ⟨rfl, skips_cons nothing.2 (by rw [List.append_nil, here])⟩
      | inr behind =>
        obtain ⟨front, rest, rfl, found, skips⟩ := behind
        refine .inr ⟨c :: front, rest, rfl, ?_, skips_cons skips here⟩
        rw [found, size_cons, Option.map_some, Nat.add_comm]

/-- The byte of the letter of a kind. -/
def letterByte : Kind → UInt8
  | .type => 67
  | .method => 77
  | .field => 70

theorem kind?_eq_some_iff {byte : UInt8} {kind : Kind} :
    kind? byte = some kind ↔ byte = letterByte kind := by
  unfold kind?
  split
  · next isType => cases kind <;> simp [isType, letterByte]
  · split
    · next isMethod => cases kind <;> simp [isMethod, letterByte]
    · split
      · next isField => cases kind <;> simp [isField, letterByte]
      · next notType notMethod notField => cases kind <;> simp [letterByte, *]

/-- The kind that is read from a byte is the one that is read from a character. -/
theorem bind_kind? (text : List Char) :
    (encodeChars text).head?.bind kind? = text.head?.bind Kind.ofLetter? := by
  apply Option.ext
  intro kind
  have ascii : (letterByte kind).toNat < 0x80 := by cases kind <;> decide
  have letter : Char.ofNat (letterByte kind).toNat = kind.letter := by cases kind <;> rfl
  simp only [Option.bind_eq_some_iff, kind?_eq_some_iff, Kind.ofLetter?_eq_some_iff,
    exists_eq_right, head?_encodeChars ascii, letter]

/-- The number of bytes of an opener in front of its parenthesis. -/
def width (slashes : Bool) : Nat := if slashes then 4 else 3

theorem size_opening (kind : Kind) (slashes : Bool) :
    size (opening kind slashes) = width slashes + 1 := by
  cases kind <;> cases slashes <;> rfl

/-- A byte of a text that stands for a character of its own. -/
theorem getElem?_size_iff (front back : List Char) {byte : UInt8} (ascii : byte.toNat < 0x80) :
    (encodeChars (front ++ back))[size front]? = some byte ↔
      back.head? = some (Char.ofNat byte.toNat) := by
  have here := getElem?_behind front back 0
  rw [Nat.add_zero] at here
  rw [here, ← List.head?_eq_getElem?]
  exact head?_encodeChars ascii

/-- Behind the letter of a kind, an opener has its parenthesis, maybe with a slash before it. -/
theorem opener?_marker (letter : Char) (rest : List Char) :
    Lookup.opener? ('S' :: 'R' :: letter :: rest) =
      let slashes : Bool := rest.head? = some '/'
      let opened := if slashes then rest.tail else rest
      (Kind.ofLetter? letter).bind fun kind =>
        if opened.head? = some '(' then some (kind, slashes, opened.tail) else none := by
  rw [Lookup.opener?.eq_def]
  cases rest with
  | nil => cases Kind.ofLetter? letter <;> rfl
  | cons c rest =>
    by_cases isSlash : c = '/'
    · subst isSlash
      cases rest with
      | nil => cases Kind.ofLetter? letter <;> rfl
      | cons d rest =>
        by_cases isOpening : d = '('
        · subst isOpening
          cases isKind : Kind.ofLetter? letter <;> simp [isKind]
        · cases Kind.ofLetter? letter <;> simp [isOpening]
    · by_cases isOpening : c = '('
      · subst isOpening
        cases isKind : Kind.ofLetter? letter <;> simp [isKind]
      · cases Kind.ofLetter? letter <;> simp [isSlash, isOpening]

theorem size_append_letter (front : List Char) (kind : Kind) (slash : List Char) :
    size (front ++ 'S' :: 'R' :: kind.letter :: slash) = size front + 3 + size slash := by
  have letters : size ('S' :: 'R' :: kind.letter :: slash) = 3 + size slash := by
    have split := size_append ['S', 'R', kind.letter] slash
    cases kind <;> exact split
  rw [size_append, letters, Nat.add_assoc]

/-- Behind a marker an opener is read from the bytes as it is from the characters. -/
theorem opener?_encodeChars (front rest : List Char) :
    opener? (encodeChars (front ++ 'S' :: 'R' :: rest)) (size front) =
      (Lookup.opener? ('S' :: 'R' :: rest)).map fun (kind, slashes, _) =>
        (kind, slashes, size front + width slashes) := by
  have kinds := bind_kind? rest
  have atLetter := getElem?_behind front ('S' :: 'R' :: rest) 2
  have bytes : (encodeChars ('S' :: 'R' :: rest))[2]? = (encodeChars rest).head? := by
    rw [List.head?_eq_getElem?]
    rfl
  unfold opener?
  rw [atLetter, bytes, kinds]
  cases rest with
  | nil => rfl
  | cons letter rest =>
    rw [List.head?_cons, Option.bind_some, opener?_marker]
    cases isKind : Kind.ofLetter? letter with
    | none => rfl
    | some kind =>
      obtain rfl := Kind.ofLetter?_eq_some_iff.1 isKind
      have third (byte : UInt8) (ascii : byte.toNat < 0x80) :=
        getElem?_size_iff (front ++ ['S', 'R', kind.letter]) rest ascii
      simp only [size_append_letter, List.append_assoc, List.cons_append, List.nil_append] at third
      have zero : size [] = 0 := rfl
      rw [zero, Nat.add_zero] at third
      simp only [third 47 (by decide), Option.bind_some]
      have slash : Char.ofNat (47 : UInt8).toNat = '/' := rfl
      rw [slash]
      by_cases isSlash : rest.head? = some '/'
      · obtain ⟨behind, rfl⟩ := List.head?_eq_some_iff.1 isSlash
        have fourth (byte : UInt8) (ascii : byte.toNat < 0x80) :=
          getElem?_size_iff (front ++ ['S', 'R', kind.letter, '/']) behind ascii
        simp only [size_append_letter, List.append_assoc, List.cons_append,
          List.nil_append] at fourth
        have one : size ['/'] = 1 := rfl
        rw [one] at fourth
        simp [fourth 40 (by decide), width]
      · simp [isSlash, third 40 (by decide), width]

/-! ## The search on characters -/

/-- An occurrence as it is found in the bytes. -/
def hit (o : Occurrence) : Hit where
  mode := o.instruction.mode
  kind := o.instruction.kind
  slashes := o.instruction.slashes
  body := encodeChars o.instruction.body
  start := o.start
  stop := o.stop

theorem size_mark (mode : Mode) : size mode.mark = if mode = .advanced then 1 else 0 := by
  cases mode <;> rfl

/-- The byte in front of an opener tells whether it is marked. -/
theorem marked_iff (front back : List Char) :
    (0 < size front ∧ (encodeChars (front ++ back))[size front - 1]? = some 65) ↔
      front.getLast? = some 'A' := by
  have letter : Char.ofNat (65 : UInt8).toNat = 'A' := rfl
  rw [← letter, ← getLast?_encodeChars (by decide), List.getLast?_eq_getElem?, length_encodeChars,
    encodeChars_append, ← length_encodeChars]
  by_cases nonempty : 0 < (encodeChars front).length
  · rw [List.getElem?_append_left (by omega)]
    simp [nonempty]
  · have empty : encodeChars front = [] := List.eq_nil_of_length_eq_zero (by omega)
    simp [empty]

/-- The start of an instruction, as it is computed from the byte in front of its opener. -/
theorem start_eq {front before : List Char} {mode : Mode} (isMarked : IsMarked front before mode) :
    (if mode = .advanced then size front - 1 else size front) = size before := by
  rw [isMarked.frontEq, size_append, size_mark]
  cases mode <;> simp

/-- The text of an opener in front of its parenthesis. -/
def lead (kind : Kind) (slashes : Bool) : List Char :=
  'S' :: 'R' :: kind.letter :: if slashes then ['/'] else []

theorem size_lead (kind : Kind) (slashes : Bool) : size (lead kind slashes) = width slashes := by
  cases kind <;> cases slashes <;> rfl

theorem close_opener (front : List Char) (kind : Kind) (slashes : Bool) (rest : List Char) :
    close 0 (size front + width slashes)
        ((encodeChars (front ++ (opening kind slashes ++ rest))).drop
          (size front + width slashes)) =
      .ok ((closeFrom [] 0 rest).map fun parts =>
        size front + width slashes + 1 + size parts.1) := by
  have split : front ++ (opening kind slashes ++ rest) =
      (front ++ lead kind slashes) ++ '(' :: rest := by
    simp [opening, lead]
  have bytes : encodeChars ('(' :: rest) = 40 :: encodeChars rest := rfl
  have closed := close_encodeChars (size front + width slashes + 1) 0 [] rest
  rw [split, ← size_lead kind slashes, ← size_append, drop_front, size_append, size_lead, bytes,
    close_opening]
  exact closed

theorem atOpener_encodeChars (front : List Char) (kind : Kind) (slashes : Bool)
    (rest : List Char) :
    atOpener (encodeChars (front ++ (opening kind slashes ++ rest))) (size front) kind slashes
        (size front + width slashes) =
      .ok ((Lookup.atOpener front.reverse kind slashes rest).map hit) := by
  obtain ⟨before, mode, isMarked⟩ := exists_isMarked front
  have marked := (marked_iff front (opening kind slashes ++ rest)).trans isMarked.mark.symm
  rw [isMarked.atOpener_eq, atOpener.eq_def]
  simp only [marked, close_opener, start_eq isMarked]
  cases closed : closeFrom [] 0 rest with
  | none => rfl
  | some parts =>
    obtain ⟨body, after⟩ := parts
    have sliced := slice_encodeChars (front ++ opening kind slashes) body (')' :: after)
    have stop : size before + size (⟨mode, kind, slashes, body⟩ : Instruction).spell =
        size front + width slashes + 1 + size body + 1 := by
      have one : size [')'] = 1 := rfl
      rw [Instruction.spell_eq, ← size_append, ← List.append_assoc, ← isMarked.frontEq]
      simp only [size_append, size_opening, one]
      omega
    have sameMode : (if mode = .advanced then Mode.advanced else .simple) = mode := by
      cases mode <;> rfl
    rw [size_append, size_opening, ← Nat.add_assoc, List.append_assoc] at sliced
    rw [(isBody_of_closeFrom closed).restEq]
    simp only [Option.map_some, Option.elim_some, sliced, sameMode, ← stop]
    rfl

theorem findFrom_of_none {bytes rest : Bytes} {start : Nat}
    (sliced : slice bytes start bytes.length = .ok rest)
    (nothing : firstMarker? (bytes.drop start) = none) : findFrom bytes start = .ok none := by
  rw [findFrom.eq_def, sliced]
  simp only
  split
  · rfl
  · next found => rw [nothing] at found; cases found

theorem findFrom_of_some {bytes rest : Bytes} {start offset : Nat}
    (sliced : slice bytes start bytes.length = .ok rest)
    (found : firstMarker? (bytes.drop start) = some offset) :
    findFrom bytes start =
      (opener? bytes (start + offset)).elim (findFrom bytes (start + offset + 1))
        fun (kind, slashes, parenthesis) =>
          (atOpener bytes (start + offset) kind slashes parenthesis).map some := by
  rw [findFrom.eq_def, sliced]
  simp only
  split
  · next nothing => rw [nothing] at found; cases found
  · next other same =>
    rw [same] at found
    cases found
    cases opener? bytes (start + offset) <;> rfl

/-- The search through the bytes goes on behind an opener that is none. -/
theorem findFrom_encodeChars (front back : List Char) :
    findFrom (encodeChars (front ++ back)) (size front) =
      .ok ((Lookup.findFrom front.reverse back).map (Except.map hit)) := by
  induction length : back.length using Nat.strong_induction_on generalizing front back with
  | _ n ih =>
    have sliced := slice_encodeChars front back []
    rw [List.append_nil, ← size_append, ← length_encodeChars (front ++ back)] at sliced
    have behind := drop_front front back
    cases firstMarker?_encodeChars back with
    | inl nothing =>
      obtain ⟨none, skips⟩ := nothing
      have skipped := findFrom_of_skips skips front.reverse
      rw [List.append_nil] at skipped
      rw [findFrom_of_none sliced (by rw [behind, none]), skipped]
      rfl
    | inr marked =>
      obtain ⟨passed, rest, rfl, found, skips⟩ := marked
      rw [findFrom_of_some sliced (by rw [behind, found]), findFrom_of_skips skips,
        ← List.reverse_append, ← size_append, ← List.append_assoc, opener?_encodeChars]
      cases isOpener : Lookup.opener? ('S' :: 'R' :: rest) with
      | none =>
        -- The search goes on behind the first letter of the marker.
        have shorter : ('R' :: rest).length < n := by
          simp only [← length, List.length_append, List.length_cons]
          omega
        have next := ih _ shorter (front ++ passed ++ ['S']) ('R' :: rest) rfl
        have one : size ['S'] = 1 := rfl
        rw [size_append, one, List.append_assoc, List.reverse_append] at next
        rw [Lookup.findFrom, isOpener]
        exact next
      | some opener =>
        obtain ⟨kind, slashes, behind⟩ := opener
        have isOpening := opener?_eq_some_iff.1 isOpener
        rw [Lookup.findFrom, isOpener]
        simp only [Option.map_some, Option.elim_some]
        rw [isOpening, atOpener_encodeChars]
        rfl

/-- The search through the bytes of a text never goes wrong, and finds what the search through its
characters finds. -/
theorem find_encodeChars (text : List Char) :
    find (encodeChars text) = .ok ((Lookup.find text).map (Except.map hit)) :=
  findFrom_encodeChars [] text

end Bytewise

/-- The search finds in each text what the grammar says there is to be found in it. On the bytes of
the text it never goes wrong, and what it finds there are the bytes between two characters that
spell the instruction. -/
theorem find_grammatical (text : List Char) :
    (∀ found, find text = found ↔ Finds text found) ∧
      Bytewise.find (Utf8.encodeChars text) =
        .ok ((find text).map (Except.map Bytewise.hit)) ∧
      ∀ o, find text = some (.ok o) →
        text = o.before ++ (o.instruction.spell ++ o.after) ∧
          Bytewise.slice (Utf8.encodeChars text) o.start o.stop =
            .ok (Utf8.encodeChars o.instruction.spell) := by
  refine ⟨fun found => find_eq_iff, Bytewise.find_encodeChars text, fun o found => ?_⟩
  have split := (find_eq_ok found).1
  have sliced := Bytewise.slice_encodeChars o.before o.instruction.spell o.after
  rw [← split] at sliced
  exact ⟨split, sliced⟩

end Relabel.Lookup
