import Relabel.Mapping.DebugRecord
import Relabel.Proofs.Text.Splitting

/-!
# Tokens of a line

A scanner succeeds just when the text starts with such a token as it takes, and then the text is the
token and the rest behind it, so that nothing is lost between two scanners. The line numbers of a
method are scanned in this way too. Only the first number of a range is not required: text that does
not start with a number, or with one that is too large, has no range.
-/

namespace Relabel.Mapping

namespace Scan

/-! ## Tokens -/

theorem word?_eq_some_iff {word : String} {text rest : List Char} :
    word? word text = some rest ↔ text = word.toList ++ rest := by
  rw [word?, List.isPrefixOf?_eq_some_iff_append_eq, eq_comm]

theorem word?_append (word : String) (rest : List Char) :
    word? word (word.toList ++ rest) = some rest :=
  word?_eq_some_iff.2 rfl

/-- Characters in a row, none of which stops a token. -/
structure IsToken (stops : Char → Bool) (token : List Char) : Prop where
  nonempty : token ≠ []
  plain : ∀ c ∈ token, stops c = false

/-- A token goes on up to the first character that stops it. -/
theorem token?_eq_some_iff {stops : Char → Bool} {text token rest : List Char} :
    token? stops text = some (token, rest) ↔
      text = token ++ rest ∧ IsToken stops token ∧ ∀ c ∈ rest.head?, stops c = true := by
  have cuts (front back : List Char) : text.span (!stops ·) = (front, back) ↔
      text = front ++ back ∧ (∀ c ∈ front, stops c = false) ∧ ∀ c ∈ back.head?, stops c = true := by
    rw [Text.span_eq_iff]
    simp
  unfold token?
  split
  · next back cut =>
    -- The text starts with a character that stops, and a token is not empty.
    refine ⟨nofun, ?_⟩
    rintro ⟨text_eq, isToken, ends⟩
    have again := cut.symm.trans ((cuts token rest).2 ⟨text_eq, isToken.plain, ends⟩)
    exact absurd (Prod.mk.inj again).1.symm isToken.nonempty
  · next front back nonempty cut =>
    constructor
    · rintro ⟨⟩
      obtain ⟨text_eq, plain, ends⟩ := (cuts _ _).1 cut
      exact ⟨text_eq, ⟨nonempty, plain⟩, ends⟩
    · rintro ⟨text_eq, isToken, ends⟩
      obtain ⟨rfl, rfl⟩ := Prod.mk.inj
        (cut.symm.trans ((cuts token rest).2 ⟨text_eq, isToken.plain, ends⟩))
      rfl

theorem token?_append {stops : Char → Bool} {token : List Char} (isToken : IsToken stops token)
    (rest : List Char) (ends : ∀ c ∈ rest.head?, stops c = true) :
    token? stops (token ++ rest) = some (token, rest) :=
  token?_eq_some_iff.2 ⟨rfl, isToken, ends⟩

theorem atEnd_iff {text : List Char} : atEnd text = true ↔ ∀ c ∈ text, Text.isBlank c = true := by
  rw [atEnd, List.all_eq_true]

/-! ## Numbers -/

/-- A run of decimal digits of any length. -/
structure IsNumber (digits : List Char) : Prop where
  nonempty : digits ≠ []
  digits : ∀ c ∈ digits, c.isDigit = true

/-- Whether the value of a run of digits fits 64 bits. -/
def Fits (digits : List Char) : Prop := value digits < 2 ^ 64

instance (digits : List Char) : Decidable (Fits digits) := inferInstanceAs (Decidable (_ < _))

/-- A number is accepted if it fits, however many digits it has. -/
theorem number?_append {digits : List Char} (isNumber : IsNumber digits) (rest : List Char)
    (ends : ∀ c ∈ rest.head?, c.isDigit = false) :
    number? (digits ++ rest) = if Fits digits then some rest else none := by
  have cut := Text.span_eq_iff.2 ⟨rfl, isNumber.digits, ends⟩
  rw [number?, cut]
  cases digits with
  | nil => exact absurd rfl isNumber.nonempty
  | cons c digits => rfl

/-- A number goes on up to the first character that is no digit. -/
theorem number?_eq_some_iff {text rest : List Char} :
    number? text = some rest ↔
      ∃ digits, text = digits ++ rest ∧ IsNumber digits ∧ Fits digits ∧
        ∀ c ∈ rest.head?, c.isDigit = false := by
  constructor
  · intro scanned
    unfold number? at scanned
    split at scanned
    · cases scanned
    · next digits back nonempty cut =>
      obtain ⟨text_eq, areDigits, ends⟩ := Text.span_eq_iff.1 cut
      split at scanned
      · next fits =>
        cases scanned
        exact ⟨digits, text_eq, ⟨nonempty, areDigits⟩, fits, ends⟩
      · cases scanned
  · rintro ⟨digits, rfl, isNumber, fits, ends⟩
    rw [number?_append isNumber rest ends, if_pos fits]

/-- All the digits that a text starts with are a number that fits. -/
def StartsWithNumber (text : List Char) : Prop :=
  ∃ digits rest, text = digits ++ rest ∧ IsNumber digits ∧ Fits digits ∧
    ∀ c ∈ rest.head?, c.isDigit = false

/-- A number is refused if there is none, or if it is too large. -/
theorem number?_eq_none_iff {text : List Char} : number? text = none ↔ ¬ StartsWithNumber text := by
  rw [Option.eq_none_iff_forall_ne_some, StartsWithNumber, exists_comm]
  simp only [ne_eq, number?_eq_some_iff, not_exists]

/-- Whether a text starts with a number is settled in front of its first other character. -/
theorem number?_append_eq_none_iff {front rest : List Char} {c : Char} (notDigit : c.isDigit = false) :
    number? (front ++ c :: rest) = none ↔ number? front = none := by
  cases cut : front.span Char.isDigit with
  | mk digits back =>
    obtain ⟨rfl, areDigits, ends⟩ := Text.span_eq_iff.1 cut
    -- The same digits are scanned from the longer text, whether or not the shorter one ends there.
    have longer : (digits ++ back ++ c :: rest).span Char.isDigit = (digits, back ++ c :: rest) := by
      refine Text.span_eq_iff.2 ⟨List.append_assoc .., areDigits, ?_⟩
      cases back with
      | nil => simpa using notDigit
      | cons d back => exact ends
    rw [number?, number?, cut, longer]
    cases digits <;> simp

end Scan

/-! ## Line numbers -/

open Scan

/-- The line numbers that a method may be written with: the range before its type, and one or two
numbers behind its arguments. -/
structure LineNumbers where
  range : Option (List Char × List Char) := none
  origin : Option (List Char × Option (List Char)) := none
  deriving DecidableEq, Repr

namespace LineNumbers

/-- What is written before the type. -/
def front (numbers : LineNumbers) : List Char :=
  match numbers.range with
  | none => []
  | some (first, last) => first ++ ':' :: (last ++ [':'])

/-- What is written behind the arguments. -/
def back (numbers : LineNumbers) : List Char :=
  match numbers.origin with
  | none => []
  | some (first, none) => ':' :: first
  | some (first, some last) => ':' :: (first ++ ':' :: last)

/-- The numbers of the range. -/
def inFront (numbers : LineNumbers) : List (List Char) :=
  match numbers.range with
  | none => []
  | some (first, last) => [first, last]

/-- The numbers behind the arguments. -/
def behind (numbers : LineNumbers) : List (List Char) :=
  match numbers.origin with
  | none => []
  | some (first, last?) => first :: last?.toList

/-- The first number of the range does not fit. -/
def StartsTooLarge (numbers : LineNumbers) : Prop := ∃ first ∈ numbers.inFront.head?, ¬ Fits first

instance (numbers : LineNumbers) : Decidable numbers.StartsTooLarge :=
  inferInstanceAs (Decidable (∃ first ∈ _, _))

end LineNumbers

namespace DebugRecord

theorem afterRange?_of_noNumber {text : List Char} (noNumber : number? text = none) :
    afterRange? text = some (false, text) := by
  rw [afterRange?, noNumber]

/-- A type behind a range is scanned up to the end of the range if its numbers fit. If the first
number is too large, the range is taken for the front of the type. -/
theorem afterRange?_append {numbers : LineNumbers} (areNumbers : ∀ n ∈ numbers.inFront, IsNumber n)
    {type : List Char} (noNumber : numbers.range = none → number? type = none) (rest : List Char) :
    afterRange? (numbers.front ++ (type ++ ' ' :: rest)) =
      if ∀ n ∈ numbers.inFront, Fits n then some (numbers.range.isSome, type ++ ' ' :: rest)
      else if numbers.StartsTooLarge then some (false, numbers.front ++ (type ++ ' ' :: rest))
      else none := by
  obtain ⟨_ | ⟨first, last⟩, origin⟩ := numbers
  · have noNumber : number? (type ++ ' ' :: rest) = none :=
      (number?_append_eq_none_iff rfl).2 (noNumber rfl)
    simp [afterRange?_of_noNumber noNumber, LineNumbers.front, LineNumbers.inFront]
  · have colon (text : List Char) : word? ":" (':' :: text) = some text := word?_append ":" text
    have isFirst : IsNumber first := areNumbers first List.mem_cons_self
    have isLast : IsNumber last := areNumbers last (List.mem_cons_of_mem _ List.mem_cons_self)
    have scanFirst := number?_append isFirst (':' :: (last ++ ':' :: (type ++ ' ' :: rest)))
      (by simp)
    have scanLast := number?_append isLast (':' :: (type ++ ' ' :: rest)) (by simp)
    -- A first number that does not fit leaves the text as it is; behind one that fits, the last
    -- one must fit too.
    by_cases firstFits : Fits first <;> by_cases lastFits : Fits last <;>
      simp [afterRange?, LineNumbers.front, LineNumbers.inFront, LineNumbers.StartsTooLarge,
        scanFirst, scanLast, colon, firstFits, lastFits]

/-- What is scanned before a type is a range, or there is nothing like a number. -/
theorem afterRange?_eq_some {text rest : List Char} {ranged : Bool}
    (scanned : afterRange? text = some (ranged, rest)) :
    ∃ numbers : LineNumbers, text = numbers.front ++ rest ∧ ranged = numbers.range.isSome ∧
      (∀ n ∈ numbers.inFront, IsNumber n ∧ Fits n) ∧
      (numbers.range = none → number? rest = none) := by
  unfold afterRange? at scanned
  split at scanned
  · next noNumber =>
    cases scanned
    exact ⟨{}, rfl, rfl, List.forall_mem_nil _, fun _ => noNumber⟩
  · next behindFirst firstRun =>
    simp only [Option.bind_eq_bind, Option.bind_eq_some_iff, Option.pure_def, Option.some.injEq,
      Prod.mk.injEq, word?_eq_some_iff] at scanned
    obtain ⟨_, rfl, _, lastRun, _, rfl, rfl, rfl⟩ := scanned
    obtain ⟨first, rfl, isFirst, firstFits, -⟩ := number?_eq_some_iff.1 firstRun
    obtain ⟨last, rfl, isLast, lastFits, -⟩ := number?_eq_some_iff.1 lastRun
    refine ⟨{ range := some (first, last) }, ?_, rfl, ?_, nofun⟩
    · simp [LineNumbers.front]
    · simpa [LineNumbers.inFront] using ⟨⟨isFirst, firstFits⟩, isLast, lastFits⟩

/-- The numbers behind the arguments must all fit. -/
theorem afterLines?_append {numbers : LineNumbers} (areNumbers : ∀ n ∈ numbers.behind, IsNumber n)
    {rest : List Char} (ends : ∀ c ∈ rest.head?, c.isDigit = false ∧ c ≠ ':') :
    afterLines? (numbers.back ++ rest) =
      if ∀ n ∈ numbers.behind, Fits n then some rest else none := by
  have colon (text : List Char) : word? ":" (':' :: text) = some text := word?_append ":" text
  have noColon : word? ":" rest = none := by
    rw [Option.eq_none_iff_forall_ne_some]
    intro other found
    rw [word?_eq_some_iff] at found
    exact (ends ':' (by simp [found])).2 rfl
  have noDigit : ∀ c ∈ rest.head?, c.isDigit = false := fun c isFirst => (ends c isFirst).1
  obtain ⟨range, origin⟩ := numbers
  rcases origin with _ | ⟨first, _ | last⟩
  · simp [afterLines?, LineNumbers.back, LineNumbers.behind, noColon]
  · have isFirst : IsNumber first := areNumbers first List.mem_cons_self
    by_cases firstFits : Fits first <;>
      simp [afterLines?, LineNumbers.back, LineNumbers.behind, colon, noColon,
        number?_append isFirst rest noDigit, firstFits]
  · have isFirst : IsNumber first := areNumbers first List.mem_cons_self
    have isLast : IsNumber last := areNumbers last (List.mem_cons_of_mem _ List.mem_cons_self)
    have scanFirst := number?_append isFirst (':' :: (last ++ rest)) (by simp)
    by_cases firstFits : Fits first <;>
      simp [afterLines?, LineNumbers.back, LineNumbers.behind, colon, scanFirst,
        number?_append isLast rest noDigit, firstFits]

theorem afterLines?_eq_some {text rest : List Char} (scanned : afterLines? text = some rest) :
    ∃ numbers : LineNumbers, text = numbers.back ++ rest ∧
      ∀ n ∈ numbers.behind, IsNumber n ∧ Fits n := by
  unfold afterLines? at scanned
  split at scanned
  · cases scanned
    exact ⟨{}, rfl, List.forall_mem_nil _⟩
  · next behindColon colon =>
    rw [word?_eq_some_iff] at colon
    obtain ⟨behindFirst, firstRun, more⟩ := Option.bind_eq_some_iff.1 scanned
    obtain ⟨first, rfl, isFirst, firstFits, -⟩ := number?_eq_some_iff.1 firstRun
    clear scanned firstRun
    -- There is a second number just if there is a second colon.
    split at more
    · cases more
      refine ⟨{ origin := some (first, none) }, colon, ?_⟩
      simpa [LineNumbers.behind] using ⟨isFirst, firstFits⟩
    · next behindSecond second =>
      rw [word?_eq_some_iff] at second
      obtain ⟨last, rfl, isLast, lastFits, -⟩ := number?_eq_some_iff.1 more
      refine ⟨{ origin := some (first, some last) }, ?_, ?_⟩
      · rw [colon, second]
        simp [LineNumbers.back]
      · simpa [LineNumbers.behind] using ⟨⟨isFirst, firstFits⟩, isLast, lastFits⟩

/-- A member line ends in its target and blanks. -/
theorem target?_eq_some_iff {text obfuscated : List Char} :
    target? text = some obfuscated ↔
      ∃ blanks, text = " -> ".toList ++ (obfuscated ++ blanks) ∧
        IsToken Text.isBlank obfuscated ∧ ∀ c ∈ blanks, Text.isBlank c = true := by
  simp only [target?, Option.bind_eq_bind, Option.bind_eq_some_iff, Prod.exists, word?_eq_some_iff,
    token?_eq_some_iff]
  constructor
  · rintro ⟨_, rfl, token, blanks, ⟨rfl, isToken, -⟩, ended⟩
    split at ended
    · next atEnd =>
      cases ended
      exact ⟨blanks, rfl, isToken, atEnd_iff.1 atEnd⟩
    · cases ended
  · rintro ⟨blanks, rfl, isToken, areBlank⟩
    refine ⟨_, rfl, obfuscated, blanks, ⟨rfl, isToken, fun c isFirst => ?_⟩, ?_⟩
    · exact areBlank c (List.mem_of_mem_head? isFirst)
    · rw [if_pos (atEnd_iff.2 areBlank)]

end DebugRecord

end Relabel.Mapping
