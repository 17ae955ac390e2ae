import Relabel.Proofs.Mapping.Spelling

/-!
# Line numbers of methods

The line numbers of a method are checked and dropped: the line stands for the method that it would
stand for without them, or it is refused. One number is not checked in this way. Where the first
number of a range is too large, there is no number to scan, and the range counts as the front of
the type that stands behind it.
-/

namespace Relabel.Mapping

open Scan

/-- A method as it stands on a line without line numbers. -/
structure WrittenMethod where
  type : String
  name : String
  obfuscated : String
  arguments : String
  owner : Option String := none
  isType : IsToken (· = ' ') type.toList
  noDigit : ∀ c ∈ type.toList.head?, c.isDigit = false
  isName : IsToken (fun c => c = ' ' || c = '(') (qualified owner name)
  noDot : '.' ∉ name.toList
  closed : ')' ∉ arguments.toList
  isTarget : IsToken Text.isBlank obfuscated.toList

namespace WrittenMethod

def record (method : WrittenMethod) : DebugRecord :=
  .method method.type method.name method.obfuscated method.arguments method.owner

/-- What stands behind the four spaces of a line with line numbers and with blanks at its end. -/
def text (method : WrittenMethod) (numbers : LineNumbers) (blanks : List Char) : List Char :=
  numbers.front ++ (method.type.toList ++ ' ' :: (qualified method.owner method.name ++ '(' ::
    (method.arguments.toList ++ ')' :: (numbers.back ++
      (" -> ".toList ++ (method.obfuscated.toList ++ blanks))))))

def line (method : WrittenMethod) (numbers : LineNumbers) (blanks : List Char) : Bytes :=
  Utf8.encodeChars ("    ".toList ++ method.text numbers blanks)

/-- The method whose type is taken to start with the range. -/
def rangeInType (method : WrittenMethod) (numbers : LineNumbers) : DebugRecord :=
  .method (String.ofList (numbers.front ++ method.type.toList)) method.name method.obfuscated
    method.arguments method.owner

theorem noNumber (method : WrittenMethod) : number? method.type.toList = none := by
  refine number?_eq_none_iff.2 ?_
  rintro ⟨digits, rest, split, isNumber, -⟩
  obtain ⟨c, digits, rfl⟩ := List.exists_cons_of_ne_nil isNumber.nonempty
  have isFirst : c ∈ method.type.toList.head? := by simp [split]
  have isDigit := isNumber.digits c List.mem_cons_self
  rw [method.noDigit c isFirst] at isDigit
  cases isDigit

end WrittenMethod

namespace LineNumbers

def AllFit (numbers : LineNumbers) : Prop := ∀ n ∈ numbers.inFront ++ numbers.behind, Fits n

instance (numbers : LineNumbers) : Decidable numbers.AllFit :=
  inferInstanceAs (Decidable (∀ n ∈ _, _))

theorem allFit_iff {numbers : LineNumbers} :
    numbers.AllFit ↔ (∀ n ∈ numbers.inFront, Fits n) ∧ ∀ n ∈ numbers.behind, Fits n :=
  List.forall_mem_append

/-- The first number of the range is too large, and the numbers behind the arguments are not. -/
def RangeJoinsType (numbers : LineNumbers) : Prop :=
  numbers.StartsTooLarge ∧ ∀ n ∈ numbers.behind, Fits n

instance (numbers : LineNumbers) : Decidable numbers.RangeJoinsType :=
  inferInstanceAs (Decidable (_ ∧ _))

theorem RangeJoinsType.not_allFit {numbers : LineNumbers} (joins : numbers.RangeJoinsType) :
    ¬ numbers.AllFit := by
  obtain ⟨⟨first, isFirst, tooLarge⟩, -⟩ := joins
  intro fits
  exact tooLarge (fits first (List.mem_append_left _ (List.mem_of_mem_head? isFirst)))

/-- Digits and colons may stand in front of a type. -/
theorem isToken_append {numbers : LineNumbers}
    (areNumbers : ∀ n ∈ numbers.inFront, IsNumber n) {type : List Char}
    (isType : IsToken (· = ' ') type) : IsToken (· = ' ') (numbers.front ++ type) where
  nonempty := by simp [isType.nonempty]
  plain c member := by
    have digitPlain (d : Char) (isDigit : d.isDigit = true) : d ≠ ' ' := by
      rintro rfl
      cases isDigit
    have colonPlain : ':' ≠ ' ' := by decide
    refine decide_eq_false ?_
    rcases List.mem_append.1 member with inFront | inType
    · obtain ⟨_ | ⟨first, last⟩, origin⟩ := numbers
      · cases inFront
      · have isFirst := areNumbers first List.mem_cons_self
        have isLast := areNumbers last (List.mem_cons_of_mem _ List.mem_cons_self)
        simp only [front, List.mem_append, List.mem_cons, List.not_mem_nil, or_false] at inFront
        rcases inFront with inFirst | rfl | inLast | rfl
        · exact digitPlain c (isFirst.digits c inFirst)
        · exact colonPlain
        · exact digitPlain c (isLast.digits c inLast)
        · exact colonPlain
    · exact of_decide_eq_false (isType.plain c inType)

end LineNumbers

namespace DebugRecord

variable {numbers : LineNumbers} {blanks : List Char}

theorem member?_text (method : WrittenMethod)
    (areNumbers : ∀ n ∈ numbers.inFront ++ numbers.behind, IsNumber n)
    (areBlank : ∀ c ∈ blanks, Text.isBlank c = true) :
    member? (method.text numbers blanks) =
      if numbers.AllFit then some method.record
      else if numbers.RangeJoinsType then some (method.rangeInType numbers)
      else none := by
  obtain ⟨inFront, behind⟩ := List.forall_mem_append.1 areNumbers
  have scanned := afterRange?_append inFront (fun _ => method.noNumber)
    (qualified method.owner method.name ++ '(' :: (method.arguments.toList ++ ')' ::
      (numbers.back ++ (" -> ".toList ++ (method.obfuscated.toList ++ blanks)))))
  rw [WrittenMethod.text]
  by_cases frontFits : ∀ n ∈ numbers.inFront, Fits n
  · -- There is a range, or none, and the type stands behind it.
    rw [if_pos frontFits] at scanned
    rw [member?_of_lines behind scanned method.isType method.isName method.noDot method.closed
      method.isTarget areBlank]
    by_cases behindFits : ∀ n ∈ numbers.behind, Fits n
    · rw [if_pos behindFits, if_pos (LineNumbers.allFit_iff.2 ⟨frontFits, behindFits⟩),
        String.ofList_toList]
      rfl
    · rw [if_neg behindFits, if_neg fun fits => behindFits (LineNumbers.allFit_iff.1 fits).2,
        if_neg fun joins => behindFits joins.2]
  · rw [if_neg frontFits] at scanned
    rw [if_neg fun fits => frontFits (LineNumbers.allFit_iff.1 fits).1]
    by_cases tooLarge : numbers.StartsTooLarge
    · -- The type that is scanned starts with the range.
      rw [if_pos tooLarge, ← List.append_assoc] at scanned
      have isType := LineNumbers.isToken_append inFront method.isType
      rw [← List.append_assoc, member?_of_lines behind scanned isType method.isName method.noDot
        method.closed method.isTarget areBlank]
      by_cases behindFits : ∀ n ∈ numbers.behind, Fits n
      · rw [if_pos behindFits, if_pos ⟨tooLarge, behindFits⟩]
        rfl
      · rw [if_neg behindFits, if_neg fun joins => behindFits joins.2]
    · rw [if_neg tooLarge] at scanned
      rw [member?, scanned, if_neg fun joins => tooLarge joins.1]
      rfl

theorem parse_line_eq (method : WrittenMethod)
    (areNumbers : ∀ n ∈ numbers.inFront ++ numbers.behind, IsNumber n)
    (areBlank : ∀ c ∈ blanks, Text.isBlank c = true) :
    parse (method.line numbers blanks) =
      if numbers.AllFit then .ok method.record
      else if numbers.RangeJoinsType then .ok (method.rangeInType numbers)
      else .error (.malformed .debug) := by
  rw [WrittenMethod.line, parse_encodeChars, ofText?_indented,
    member?_text method areNumbers areBlank]
  split
  · rfl
  · split <;> rfl

/-- **Line numbers are dropped, or too large, or in the type.** A line with numbers stands for the
method of the line without them if all the numbers fit. If the first number of the range does not,
and those behind the arguments do, it stands for a method whose type starts with the range; any
other number that does not fit makes the line malformed. So it is just such a first number that is
neither dropped nor refused. -/
theorem parse_line (method : WrittenMethod) (numbers : LineNumbers) (blanks : List Char)
    (areNumbers : ∀ n ∈ numbers.inFront ++ numbers.behind, IsNumber n)
    (areBlank : ∀ c ∈ blanks, Text.isBlank c = true) :
    parse (method.line {} []) = .ok method.record ∧
      parse (method.line numbers blanks) =
        (if numbers.AllFit then .ok method.record
        else if numbers.RangeJoinsType then .ok (method.rangeInType numbers)
        else .error (.malformed .debug)) ∧
      (((numbers.AllFit → parse (method.line numbers blanks) = parse (method.line {} [])) ∧
          (¬ numbers.AllFit → ∃ fault, parse (method.line numbers blanks) = .error fault)) ↔
        ¬ numbers.RangeJoinsType) := by
  have plain : parse (method.line {} []) = .ok method.record :=
    (parse_line_eq method (List.forall_mem_nil _) (List.forall_mem_nil _)).trans
      (if_pos (List.forall_mem_nil _))
  have written := parse_line_eq method areNumbers areBlank
  refine ⟨plain, written, ?_, fun notJoined => ⟨fun fits => ?_, fun misfits => ?_⟩⟩
  · rintro ⟨-, refused⟩ joins
    obtain ⟨fault, failed⟩ := refused joins.not_allFit
    rw [written, if_neg joins.not_allFit, if_pos joins] at failed
    cases failed
  · rw [written, if_pos fits, plain]
  · rw [written, if_neg misfits, if_neg notJoined]
    exact ⟨_, rfl⟩

/-- A method that was inlined from another class. -/
def onClick : WrittenMethod where
  type := "void"
  name := "onClick"
  obfuscated := "b"
  arguments := "android.view.View,int"
  owner := some "a.Base"
  isType := ⟨by simp, by simp⟩
  noDigit := by simp
  isName := ⟨by simp [qualified], by simp [qualified]⟩
  noDot := by simp
  closed := by simp
  isTarget := ⟨by simp, by simp [Text.isBlank]⟩

/-- A line whose range fits is refused for a number behind the arguments. -/
theorem parse_onClick_of_tooLarge :
    let numbers : LineNumbers :=
      { range := some ("17".toList, "23".toList)
        origin := some ("18446744073709551616".toList, none) }
    (∀ n ∈ numbers.inFront ++ numbers.behind, IsNumber n) ∧
      parse (onClick.line {} []) = .ok onClick.record ∧
      parse (onClick.line numbers [' ']) = .error (.malformed .debug) := by
  intro numbers
  have areNumbers : ∀ n ∈ numbers.inFront ++ numbers.behind, IsNumber n := by
    refine List.forall_mem_cons.2 ⟨⟨by simp, by simp⟩, ?_⟩
    refine List.forall_mem_cons.2 ⟨⟨by simp, by simp⟩, ?_⟩
    exact List.forall_mem_singleton.2 ⟨by simp, by simp⟩
  have tooLarge : ¬ Fits "18446744073709551616".toList := by simp [Fits, value]
  have misfits : ¬ numbers.AllFit := fun fits =>
    tooLarge (fits _ (by simp [numbers, LineNumbers.behind]))
  have notJoined : ¬ numbers.RangeJoinsType := fun joins => tooLarge (joins.2 _ List.mem_cons_self)
  have areBlank : ∀ c ∈ [' '], Text.isBlank c = true := List.forall_mem_singleton.2 rfl
  obtain ⟨plain, written, -⟩ := parse_line onClick numbers [' '] areNumbers areBlank
  rw [if_neg misfits, if_neg notJoined] at written
  exact ⟨areNumbers, plain, written⟩

/-- A range that starts with a number of more than 64 bits becomes part of the type. -/
theorem range_joins_type :
    ¬ Fits "18446744073709551616".toList ∧
      parse (Utf8.encode "    int f() -> a") = .ok (.method "int" "f" "a" "" none) ∧
      parse (Utf8.encode "    18446744073709551616:1:int f() -> a") =
        .ok (.method "18446744073709551616:1:int" "f" "a" "" none) := by
  refine ⟨?_, by decide +kernel, by decide +kernel⟩
  simp [Fits, value]

end DebugRecord

end Relabel.Mapping
