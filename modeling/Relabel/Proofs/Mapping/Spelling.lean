import Relabel.Proofs.Mapping.Scanning
import Relabel.Proofs.Text.Utf8

/-!
# Spellings of a record

A record of a debug mapping can be written in several ways, which differ in line numbers and blanks
only. The spellings say what these ways are, without saying how a line is scanned; a line is read as
a record just when it is one of the spellings of that record.
-/

namespace Relabel.Mapping

open Scan

/-! ## Spellings -/

/-- The name of a method as it is written: behind the class that the method was inlined from. -/
def qualified (owner : Option String) (name : String) : List Char :=
  match owner with
  | none => name.toList
  | some owner => owner.toList ++ '.' :: name.toList

/-- What stands behind the four spaces of a member line. -/
inductive SpellsMember : DebugRecord → List Char → Prop
  | field {type name obfuscated : String} {blanks : List Char}
      (isType : IsToken (· = ' ') type.toList) (noNumber : ¬ StartsWithNumber type.toList)
      (isName : IsToken (fun c => c = ' ' || c = '(') name.toList)
      (isTarget : IsToken Text.isBlank obfuscated.toList)
      (areBlank : ∀ c ∈ blanks, Text.isBlank c = true) :
      SpellsMember (.field type name obfuscated)
        (type.toList ++ ' ' :: (name.toList ++ (" -> ".toList ++ (obfuscated.toList ++ blanks))))
  /-- A type that stands without a range does not start with a number that fits. -/
  | method {type name obfuscated arguments : String} {owner : Option String}
      {numbers : LineNumbers} {blanks : List Char}
      (areNumbers : ∀ n ∈ numbers.inFront ++ numbers.behind, IsNumber n ∧ Fits n)
      (isType : IsToken (· = ' ') type.toList)
      (noNumber : numbers.range = none → ¬ StartsWithNumber type.toList)
      (isName : IsToken (fun c => c = ' ' || c = '(') (qualified owner name))
      (noDot : '.' ∉ name.toList) (closed : ')' ∉ arguments.toList)
      (isTarget : IsToken Text.isBlank obfuscated.toList)
      (areBlank : ∀ c ∈ blanks, Text.isBlank c = true) :
      SpellsMember (.method type name obfuscated arguments owner)
        (numbers.front ++ (type.toList ++ ' ' :: (qualified owner name ++ '(' ::
          (arguments.toList ++ ')' :: (numbers.back ++
            (" -> ".toList ++ (obfuscated.toList ++ blanks)))))))

/-- The ways to write a record. -/
inductive Spells : DebugRecord → List Char → Prop
  | comment {text : String} {front back : List Char}
      (blankFront : ∀ c ∈ front, Text.isBlank c = true)
      (blankBack : ∀ c ∈ back, Text.isBlank c = true) (trimmed : Text.IsTrimmed text.toList) :
      Spells (.comment text) ('#' :: (front ++ text.toList ++ back))
  | classHeader {readable obfuscated : String} {blanks : List Char}
      (isReadable : IsToken (· = ' ') readable.toList)
      (noComment : readable.toList.head? ≠ some '#')
      (isTarget : IsToken (fun c => c = ':' || Text.isBlank c) obfuscated.toList)
      (areBlank : ∀ c ∈ blanks, Text.isBlank c = true) :
      Spells (.classHeader readable obfuscated)
        (readable.toList ++ (" -> ".toList ++ (obfuscated.toList ++ ':' :: blanks)))
  | member {record : DebugRecord} {text : List Char} (spells : SpellsMember record text) :
      Spells record ("    ".toList ++ text)

/-! ## Names of methods -/

theorem exists_toList (text : List Char) : ∃ name : String, name.toList = text :=
  ⟨String.ofList text, String.toList_ofList⟩

/-- A name is cut at its last dot, if it has one. -/
theorem exists_qualified (name : List Char) :
    ∃ (owner : Option String) (own : String), '.' ∉ own.toList ∧ name = qualified owner own := by
  cases cut : Text.splitLast? '.' name with
  | none =>
    refine ⟨none, String.ofList name, ?_, ?_⟩
    · simpa using Text.splitLast?_eq_none_iff.1 cut
    · simp [qualified]
  | some parts =>
    obtain ⟨owner, own⟩ := parts
    obtain ⟨rfl, noDot⟩ := Text.splitLast?_eq_some_iff.1 cut
    exact ⟨some (String.ofList owner), String.ofList own, by simpa using noDot, by simp [qualified]⟩

theorem ofMethod_qualified {owner : Option String} {name : String} (noDot : '.' ∉ name.toList)
    (type obfuscated arguments : List Char) :
    DebugRecord.ofMethod type (qualified owner name) obfuscated arguments =
      .method (String.ofList type) name (String.ofList obfuscated) (String.ofList arguments)
        owner := by
  cases owner with
  | none => simp [DebugRecord.ofMethod, qualified, Text.splitLast?_eq_none_iff.2 noDot]
  | some owner => simp [DebugRecord.ofMethod, qualified, Text.splitLast?_append noDot]

namespace DebugRecord

/-! ## Members -/

section

variable {text type name : List Char} {ranged : Bool}

/-- A member with arguments is a method, whatever its range. -/
theorem member?_of_arguments {arguments back : List Char}
    (scanned : afterRange? text =
      some (ranged, type ++ ' ' :: (name ++ '(' :: (arguments ++ ')' :: back))))
    (isType : IsToken (· = ' ') type) (isName : IsToken (fun c => c = ' ' || c = '(') name)
    (closed : ')' ∉ arguments) :
    member? text = (afterLines? back).bind fun rest =>
      (target? rest).map fun obfuscated => ofMethod type name obfuscated arguments := by
  have scanType := token?_append isType (' ' :: (name ++ '(' :: (arguments ++ ')' :: back)))
    (by simp)
  have scanName := token?_append isName ('(' :: (arguments ++ ')' :: back)) (by simp)
  have space (rest : List Char) : word? " " (' ' :: rest) = some rest := word?_append " " rest
  have opening (rest : List Char) : word? "(" ('(' :: rest) = some rest := word?_append "(" rest
  simp only [member?, scanned, scanType, space, scanName, opening,
    Text.splitFirst?_append closed, Option.bind_eq_bind, Option.bind_some]
  congr 1
  funext rest
  cases target? rest <;> rfl

/-- What a method line stands for is settled by what is scanned before its type, if the numbers
behind its arguments fit. -/
theorem member?_of_lines {numbers : LineNumbers} {blanks : List Char} {owner : Option String}
    {name obfuscated arguments : String} (behind : ∀ n ∈ numbers.behind, IsNumber n)
    (scanned : afterRange? text = some (ranged, type ++ ' ' :: (qualified owner name ++ '(' ::
      (arguments.toList ++ ')' :: (numbers.back ++
        (" -> ".toList ++ (obfuscated.toList ++ blanks)))))))
    (isType : IsToken (· = ' ') type)
    (isName : IsToken (fun c => c = ' ' || c = '(') (qualified owner name))
    (noDot : '.' ∉ name.toList) (closed : ')' ∉ arguments.toList)
    (isTarget : IsToken Text.isBlank obfuscated.toList)
    (areBlank : ∀ c ∈ blanks, Text.isBlank c = true) :
    member? text = if ∀ n ∈ numbers.behind, Fits n then
      some (.method (String.ofList type) name obfuscated arguments owner) else none := by
  have aimed := target?_eq_some_iff.2 ⟨blanks, rfl, isTarget, areBlank⟩
  rw [member?_of_arguments scanned isType isName closed, afterLines?_append behind (by simp)]
  split
  · rw [Option.bind_some, aimed, Option.map_some, ofMethod_qualified noDot, String.ofList_toList,
      String.ofList_toList]
  · rfl

/-- A member without arguments is a field, which has no range. -/
theorem member?_of_target {rest obfuscated : List Char}
    (scanned : afterRange? text = some (ranged, type ++ ' ' :: (name ++ rest)))
    (isType : IsToken (· = ' ') type) (isName : IsToken (fun c => c = ' ' || c = '(') name)
    (aimed : target? rest = some obfuscated) :
    member? text = if ranged then none
      else some (.field (String.ofList type) (String.ofList name) (String.ofList obfuscated)) := by
  obtain ⟨blanks, rfl, -⟩ := target?_eq_some_iff.1 aimed
  have scanType := token?_append isType
    (' ' :: (name ++ (" -> ".toList ++ (obfuscated ++ blanks)))) (by simp)
  have scanName := token?_append isName (" -> ".toList ++ (obfuscated ++ blanks)) (by simp)
  have space (rest : List Char) : word? " " (' ' :: rest) = some rest := word?_append " " rest
  have noOpening : word? "(" (" -> ".toList ++ (obfuscated ++ blanks)) = none := rfl
  simp only [member?, scanned, scanType, space, scanName, noOpening, aimed, Option.bind_eq_bind,
    Option.bind_some]

theorem member?_of_spells {record : DebugRecord} (spells : SpellsMember record text) :
    member? text = some record := by
  cases spells with
  | @field type name obfuscated blanks isType noNumber isName isTarget areBlank =>
    have aimed := target?_eq_some_iff.2 ⟨blanks, rfl, isTarget, areBlank⟩
    -- The blank behind the type ends what could be a number.
    have noNumber : number? (type.toList ++ ' ' :: (name.toList ++ (" -> ".toList ++
        (obfuscated.toList ++ blanks)))) = none :=
      (number?_append_eq_none_iff rfl).2 (number?_eq_none_iff.2 noNumber)
    rw [member?_of_target (afterRange?_of_noNumber noNumber) isType isName aimed]
    simp
  | @method type name obfuscated arguments owner numbers blanks areNumbers isType noNumber isName
      noDot closed isTarget areBlank =>
    obtain ⟨inFront, behind⟩ := List.forall_mem_append.1 areNumbers
    have scanned := afterRange?_append (fun n member => (inFront n member).1)
      (fun noRange => number?_eq_none_iff.2 (noNumber noRange))
      (qualified owner name ++ '(' :: (arguments.toList ++ ')' :: (numbers.back ++
        (" -> ".toList ++ (obfuscated.toList ++ blanks)))))
    rw [if_pos fun n member => (inFront n member).2] at scanned
    rw [member?_of_lines (fun n member => (behind n member).1) scanned isType isName noDot closed
      isTarget areBlank, if_pos fun n member => (behind n member).2, String.ofList_toList]

theorem spells_of_member? {record : DebugRecord} (read : member? text = some record) :
    SpellsMember record text := by
  simp only [member?, Option.bind_eq_bind, Option.bind_eq_some_iff, Prod.exists, word?_eq_some_iff,
    token?_eq_some_iff] at read
  obtain ⟨ranged, _, rangeRun, type, _, ⟨rfl, isType, -⟩, _, rfl, name, rest, ⟨rfl, isName, -⟩,
    read⟩ := read
  obtain ⟨numbers, rfl, rfl, inFront, noNumber⟩ := afterRange?_eq_some rangeRun
  replace noNumber (noRange : numbers.range = none) : ¬ StartsWithNumber type :=
    number?_eq_none_iff.1 ((number?_append_eq_none_iff rfl).1 (noNumber noRange))
  obtain ⟨type, rfl⟩ := exists_toList type
  split at read
  · next opening =>
    rw [word?_eq_some_iff] at opening
    subst opening
    simp only [Option.bind_eq_some_iff, Prod.exists, Text.splitFirst?_eq_some_iff,
      Option.pure_def, Option.some.injEq] at read
    obtain ⟨arguments, _, ⟨rfl, closed⟩, _, linesRun, obfuscated, aimed, rfl⟩ := read
    obtain ⟨lines, rfl, behind⟩ := afterLines?_eq_some linesRun
    obtain ⟨blanks, rfl, isTarget, areBlank⟩ := target?_eq_some_iff.1 aimed
    obtain ⟨owner, own, noDot, rfl⟩ := exists_qualified name
    obtain ⟨arguments, rfl⟩ := exists_toList arguments
    obtain ⟨obfuscated, rfl⟩ := exists_toList obfuscated
    rw [ofMethod_qualified noDot, String.ofList_toList, String.ofList_toList, String.ofList_toList]
    -- The range comes from the front of the line and the other numbers from its end.
    have areNumbers : ∀ n ∈ LineNumbers.inFront ⟨numbers.range, lines.origin⟩ ++
        LineNumbers.behind ⟨numbers.range, lines.origin⟩, IsNumber n ∧ Fits n :=
      List.forall_mem_append.2 ⟨inFront, behind⟩
    exact .method areNumbers isType noNumber isName noDot closed isTarget areBlank
  · next noOpening =>
    obtain ⟨obfuscated, aimed, read⟩ := Option.bind_eq_some_iff.1 read
    obtain ⟨blanks, rfl, isTarget, areBlank⟩ := target?_eq_some_iff.1 aimed
    obtain ⟨name, rfl⟩ := exists_toList name
    obtain ⟨obfuscated, rfl⟩ := exists_toList obfuscated
    -- A field with a range is refused, so that there are no numbers to account for.
    rcases range : numbers.range with _ | ⟨first, last⟩
    · rw [range] at read
      cases read
      rw [String.ofList_toList, String.ofList_toList, String.ofList_toList, LineNumbers.front,
        range]
      exact .field isType (noNumber range) isName isTarget areBlank
    · rw [range] at read
      cases read

theorem member?_eq_some_iff {record : DebugRecord} :
    member? text = some record ↔ SpellsMember record text :=
  ⟨spells_of_member?, member?_of_spells⟩

end

/-! ## Lines -/

theorem header?_eq_some_iff {text : List Char} {record : DebugRecord} :
    header? text = some record ↔
      ∃ (readable obfuscated : String) (blanks : List Char),
        record = .classHeader readable obfuscated ∧
        text = readable.toList ++ (" -> ".toList ++ (obfuscated.toList ++ ':' :: blanks)) ∧
        IsToken (· = ' ') readable.toList ∧
        IsToken (fun c => c = ':' || Text.isBlank c) obfuscated.toList ∧
        ∀ c ∈ blanks, Text.isBlank c = true := by
  simp only [header?, Option.bind_eq_bind, Option.bind_eq_some_iff, Prod.exists, word?_eq_some_iff,
    token?_eq_some_iff]
  constructor
  · rintro ⟨readable, _, ⟨rfl, isReadable, -⟩, _, rfl, obfuscated, _, ⟨rfl, isTarget, -⟩, blanks,
      rfl, read⟩
    obtain ⟨readable, rfl⟩ := exists_toList readable
    obtain ⟨obfuscated, rfl⟩ := exists_toList obfuscated
    split at read
    · next atEnd =>
      cases read
      rw [String.ofList_toList, String.ofList_toList]
      exact ⟨readable, obfuscated, blanks, rfl, rfl, isReadable, isTarget, atEnd_iff.1 atEnd⟩
    · cases read
  · rintro ⟨readable, obfuscated, blanks, rfl, rfl, isReadable, isTarget, areBlank⟩
    refine ⟨readable.toList, _, ⟨rfl, isReadable, by simp⟩, _, rfl, obfuscated.toList, ':' :: blanks,
      ⟨rfl, isTarget, by simp⟩, blanks, rfl, ?_⟩
    rw [if_pos (atEnd_iff.2 areBlank), String.ofList_toList, String.ofList_toList]

theorem ofText?_indented (text : List Char) : ofText? ("    ".toList ++ text) = member? text := by
  have noHash : word? "#" ("    ".toList ++ text) = none := rfl
  simp only [ofText?, noHash, word?_append]

theorem ofText?_of_spells {text : List Char} {record : DebugRecord} (spells : Spells record text) :
    ofText? text = some record := by
  have hash (rest : List Char) : word? "#" ('#' :: rest) = some rest := word?_append "#" rest
  cases spells with
  | @comment text front back blankFront blankBack trimmed =>
    have isTrim : Text.trim (front ++ text.toList ++ back) = text.toList :=
      Text.trim_eq_iff.2 ⟨front, back, rfl, blankFront, blankBack, trimmed⟩
    simp only [ofText?, hash, isTrim, String.ofList_toList]
  | @classHeader readable obfuscated blanks isReadable noComment isTarget areBlank =>
    have read := header?_eq_some_iff.2 ⟨readable, obfuscated, blanks, rfl, rfl, isReadable, isTarget,
      areBlank⟩
    -- The first character of the name is neither of those that other lines start with.
    obtain ⟨c, rest, named⟩ := List.exists_cons_of_ne_nil isReadable.nonempty
    have notHash : c ≠ '#' := by simpa [named] using noComment
    have notSpace : c ≠ ' ' := by simpa [named] using isReadable.plain c
    have noHash (text : List Char) : word? "#" (c :: text) = none := by
      simp [word?, List.isPrefixOf?, notHash.symm]
    have noSpaces (text : List Char) : word? "    " (c :: text) = none := by
      simp [word?, List.isPrefixOf?, notSpace.symm]
    rw [named, List.cons_append] at read ⊢
    simp only [ofText?, noHash, noSpaces, read]
  | member spells => exact (ofText?_indented _).trans (member?_eq_some_iff.2 spells)

theorem spells_of_ofText? {text : List Char} {record : DebugRecord}
    (read : ofText? text = some record) : Spells record text := by
  unfold ofText? at read
  split at read
  · next rest isComment =>
    cases read
    obtain rfl := word?_eq_some_iff.1 isComment
    obtain ⟨comment, isText⟩ := exists_toList (Text.trim rest)
    obtain ⟨front, back, split, blankFront, blankBack, trimmed⟩ := Text.trim_eq_iff.1 isText.symm
    rw [← isText, String.ofList_toList, split]
    exact .comment blankFront blankBack trimmed
  · next noComment =>
    split at read
    · next rest isMember =>
      obtain rfl := word?_eq_some_iff.1 isMember
      exact .member (member?_eq_some_iff.1 read)
    · obtain ⟨readable, obfuscated, blanks, rfl, rfl, isReadable, isTarget, areBlank⟩ :=
        header?_eq_some_iff.1 read
      -- A name that starts with a hash would have made the line a comment.
      refine .classHeader isReadable (fun isHash => ?_) isTarget areBlank
      obtain ⟨rest, named⟩ := List.head?_eq_some_iff.1 isHash
      rw [named] at noComment
      cases noComment

theorem ofText?_eq_some_iff {text : List Char} {record : DebugRecord} :
    ofText? text = some record ↔ Spells record text :=
  ⟨spells_of_ofText?, ofText?_of_spells⟩

theorem parse_encodeChars (text : List Char) :
    parse (Utf8.encodeChars text) = (ofText? text).elim (.error (.malformed .debug)) .ok := by
  simp only [parse, Utf8.decodeChars_eq_ok_iff.2 rfl]
  cases ofText? text <;> rfl

theorem parse_eq_ok_iff_ofText? {line : Bytes} {record : DebugRecord} :
    parse line = .ok record ↔
      ∃ text, Utf8.decodeChars line = .ok text ∧ ofText? text = some record := by
  unfold parse
  cases Utf8.decodeChars line with
  | error fault => simp
  | ok text => cases read : ofText? text <;> simp [read]

/-- **A line is read as a record just when it spells it.** The bytes of a line are accepted if they
are the UTF-8 encoding of a text that spells a record, and all of this text is accounted for by the
record, by line numbers that fit, and by blanks at the ends. -/
theorem parse_eq_ok_iff (line : Bytes) (record : DebugRecord) :
    parse line = .ok record ↔ ∃ text, line = Utf8.encodeChars text ∧ Spells record text := by
  simp only [parse_eq_ok_iff_ofText?, Utf8.decodeChars_eq_ok_iff, ofText?_eq_some_iff]

end DebugRecord

end Relabel.Mapping
