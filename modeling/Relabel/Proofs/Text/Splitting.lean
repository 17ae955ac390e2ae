import Mathlib
import Relabel.Text.Blank
import Relabel.Text.Split

/-!
# Cutting texts

Where a text is cut at its first or its last occurrence of a character is settled by what the parts
do not hold: there is just one way to write the text as two parts around the character such that
the one in front, or the one behind, is without it. In the same way a text has one longest front of
characters of a kind, and one longest part that is left when the blanks at both ends go.
-/

namespace Relabel.Text

/-! ## Longest fronts -/

/-- The longest front of characters of a kind is that behind which there is none of them. -/
theorem span_eq_iff {isKind : Char → Bool} {text front rest : List Char} :
    text.span isKind = (front, rest) ↔
      text = front ++ rest ∧ (∀ c ∈ front, isKind c = true) ∧ ∀ c ∈ rest.head?, isKind c = false := by
  rw [List.span_eq_takeWhile_dropWhile, Prod.mk.injEq]
  constructor
  · rintro ⟨rfl, rfl⟩
    refine ⟨List.takeWhile_append_dropWhile.symm, fun c => List.mem_takeWhile_imp, ?_⟩
    intro c isFirst
    have stops := List.head?_dropWhile_not isKind text
    rwa [Option.mem_def.1 isFirst] at stops
  · rintro ⟨rfl, inFront, stops⟩
    have ended : rest.takeWhile isKind = [] ∧ rest.dropWhile isKind = rest := by
      cases rest with
      | nil => simp
      | cons c rest => simp [stops c rfl]
    rw [List.takeWhile_append_of_pos inFront, List.dropWhile_append_of_pos inFront, ended.1,
      ended.2, List.append_nil]
    exact ⟨rfl, rfl⟩

theorem dropWhile_append_of_head {isKind : Char → Bool} {front rest : List Char}
    (inFront : ∀ c ∈ front, isKind c = true) (stops : ∀ c ∈ rest.head?, isKind c = false) :
    (front ++ rest).dropWhile isKind = rest := by
  have cut := span_eq_iff.2 ⟨rfl, inFront, stops⟩
  rw [List.span_eq_takeWhile_dropWhile] at cut
  exact (Prod.mk.inj cut).2

/-! ## First and last occurrences -/

theorem differs_of_notMem {separator : Char} {text : List Char} (absent : separator ∉ text) :
    ∀ c ∈ text, decide (c ≠ separator) = true := by
  intro c member
  apply decide_eq_true
  rintro rfl
  exact absent member

/-- A cut at the first occurrence leaves none of them in front. -/
theorem splitFirst?_eq_some_iff {separator : Char} {text before after : List Char} :
    splitFirst? separator text = some (before, after) ↔
      text = before ++ separator :: after ∧ separator ∉ before := by
  unfold splitFirst?
  split
  · next front cut =>
    obtain ⟨rfl, differs, -⟩ := span_eq_iff.1 cut
    refine ⟨nofun, ?_⟩
    rintro ⟨same, -⟩
    have member : separator ∈ front ++ [] := same ▸ List.mem_append_right _ List.mem_cons_self
    rw [List.append_nil] at member
    exact absurd rfl (of_decide_eq_true (differs separator member))
  · next front c back cut =>
    obtain ⟨rfl, differs, stops⟩ := span_eq_iff.1 cut
    have isSeparator : c = separator := by simpa using stops c rfl
    subst isSeparator
    have absent : c ∉ front := fun member => absurd rfl (of_decide_eq_true (differs c member))
    constructor
    · rintro ⟨⟩
      exact ⟨rfl, absent⟩
    · rintro ⟨same, absentBefore⟩
      have again : (front ++ c :: back).span (fun d => decide (d ≠ c)) = (before, c :: after) :=
        span_eq_iff.2 ⟨same, differs_of_notMem absentBefore, by simp⟩
      obtain ⟨rfl, tails⟩ := Prod.mk.inj (cut.symm.trans again)
      rw [(List.cons.inj tails).2]

/-- A cut is made at the first occurrence of a character. -/
theorem splitFirst?_append {separator : Char} {front : List Char} (absent : separator ∉ front)
    (back : List Char) :
    splitFirst? separator (front ++ separator :: back) = some (front, back) :=
  splitFirst?_eq_some_iff.2 ⟨rfl, absent⟩

/-- A text is put together around its first occurrence of a character in one way only. -/
theorem append_cons_inj {separator : Char} {front front' back back' : List Char}
    (absent : separator ∉ front) (absent' : separator ∉ front')
    (same : front ++ separator :: back = front' ++ separator :: back') :
    front = front' ∧ back = back' := by
  have cut := splitFirst?_append absent back
  rw [same, splitFirst?_append absent', Option.some.injEq, Prod.mk.injEq] at cut
  exact ⟨cut.1.symm, cut.2.symm⟩

theorem sublist_of_splitFirst? {separator : Char} {text before after : List Char}
    (split : splitFirst? separator text = some (before, after)) : after.Sublist text := by
  obtain ⟨rfl, -⟩ := splitFirst?_eq_some_iff.1 split
  exact (List.sublist_cons_self _ _).trans (List.sublist_append_right _ _)

/-- A cut at the last occurrence leaves none of them behind. -/
theorem splitLast?_eq_some_iff {separator : Char} {text before after : List Char} :
    splitLast? separator text = some (before, after) ↔
      text = before ++ separator :: after ∧ separator ∉ after := by
  simp only [splitLast?, Option.map_eq_some_iff, Prod.exists, Prod.mk.injEq,
    splitFirst?_eq_some_iff]
  constructor
  · rintro ⟨back, front, ⟨turned, absent⟩, rfl, rfl⟩
    refine ⟨List.reverse_inj.1 ?_, by simpa using absent⟩
    simpa using turned
  · rintro ⟨rfl, absent⟩
    exact ⟨after.reverse, before.reverse, by simpa using absent, by simp⟩

/-- A cut is made at the last occurrence of a character. -/
theorem splitLast?_append {separator : Char} {back : List Char} (absent : separator ∉ back)
    (front : List Char) :
    splitLast? separator (front ++ separator :: back) = some (front, back) :=
  splitLast?_eq_some_iff.2 ⟨rfl, absent⟩

/-- A text without the character is not cut. -/
theorem splitLast?_eq_none_iff {separator : Char} {text : List Char} :
    splitLast? separator text = none ↔ separator ∉ text := by
  constructor
  · intro uncut member
    obtain ⟨after, before, turned, absent⟩ :=
      List.eq_append_cons_of_mem (List.mem_reverse.2 member)
    rw [splitLast?, turned, splitFirst?_append absent] at uncut
    cases uncut
  · intro absent
    rw [Option.eq_none_iff_forall_ne_some]
    rintro ⟨before, after⟩ split
    obtain ⟨rfl, -⟩ := splitLast?_eq_some_iff.1 split
    simp at absent

/-! ## Blanks at the ends -/

/-- A text that neither starts nor ends with a blank. -/
structure IsTrimmed (text : List Char) : Prop where
  starts : ∀ c ∈ text.head?, isBlank c = false
  ends : ∀ c ∈ text.getLast?, isBlank c = false

/-- Trimming takes blanks away from both ends, as many as there are. -/
theorem trim_eq_iff {text middle : List Char} :
    trim text = middle ↔
      ∃ front back, text = front ++ middle ++ back ∧ (∀ c ∈ front, isBlank c = true) ∧
        (∀ c ∈ back, isBlank c = true) ∧ IsTrimmed middle := by
  constructor
  · rintro rfl
    obtain ⟨text_eq, blankFront, starts⟩ :=
      span_eq_iff.1 (List.span_eq_takeWhile_dropWhile isBlank text)
    obtain ⟨rest_eq, blankBack, ends⟩ := span_eq_iff.1
      (List.span_eq_takeWhile_dropWhile isBlank (text.dropWhile isBlank).reverse)
    have rest_eq : text.dropWhile isBlank = trim text ++
        ((text.dropWhile isBlank).reverse.takeWhile isBlank).reverse := by
      rw [← List.reverse_inj, List.reverse_append, List.reverse_reverse, trim, trimEnd,
        List.reverse_reverse]
      exact rest_eq
    refine ⟨text.takeWhile isBlank, ((text.dropWhile isBlank).reverse.takeWhile isBlank).reverse,
      ?_, blankFront, fun c member => blankBack c (List.mem_reverse.1 member), ?_, ?_⟩
    · rw [List.append_assoc, ← rest_eq]
      exact text_eq
    · intro c isFirst
      apply starts c
      rw [rest_eq, List.head?_append, Option.mem_def.1 isFirst]
      rfl
    · rw [trim, trimEnd]
      intro c isLast
      apply ends c
      rwa [List.getLast?_reverse] at isLast
  · rintro ⟨front, back, rfl, blankFront, blankBack, starts, ends⟩
    have turnedBlank : ∀ c ∈ back.reverse, isBlank c = true :=
      fun c member => blankBack c (List.mem_reverse.1 member)
    rw [List.append_assoc, trim, trimEnd]
    cases middle with
    | nil =>
      rw [List.nil_append, List.dropWhile_append_of_pos blankFront,
        List.dropWhile_eq_nil_iff.2 blankBack]
      rfl
    | cons c middle =>
      have notBlank : ∀ d ∈ (c :: middle ++ back).head?, isBlank d = false := starts
      rw [dropWhile_append_of_head blankFront notBlank, List.reverse_append,
        dropWhile_append_of_head turnedBlank (by rwa [List.head?_reverse]), List.reverse_reverse]

theorem mem_of_mem_trim {c : Char} {text : List Char} (member : c ∈ trim text) : c ∈ text := by
  obtain ⟨front, back, text_eq, -⟩ := trim_eq_iff.1 (rfl : trim text = trim text)
  rw [text_eq]
  exact List.mem_append_left _ (List.mem_append_right _ member)

/-! ## Parts between separators -/

/-- A part of a text between separators has its characters in the order of the text. -/
theorem sublist_of_mem_splitOn {separator : Char} {text part : List Char}
    (isPart : part ∈ text.splitOn separator) : part.Sublist text := by
  induction text generalizing part with
  | nil =>
    rw [List.splitOn_nil, List.mem_singleton] at isPart
    rw [isPart]
  | cons first rest ih =>
    rw [List.splitOn_cons_eq_if_modifyHead] at isPart
    split at isPart
    · rcases List.mem_cons.1 isPart with rfl | inRest
      · exact List.nil_sublist _
      · exact (ih inRest).cons first
    · cases parts : rest.splitOn separator with
      | nil => exact absurd parts (List.splitOn_ne_nil _ _)
      | cons head tail =>
        rw [parts] at ih
        rw [parts, List.modifyHead_cons, List.mem_cons] at isPart
        rcases isPart with rfl | inTail
        · exact (ih List.mem_cons_self).cons_cons first
        · exact (ih (List.mem_cons_of_mem _ inTail)).cons first

theorem mem_of_mem_splitOn {separator c : Char} {text part : List Char}
    (isPart : part ∈ text.splitOn separator) (member : c ∈ part) : c ∈ text :=
  (sublist_of_mem_splitOn isPart).mem member

theorem notMem_of_mem_splitOn {separator : Char} {text part : List Char}
    (isPart : part ∈ text.splitOn separator) : separator ∉ part := by
  induction text generalizing part with
  | nil =>
    rw [List.splitOn_nil, List.mem_singleton] at isPart
    rw [isPart]
    exact List.not_mem_nil
  | cons first rest ih =>
    rw [List.splitOn_cons_eq_if_modifyHead] at isPart
    split at isPart
    · rcases List.mem_cons.1 isPart with rfl | inRest
      · exact List.not_mem_nil
      · exact ih inRest
    · next differs =>
      cases parts : rest.splitOn separator with
      | nil => exact absurd parts (List.splitOn_ne_nil _ _)
      | cons head tail =>
        rw [parts] at ih
        rw [parts, List.modifyHead_cons, List.mem_cons] at isPart
        rcases isPart with rfl | inTail
        · rw [List.mem_cons, not_or]
          refine ⟨?_, ih List.mem_cons_self⟩
          rintro rfl
          exact differs (beq_self_eq_true _)
        · exact ih (List.mem_cons_of_mem _ inTail)

end Relabel.Text
