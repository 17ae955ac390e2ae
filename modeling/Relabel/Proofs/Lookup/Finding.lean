import Mathlib
import Relabel.Lookup.Instruction

/-!
# Finding instructions

A search passes over the front of a text as long as no opener starts in it, and what it finds at the
first opener makes up the text again: what stands before the instruction, its spelling, and what
stands behind it.

A text is *inert* when it can be put in front of any other without any effect on what is found
there. An inert text must not end in a part of an opener, nor in the mark of the advanced mode, as
these would join with what follows.
-/

namespace Relabel

theorem Utf8.size_append (front back : List Char) :
    size (front ++ back) = size front + size back := by
  have total (text : List Char) (start : Nat) :
      text.foldl (fun total c => total + c.utf8Size) start = start + size text := by
    induction text generalizing start with
    | nil => rfl
    | cons c rest ih =>
      rw [size, List.foldl_cons, List.foldl_cons, ih, ih (0 + c.utf8Size)]
      omega
  rw [size, List.foldl_append, total]
  rfl

namespace Lookup

/-! ## Openers -/

theorem Kind.ofLetter?_eq_some_iff {c : Char} {kind : Kind} :
    ofLetter? c = some kind ↔ c = kind.letter := by
  unfold ofLetter?
  split
  · next isType => cases kind <;> simp [isType, letter]
  · split
    · next isMethod => cases kind <;> simp [isMethod, letter]
    · split
      · next isField => cases kind <;> simp [isField, letter]
      · next notType notMethod notField => cases kind <;> simp [letter, *]

/-- The text of an opener. -/
def opening (kind : Kind) (slashes : Bool) : List Char :=
  'S' :: 'R' :: kind.letter :: ((if slashes then ['/'] else []) ++ ['('])

theorem opener?_eq_some_iff {text rest : List Char} {kind : Kind} {slashes : Bool} :
    opener? text = some (kind, slashes, rest) ↔ text = opening kind slashes ++ rest := by
  constructor
  · intro found
    unfold opener? at found
    split at found
    · obtain ⟨found, isKind, same⟩ := Option.map_eq_some_iff.1 found
      cases same
      rw [Kind.ofLetter?_eq_some_iff.1 isKind]
      rfl
    · obtain ⟨found, isKind, same⟩ := Option.map_eq_some_iff.1 found
      cases same
      rw [Kind.ofLetter?_eq_some_iff.1 isKind]
      rfl
    · cases found
  · intro same
    subst same
    cases kind <;> cases slashes <;> rfl

/-- Only the parenthesis and the characters in front of it make up an opener. -/
theorem mem_opening {c : Char} {kind : Kind} {slashes : Bool} (member : c ∈ opening kind slashes) :
    c = '(' ∨ c ∈ ['S', 'R', 'C', 'M', 'F', '/'] := by
  have letters : opening kind slashes ⊆ ['(', 'S', 'R', 'C', 'M', 'F', '/'] := by
    cases kind <;> cases slashes <;> simp [opening, Kind.letter]
  exact List.mem_cons.1 (letters member)

theorem parenthesis_mem_opening (kind : Kind) (slashes : Bool) : '(' ∈ opening kind slashes := by
  cases kind <;> cases slashes <;> decide

/-- An opener ends in its parenthesis, so a text without one cannot complete it. -/
theorem opening_prefix_of_append_eq {kind : Kind} {slashes : Bool} {front name rest : List Char}
    (noParenthesis : '(' ∉ name) (same : opening kind slashes ++ rest = front ++ name) :
    opening kind slashes <+: front := by
  rcases List.append_eq_append_iff.1 same with ⟨missing, frontEq, -⟩ | ⟨missing, openingEq, nameEq⟩
  · exact ⟨missing, frontEq.symm⟩
  · -- What the front lacks of the opener stands at the start of the name.
    cases missing using List.reverseRecOn with
    | nil => exact ⟨[], by simpa using openingEq⟩
    | append_singleton missing last =>
      have lastEq := congrArg List.getLast? openingEq
      simp only [opening, ← List.append_assoc, List.getLast?_concat] at lastEq
      have isLast : '(' = last := by
        cases kind <;> cases slashes <;> simpa using lastEq
      refine absurd ?_ noParenthesis
      rw [nameEq, isLast]
      simp

/-! ## Passing over the front of a text -/

/-- Whether no opener starts in the front of a text. -/
def Skips (front back : List Char) : Prop :=
  ∀ part, part ≠ [] → part <:+ front → opener? (part ++ back) = none

theorem Skips.of_append {front middle back : List Char} (skips : Skips (front ++ middle) back) :
    Skips front (middle ++ back) := by
  intro part nonempty isSuffix
  obtain ⟨skipped, rfl⟩ := isSuffix
  have none := skips (part ++ middle) (by simp [nonempty]) ⟨skipped, by simp⟩
  rwa [List.append_assoc] at none

theorem findFrom_of_skips {front back : List Char} (skips : Skips front back) (seen : List Char) :
    findFrom seen (front ++ back) = findFrom (front.reverse ++ seen) back := by
  induction front generalizing seen with
  | nil => rfl
  | cons c front ih =>
    have here := skips (c :: front) (by simp) List.suffix_rfl
    rw [List.cons_append] at here
    -- What is skipped with the first character is skipped without it.
    have later : Skips front back := by
      intro part nonempty isSuffix
      exact skips part nonempty (isSuffix.trans (List.suffix_cons c front))
    rw [List.cons_append, findFrom, here]
    simp only
    rw [ih later]
    simp

/-- What is found is found at the first opener. -/
theorem findFrom_eq_some {seen text : List Char} {result : Except Nat Occurrence}
    (found : findFrom seen text = some result) :
    ∃ front kind slashes rest, text = front ++ (opening kind slashes ++ rest) ∧
      Skips front (opening kind slashes ++ rest) ∧
      atOpener (front.reverse ++ seen) kind slashes rest = result := by
  induction text generalizing seen with
  | nil => cases found
  | cons c text ih =>
    rw [findFrom] at found
    split at found
    · next kind slashes rest isOpener =>
      refine ⟨[], kind, slashes, rest, opener?_eq_some_iff.1 isOpener, ?_, Option.some.inj found⟩
      intro part nonempty isSuffix
      exact absurd (List.suffix_nil.1 isSuffix) nonempty
    · next noOpener =>
      obtain ⟨front, kind, slashes, rest, rfl, skips, result⟩ := ih found
      refine ⟨c :: front, kind, slashes, rest, rfl, ?_, by simpa using result⟩
      intro part nonempty isSuffix
      rcases List.suffix_cons_iff.1 isSuffix with rfl | inFront
      · exact noOpener
      · exact skips part nonempty inFront

/-! ## Parentheses -/

/-- Whether a text never closes more parentheses than it has opened and `depth` others. -/
def StaysOpen (depth : Nat) (text : List Char) : Prop :=
  ∀ front, front <+: text → front.count ')' ≤ front.count '(' + depth

theorem StaysOpen.nil (depth : Nat) : StaysOpen depth [] := by
  intro front isPrefix
  simp [List.prefix_nil.1 isPrefix]

/-- A character that closes no parenthesis, or not the last open one, leaves the others open. -/
theorem StaysOpen.cons {c : Char} {depth rest : Nat} {text : List Char}
    (stays : StaysOpen rest text)
    (counts : rest + (if c = ')' then 1 else 0) ≤ depth + if c = '(' then 1 else 0) :
    StaysOpen depth (c :: text) := by
  intro front isPrefix
  cases front with
  | nil => simp
  | cons d front =>
    obtain ⟨rfl, inText⟩ := List.cons_prefix_cons.1 isPrefix
    have := stays front inText
    simp only [List.count_cons, beq_iff_eq]
    omega

/-- A parenthesis is closed where all those inside have been closed. -/
theorem closeFrom_eq_some {read text body after : List Char} {depth : Nat}
    (closed : closeFrom read depth text = some (body, after)) :
    ∃ inside, body = read.reverse ++ inside ∧ text = inside ++ ')' :: after ∧
      inside.count ')' = inside.count '(' + depth ∧ StaysOpen depth inside := by
  induction text generalizing read depth with
  | nil => cases closed
  | cons c text ih =>
    -- What is behind the first character is closed with one parenthesis more or less.
    have moved {rest : Nat} (closed : closeFrom (c :: read) rest text = some (body, after))
        (counts : rest + (if c = ')' then 1 else 0) = depth + if c = '(' then 1 else 0) :
        ∃ inside, body = read.reverse ++ inside ∧ c :: text = inside ++ ')' :: after ∧
          inside.count ')' = inside.count '(' + depth ∧ StaysOpen depth inside := by
      obtain ⟨inside, bodyEq, textEq, same, stays⟩ := ih closed
      refine ⟨c :: inside, by simpa using bodyEq, by rw [textEq, List.cons_append], ?_,
        stays.cons counts.le⟩
      simp only [List.count_cons, beq_iff_eq]
      omega
    unfold closeFrom at closed
    split at closed
    · next isOpening => exact moved closed (by simp [isOpening])
    · next notOpening =>
      split at closed
      · next isClosing =>
        cases depth with
        | zero =>
          cases closed
          exact ⟨[], by simp, by simp [isClosing], rfl, .nil 0⟩
        | succ depth => exact moved closed (by simp [isClosing])
      · next notClosing => exact moved closed (by simp [notOpening, notClosing])

/-! ## Taking an occurrence apart -/

/-- The mark in front of an opener that selects a mode. -/
def Mode.mark : Mode → List Char
  | .simple => []
  | .advanced => ['A']

theorem Instruction.spell_eq (i : Instruction) :
    i.spell = i.mode.mark ++ (opening i.kind i.slashes ++ (i.body ++ [')'])) := by
  obtain ⟨mode, kind, slashes, body⟩ := i
  cases mode <;> cases slashes <;> simp [spell, Mode.mark, opening]

theorem atOpener_eq_ok {seen rest : List Char} {kind : Kind} {slashes : Bool} {o : Occurrence}
    (run : atOpener seen kind slashes rest = .ok o) :
    seen.reverse = o.before ++ o.instruction.mode.mark ∧
      opening kind slashes ++ rest =
        opening o.instruction.kind o.instruction.slashes ++
          (o.instruction.body ++ ')' :: o.after) := by
  unfold atOpener at run
  cases closed : closeFrom [] 0 rest with
  | none =>
    simp only [closed] at run
    cases run
  | some parts =>
    obtain ⟨body, after⟩ := parts
    obtain ⟨inside, rfl, rfl, -, -⟩ := closeFrom_eq_some closed
    simp only [closed] at run
    cases run
    refine ⟨?_, rfl⟩
    split <;> simp [Mode.mark]

/-- An occurrence splits its text, and no opener starts before it. -/
theorem find_eq_ok {text : List Char} {o : Occurrence} (found : find text = some (.ok o)) :
    text = o.before ++ (o.instruction.spell ++ o.after) ∧
      Skips o.before (o.instruction.spell ++ o.after) := by
  obtain ⟨front, kind, slashes, rest, rfl, skips, run⟩ := findFrom_eq_some found
  obtain ⟨frontEq, restEq⟩ := atOpener_eq_ok run
  rw [List.append_nil, List.reverse_reverse] at frontEq
  have spelling : o.instruction.mode.mark ++ (opening kind slashes ++ rest) =
      o.instruction.spell ++ o.after := by
    rw [restEq, Instruction.spell_eq]
    simp
  subst frontEq
  rw [← spelling]
  exact ⟨List.append_assoc .., skips.of_append⟩

/-- What stands behind an occurrence has fewer opening parentheses than the text. -/
theorem count_after_lt {text : List Char} {o : Occurrence} (found : find text = some (.ok o)) :
    o.after.count '(' < text.count '(' := by
  have one : 0 < o.instruction.spell.count '(' := by
    rw [List.count_pos_iff, Instruction.spell_eq]
    simp [parenthesis_mem_opening]
  rw [(find_eq_ok found).1, List.count_append, List.count_append]
  omega

/-! ## Inert texts -/

/-- What is found in a text, as it is found when more text is put in front of it. -/
def behind (front : List Char) : Except Nat Occurrence → Except Nat Occurrence
  | .ok o => .ok { o with before := front ++ o.before }
  | .error start => .error (Utf8.size front + start)

theorem atOpener_append {seen : List Char} (unmarked : seen.head? ≠ some 'A')
    (inner : List Char) (kind : Kind) (slashes : Bool) (rest : List Char) :
    atOpener (inner ++ seen) kind slashes rest =
      behind seen.reverse (atOpener inner kind slashes rest) := by
  unfold atOpener
  cases inner with
  | nil =>
    -- The mark of the advanced mode would have to be the last character seen.
    cases seen with
    | nil => cases closeFrom [] 0 rest <;> simp [behind, Utf8.size]
    | cons c seen =>
      have isUnmarked : c ≠ 'A' := by simpa using unmarked
      cases closeFrom [] 0 rest <;> simp [behind, isUnmarked, Utf8.size]
  | cons c inner =>
    by_cases isMark : c = 'A'
    · subst isMark
      cases closeFrom [] 0 rest <;> simp [behind, Utf8.size_append]
    · cases closeFrom [] 0 rest <;> simp [behind, isMark, Utf8.size_append]

theorem findFrom_append {seen : List Char} (unmarked : seen.head? ≠ some 'A')
    (inner text : List Char) :
    findFrom (inner ++ seen) text = (findFrom inner text).map (behind seen.reverse) := by
  induction text generalizing inner with
  | nil => rfl
  | cons c text ih =>
    rw [findFrom, findFrom]
    split
    · rw [atOpener_append unmarked]
      rfl
    · exact ih (c :: inner)

/-- A text that does not join with anything that follows it. -/
structure Inert (front : List Char) : Prop where
  unmarked : front.getLast? ≠ some 'A'
  skips : ∀ back, Skips front back

theorem Inert.find {front : List Char} (inert : Inert front) (back : List Char) :
    find (front ++ back) = (find back).map (behind front) := by
  have unmarked : front.reverse.head? ≠ some 'A' := by
    rw [List.head?_reverse]
    exact inert.unmarked
  have moved := findFrom_append unmarked [] back
  rw [List.reverse_reverse] at moved
  rw [Lookup.find, findFrom_of_skips (inert.skips back), List.append_nil]
  exact moved

theorem Inert.nil : Inert [] where
  unmarked := nofun
  skips _ _ nonempty isSuffix := absurd (List.suffix_nil.1 isSuffix) nonempty

theorem Inert.append {front middle : List Char} (first : Inert front) (second : Inert middle) :
    Inert (front ++ middle) where
  unmarked := by
    rw [List.getLast?_append]
    cases last : middle.getLast? with
    | none => simpa using first.unmarked
    | some c => simpa [last] using second.unmarked
  skips := by
    intro back part nonempty isSuffix
    obtain ⟨skipped, same⟩ := isSuffix
    rcases List.append_eq_append_iff.1 same with ⟨rest, frontEq, partEq⟩ | ⟨rest, -, middleEq⟩
    · -- The part starts in the front and goes on through the middle.
      by_cases empty : rest = []
      · subst empty
        rw [List.nil_append] at partEq
        subst partEq
        exact second.skips back _ nonempty List.suffix_rfl
      · rw [partEq, List.append_assoc]
        exact first.skips (middle ++ back) rest empty ⟨skipped, frontEq.symm⟩
    · exact second.skips back part nonempty ⟨rest, middleEq.symm⟩

/-- A text that no opener can reach into from behind, nor out of. -/
structure IsSealed (name : List Char) : Prop where
  nonempty : name ≠ []
  noParenthesis : '(' ∉ name
  last : ∀ c ∈ name.getLast?, c ∉ ['A', 'S', 'R', 'C', 'M', 'F', '/']

/-- An opener that starts in a text with a sealed end ends in that text. -/
theorem IsSealed.opening_prefix {before name part back rest : List Char} {kind : Kind}
    {slashes : Bool} (isSealed : IsSealed name) (nonempty : part ≠ [])
    (isSuffix : part <:+ before ++ name) (opens : part ++ back = opening kind slashes ++ rest) :
    opening kind slashes <+: part := by
  rcases List.append_eq_append_iff.1 opens with ⟨beyond, openingEq, -⟩ | ⟨within, partEq, -⟩
  · -- An opener that goes beyond the text would go through its last character.
    obtain ⟨skipped, same⟩ := isSuffix
    have lasts := congrArg List.getLast? same
    rw [List.getLast?_append_of_ne_nil _ nonempty,
      List.getLast?_append_of_ne_nil _ isSealed.nonempty] at lasts
    have isLast := List.getLast?_eq_some_getLast nonempty
    generalize part.getLast nonempty = last at isLast
    have inName : name.getLast? = some last := lasts.symm.trans isLast
    have inOpening : last ∈ opening kind slashes := by
      rw [openingEq]
      exact List.mem_append_left _ (List.mem_of_getLast? isLast)
    rcases mem_opening inOpening with isParenthesis | isLetter
    · subst isParenthesis
      exact absurd (List.mem_of_getLast? inName) isSealed.noParenthesis
    · exact absurd (List.mem_cons_of_mem _ isLetter) (isSealed.last last inName)
  · exact ⟨within, partEq.symm⟩

/-- What stands before the first instruction is inert once a sealed text follows it. -/
theorem IsSealed.inert {before back name : List Char} (isSealed : IsSealed name)
    (skips : Skips before back) : Inert (before ++ name) := by
  constructor
  case unmarked =>
    intro isMark
    rw [List.getLast?_append_of_ne_nil _ isSealed.nonempty] at isMark
    exact isSealed.last 'A' isMark (List.mem_cons_self ..)
  case skips =>
    intro other part nonempty isSuffix
    by_contra found
    obtain ⟨⟨kind, slashes, rest⟩, isOpener⟩ := Option.ne_none_iff_exists'.1 found
    have opens := opener?_eq_some_iff.1 isOpener
    obtain ⟨within, rfl⟩ := isSealed.opening_prefix nonempty isSuffix opens
    -- The parenthesis of the opener is not in the name, so all of the opener stands before it.
    obtain ⟨skipped, same⟩ := isSuffix
    rcases List.append_eq_append_iff.1 same with ⟨start, rfl, startEq⟩ | ⟨inName, -, nameEq⟩
    · obtain ⟨tail, rfl⟩ := opening_prefix_of_append_eq isSealed.noParenthesis startEq
      have opened : opener? (opening kind slashes ++ tail ++ back) = none :=
        skips _ (by simp [opening]) (List.suffix_append ..)
      rw [List.append_assoc, opener?_eq_some_iff.2 rfl] at opened
      cases opened
    · have parenthesis := List.mem_append_left within (parenthesis_mem_opening kind slashes)
      exact isSealed.noParenthesis (nameEq ▸ List.mem_append_right _ parenthesis)

end Lookup

end Relabel
