import Relabel.Proofs.Lookup.Finding

/-!
# The grammar of instructions

Which instruction a text has can be said without a search: the first opener counts, a mark in front
of it selects the mode, and the body reaches up to the first parenthesis with which as many have
been closed as opened. The search finds just that.
-/

namespace Relabel.Lookup

/-! ## Parentheses -/

/-- Whether a text closes as many parentheses as it opens. -/
def Balanced (text : List Char) : Prop := text.count '(' = text.count ')'

/-- While a parenthesis stays open, the counts of opening and closing ones do not agree. -/
theorem StaysOpen.not_balanced {text front : List Char} (stays : StaysOpen 0 text)
    (isPrefix : front <+: text) : ¬ Balanced ('(' :: front) := by
  have := stays front isPrefix
  intro balanced
  simp [Balanced] at balanced
  omega

theorem closeFrom_eq_none {read text : List Char} {depth : Nat}
    (unclosed : closeFrom read depth text = none) : StaysOpen depth text := by
  induction text generalizing read depth with
  | nil => exact .nil depth
  | cons c text ih =>
    unfold closeFrom at unclosed
    split at unclosed
    · next isOpening => exact (ih unclosed).cons (by simp [isOpening])
    · next notOpening =>
      split at unclosed
      · next isClosing =>
        cases depth with
        | zero => cases unclosed
        | succ depth => exact (ih unclosed).cons (by simp [isClosing])
      · next notClosing => exact (ih unclosed).cons (by simp [notOpening, notClosing])

/-- The text behind an open parenthesis, cut at the first parenthesis with which the counts of
opening and closing ones agree. -/
structure IsBody (rest body after : List Char) : Prop where
  restEq : rest = body ++ ')' :: after
  balanced : Balanced ('(' :: (body ++ [')']))
  least : ∀ front, front <+: body → ¬ Balanced ('(' :: front)

theorem isBody_of_closeFrom {rest body after : List Char}
    (closed : closeFrom [] 0 rest = some (body, after)) : IsBody rest body after := by
  obtain ⟨inside, bodyEq, restEq, same, stays⟩ := closeFrom_eq_some closed
  rw [List.reverse_nil, List.nil_append] at bodyEq
  subst bodyEq
  refine ⟨restEq, ?_, fun front isPrefix => stays.not_balanced isPrefix⟩
  simp [Balanced, same]

theorem IsBody.closing_prefix {rest body after : List Char} (isBody : IsBody rest body after) :
    body ++ [')'] <+: rest := ⟨after, by simp [isBody.restEq]⟩

/-- Of two bodies of one parenthesis, none is longer than the other. -/
theorem IsBody.length_le {rest body after other behind : List Char}
    (isBody : IsBody rest body after) (isOther : IsBody rest other behind) :
    other.length ≤ body.length := by
  refine Nat.le_of_not_lt fun longer => ?_
  have inOther : body ++ [')'] <+: other := by
    refine List.prefix_of_prefix_length_le isBody.closing_prefix ?_ (by simpa using longer)
    exact ⟨')' :: behind, isOther.restEq.symm⟩
  exact isOther.least _ inOther isBody.balanced

theorem IsBody.unique {rest body after other behind : List Char}
    (isBody : IsBody rest body after) (isOther : IsBody rest other behind) :
    body = other ∧ after = behind := by
  have same := isBody.restEq.symm.trans isOther.restEq
  have lengths : body.length = other.length :=
    Nat.le_antisymm (isOther.length_le isBody) (isBody.length_le isOther)
  obtain ⟨bodyEq, afterEq⟩ := List.append_inj same lengths
  exact ⟨bodyEq, (List.cons.inj afterEq).2⟩

/-! ## Openers and marks -/

/-- The first opener of a text, with the text before it and behind it. -/
structure IsFirstOpener (text front : List Char) (kind : Kind) (slashes : Bool)
    (rest : List Char) : Prop where
  opens : text = front ++ (opening kind slashes ++ rest)
  first : ∀ other kind slashes behind, text = other ++ (opening kind slashes ++ behind) →
    front.length ≤ other.length

theorem opening_inj {kind otherKind : Kind} {slashes otherSlashes : Bool} {rest behind : List Char}
    (same : opening kind slashes ++ rest = opening otherKind otherSlashes ++ behind) :
    kind = otherKind ∧ slashes = otherSlashes ∧ rest = behind := by
  have first := opener?_eq_some_iff.2 same
  rw [opener?_eq_some_iff.2 rfl] at first
  cases first
  exact ⟨rfl, rfl, rfl⟩

theorem IsFirstOpener.unique {text front other rest behind : List Char} {kind otherKind : Kind}
    {slashes otherSlashes : Bool} (isFirst : IsFirstOpener text front kind slashes rest)
    (isOther : IsFirstOpener text other otherKind otherSlashes behind) :
    front = other ∧ kind = otherKind ∧ slashes = otherSlashes ∧ rest = behind := by
  have lengths : front.length = other.length :=
    Nat.le_antisymm (isFirst.first _ _ _ _ isOther.opens) (isOther.first _ _ _ _ isFirst.opens)
  obtain ⟨frontEq, same⟩ := List.append_inj (isFirst.opens.symm.trans isOther.opens) lengths
  exact ⟨frontEq, opening_inj same⟩

/-- No opener starts in a part of the text that is passed over. -/
theorem Skips.length_le {front back other behind : List Char} {kind : Kind} {slashes : Bool}
    (skips : Skips front back)
    (opens : front ++ back = other ++ (opening kind slashes ++ behind)) :
    front.length ≤ other.length := by
  refine Nat.le_of_not_lt fun shorter => ?_
  obtain ⟨part, rfl⟩ : other <+: front := by
    refine List.prefix_of_prefix_length_le ?_ ⟨back, rfl⟩ shorter.le
    exact ⟨_, opens.symm⟩
  have nonempty : part ≠ [] := by
    rintro rfl
    simp at shorter
  rw [List.append_assoc, List.append_cancel_left_eq] at opens
  have none := skips part nonempty (List.suffix_append other part)
  rw [opener?_eq_some_iff.2 opens] at none
  cases none

/-- Where an instruction starts whose opener stands behind some text: one character earlier in the
advanced mode, which is that of the openers behind an `A`. -/
structure IsMarked (front before : List Char) (mode : Mode) : Prop where
  frontEq : front = before ++ mode.mark
  mark : mode = .advanced ↔ front.getLast? = some 'A'

theorem IsMarked.unique {front before other : List Char} {mode otherMode : Mode}
    (isMarked : IsMarked front before mode) (isOther : IsMarked front other otherMode) :
    before = other ∧ mode = otherMode := by
  have modes : mode = .advanced ↔ otherMode = .advanced := isMarked.mark.trans isOther.mark.symm
  have same : mode = otherMode := by
    cases mode <;> cases otherMode <;> simp at modes ⊢
  subst same
  exact ⟨List.append_cancel_right (isMarked.frontEq.symm.trans isOther.frontEq), rfl⟩

/-! ## What a text has -/

/-- What there is to be found in a text. -/
inductive Finds (text : List Char) : Option (Except Nat Occurrence) → Prop
  | nothing
    (noOpener : ∀ front kind slashes rest, text ≠ front ++ (opening kind slashes ++ rest)) :
    Finds text none
  | unclosed {front before rest : List Char} {mode : Mode} {kind : Kind} {slashes : Bool}
    (isFirst : IsFirstOpener text front kind slashes rest) (isMarked : IsMarked front before mode)
    (neverClosed : ∀ inside, inside <+: rest → ¬ Balanced ('(' :: inside)) :
    Finds text (some (.error (Utf8.size before)))
  | instruction {front before rest body after : List Char} {mode : Mode} {kind : Kind}
    {slashes : Bool} (isFirst : IsFirstOpener text front kind slashes rest)
    (isMarked : IsMarked front before mode) (isBody : IsBody rest body after) :
    Finds text (some (.ok ⟨before, ⟨mode, kind, slashes, body⟩, after⟩))

/-- The grammar says of each text what there is to be found in it, and nothing else. -/
theorem Finds.unique {text : List Char} {found other : Option (Except Nat Occurrence)}
    (finds : Finds text found) (findsOther : Finds text other) : found = other := by
  cases finds with
  | nothing noOpener =>
    cases findsOther with
    | nothing => rfl
    | unclosed isFirst => exact absurd isFirst.opens (noOpener _ _ _ _)
    | instruction isFirst => exact absurd isFirst.opens (noOpener _ _ _ _)
  | unclosed isFirst isMarked neverClosed =>
    cases findsOther with
    | nothing noOpener => exact absurd isFirst.opens (noOpener _ _ _ _)
    | unclosed isOther isOtherMarked =>
      obtain ⟨rfl, -, -, -⟩ := isFirst.unique isOther
      rw [(isMarked.unique isOtherMarked).1]
    | instruction isOther isOtherMarked isBody =>
      obtain ⟨-, -, -, rfl⟩ := isFirst.unique isOther
      exact absurd isBody.balanced (neverClosed _ isBody.closing_prefix)
  | instruction isFirst isMarked isBody =>
    cases findsOther with
    | nothing noOpener => exact absurd isFirst.opens (noOpener _ _ _ _)
    | unclosed isOther isOtherMarked neverClosed =>
      obtain ⟨-, -, -, rfl⟩ := isFirst.unique isOther
      exact absurd isBody.balanced (neverClosed _ isBody.closing_prefix)
    | instruction isOther isOtherMarked isOtherBody =>
      obtain ⟨rfl, rfl, rfl, rfl⟩ := isFirst.unique isOther
      obtain ⟨rfl, rfl⟩ := isMarked.unique isOtherMarked
      obtain ⟨rfl, rfl⟩ := isBody.unique isOtherBody
      rfl

/-- Before each opener an instruction starts in one of the modes. -/
theorem exists_isMarked (front : List Char) : ∃ before mode, IsMarked front before mode := by
  cases front using List.reverseRecOn with
  | nil => exact ⟨[], .simple, rfl, by simp⟩
  | append_singleton before c =>
    by_cases isMark : c = 'A'
    · exact ⟨before, .advanced, by rw [isMark, Mode.mark], by simp [isMark]⟩
    · exact ⟨before ++ [c], .simple, by simp [Mode.mark], by simp [isMark]⟩

theorem IsMarked.atOpener_eq {front before : List Char} {mode : Mode}
    (isMarked : IsMarked front before mode) (kind : Kind) (slashes : Bool) (rest : List Char) :
    atOpener front.reverse kind slashes rest =
      ((closeFrom [] 0 rest).map fun parts =>
        (⟨before, ⟨mode, kind, slashes, parts.1⟩, parts.2⟩ : Occurrence)).elim
          (.error (Utf8.size before)) .ok := by
  obtain ⟨frontEq, mark⟩ := isMarked
  unfold atOpener
  cases mode with
  | simple =>
    rw [Mode.mark, List.append_nil] at frontEq
    subst frontEq
    cases reversed : front.reverse with
    | nil =>
      rw [List.reverse_eq_nil_iff.1 reversed]
      cases closeFrom [] 0 rest <;> rfl
    | cons c seen =>
      have unmarked : c ≠ 'A' := by
        rintro rfl
        rw [← List.head?_reverse, reversed] at mark
        simp at mark
      rw [← List.reverse_reverse front, reversed]
      cases closeFrom [] 0 rest <;> simp [unmarked]
  | advanced =>
    rw [frontEq, Mode.mark, List.reverse_append]
    cases closeFrom [] 0 rest <;> simp

theorem findFrom_ne_none (front seen : List Char) (kind : Kind) (slashes : Bool)
    (rest : List Char) : findFrom seen (front ++ (opening kind slashes ++ rest)) ≠ none := by
  induction front generalizing seen with
  | nil =>
    have opens : opener? (opening kind slashes ++ rest) = some (kind, slashes, rest) :=
      opener?_eq_some_iff.2 rfl
    rw [opening, List.cons_append] at opens ⊢
    rw [List.nil_append, findFrom, opens]
    simp
  | cons c front ih =>
    rw [List.cons_append, findFrom]
    split
    · simp
    · exact ih (c :: seen)

/-- The search keeps to the grammar. -/
theorem finds_find (text : List Char) : Finds text (find text) := by
  cases found : find text with
  | none =>
    apply Finds.nothing
    intro front kind slashes rest same
    rw [same] at found
    exact findFrom_ne_none front [] kind slashes rest found
  | some result =>
    obtain ⟨front, kind, slashes, rest, rfl, skips, run⟩ := findFrom_eq_some found
    have isFirst :
        IsFirstOpener (front ++ (opening kind slashes ++ rest)) front kind slashes rest :=
      ⟨rfl, fun _ _ _ _ opens => skips.length_le opens⟩
    obtain ⟨before, mode, isMarked⟩ := exists_isMarked front
    rw [List.append_nil, isMarked.atOpener_eq] at run
    subst run
    cases closed : closeFrom [] 0 rest with
    | none =>
      have stays := closeFrom_eq_none closed
      exact .unclosed isFirst isMarked fun inside isPrefix => stays.not_balanced isPrefix
    | some parts => exact .instruction isFirst isMarked (isBody_of_closeFrom closed)

theorem find_eq_iff {text : List Char} {found : Option (Except Nat Occurrence)} :
    find text = found ↔ Finds text found := by
  constructor
  · intro same
    rw [← same]
    exact finds_find text
  · exact (finds_find text).unique

end Relabel.Lookup
