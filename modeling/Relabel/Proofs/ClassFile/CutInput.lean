import Relabel.ClassFile.Basic
import Relabel.Proofs.ClassFile.AttributeLayout

/-!
# Cut and continued input

A class file is read from left to right, and nothing is decided by bytes that have not been read
yet. So a reader that takes a value off some input takes the same value off the bytes that it has
used, whatever follows them, and when these bytes are cut short the first thing that it notices is
that they end.

Readers of nested values have a bound on their depth, and the bound of a whole file is its number of
bytes, which changes when the file is cut or continued. Two readers with different bounds are
therefore compared: running out of depth is reported as the end of the input, too, so a smaller
bound does no harm to what is said of cut input.
-/

namespace Relabel

namespace ClassFile

namespace Reader

variable {α β : Type} {deep : Prop}

theorem bind_of_ok {first : Reader α} {next : α → Reader β} {input rest : Bytes} {value : α}
    (taken : first input = .ok (value, rest)) : (first >>= next) input = next value rest := by
  show (first input >>= fun taken => next taken.1 taken.2) = _
  rw [taken]
  rfl

theorem bind_of_error {first : Reader α} {next : α → Reader β} {input : Bytes} {fault : Fault}
    (failed : first input = .error fault) : (first >>= next) input = .error fault := by
  show (first input >>= fun taken => next taken.1 taken.2) = _
  rw [failed]
  rfl

/-- A reader treats the bytes `used` as those of `value`: it takes the value off them whatever
follows, unless it does not read deep enough and gives up, and it notices when they end early. -/
structure Follows (later : Reader α) (deep : Prop) (used : Bytes) (value : α) : Prop where
  whole : deep → ∀ more, later (used ++ more) = .ok (value, more)
  wholeOrEnd : ∀ more,
    later (used ++ more) = .ok (value, more) ∨ later (used ++ more) = .error .unexpectedEnd
  cut : ∀ {front missing}, used = front ++ missing → missing ≠ [] →
    later front = .error .unexpectedEnd

/-- Whatever bytes the first reader uses for a value, the later one treats them as those of the same
value. -/
def Prompt (deep : Prop) (first later : Reader α) : Prop :=
  ∀ input value rest, first input = .ok (value, rest) →
    ∃ used, input = used ++ rest ∧ Follows later deep used value

/-! ## Sequences -/

theorem Follows.bind {later : Reader α} {next : α → Reader β} {used used' : Bytes} {value : α}
    {result : β} (first : Follows later deep used value)
    (second : Follows (next value) deep used' result) :
    Follows (later >>= next) deep (used ++ used') result where
  whole enough more := by
    rw [List.append_assoc, bind_of_ok (first.whole enough _)]
    exact second.whole enough more
  wholeOrEnd more := by
    rw [List.append_assoc]
    rcases first.wholeOrEnd (used' ++ more) with taken | ended
    · rw [bind_of_ok taken]
      exact second.wholeOrEnd more
    · exact .inr (bind_of_error ended)
  cut := by
    intro front missing split nonempty
    -- Input that ends behind the bytes of the first value leaves some of the second one.
    have behind (part : Bytes) (usedEq : used' = part ++ missing) :
        (later >>= next) (used ++ part) = .error .unexpectedEnd := by
      rcases first.wholeOrEnd part with taken | ended
      · rw [bind_of_ok taken]
        exact second.cut usedEq nonempty
      · exact bind_of_error ended
    rcases List.append_eq_append_iff.1 split with ⟨part, rfl, usedEq⟩ | ⟨part, usedEq, missingEq⟩
    · exact behind part usedEq
    · by_cases none : part = []
      · subst none
        rw [List.append_nil] at usedEq
        subst usedEq
        simpa using behind [] (by simpa using missingEq.symm)
      · exact bind_of_error (first.cut usedEq none)

theorem Prompt.bind {first later : Reader α} {next next' : α → Reader β}
    (front : Prompt deep first later) (back : ∀ value, Prompt deep (next value) (next' value)) :
    Prompt deep (first >>= next) (later >>= next') := by
  intro input result rest taken
  obtain ⟨value, middle, firstTaken, nextTaken⟩ := bind_eq_ok.1 taken
  obtain ⟨used, rfl, firstFollows⟩ := front _ _ _ firstTaken
  obtain ⟨used', rfl, nextFollows⟩ := back value _ _ _ nextTaken
  exact ⟨used ++ used', by simp, firstFollows.bind nextFollows⟩

/-- A value that is there without any input. -/
theorem Follows.of_noInput {later : Reader α} {value : α}
    (whole : deep → ∀ more, later more = .ok (value, more))
    (wholeOrEnd : ∀ more, later more = .ok (value, more) ∨ later more = .error .unexpectedEnd) :
    Follows later deep [] value where
  whole := whole
  wholeOrEnd := wholeOrEnd
  cut split nonempty := absurd (List.append_eq_nil_iff.1 split.symm).2 nonempty

theorem prompt_pure (value : α) : Prompt deep (pure value) (pure value) := by
  intro input found rest taken
  obtain ⟨rfl, rfl⟩ := pure_eq_ok.1 taken
  exact ⟨[], rfl, .of_noInput (fun _ _ => rfl) fun _ => .inl rfl⟩

theorem prompt_throw (fault : Fault) (later : Reader α) : Prompt deep (throw fault) later :=
  fun _ _ _ taken => absurd taken throw_ne_ok

/-- Something computed apart from the input, where the later reader may give up. -/
theorem prompt_lift {made later : Except Fault α}
    (whole : ∀ value, made = .ok value → deep → later = .ok value)
    (wholeOrEnd : ∀ value, made = .ok value → later = .ok value ∨ later = .error .unexpectedEnd) :
    Prompt deep (liftM made) (liftM later) := by
  intro input value rest taken
  obtain ⟨isMade, rfl⟩ := lift_eq_ok.1 taken
  refine ⟨[], rfl, .of_noInput (fun enough _ => ?_) fun _ => ?_⟩
  · rw [whole value isMade enough]
    rfl
  · rcases wholeOrEnd value isMade with same | ended
    · rw [same]
      exact .inl rfl
    · rw [ended]
      exact .inr rfl

/-! ## Numbers, bytes and tables -/

/-- A reader of a number of bytes that refuses fewer of them. -/
theorem Follows.of_length {later : Reader α} {used : Bytes} {value : α}
    (whole : ∀ more, later (used ++ more) = .ok (value, more))
    (short : ∀ front : Bytes, front.length < used.length → later front = .error .unexpectedEnd) :
    Follows later deep used value where
  whole _ := whole
  wholeOrEnd more := .inl (whole more)
  cut := by
    intro front missing split nonempty
    have positive := List.length_pos_iff.2 nonempty
    exact short front (by rw [split, List.length_append]; omega)

theorem prompt_u1 : Prompt deep u1 u1 := by
  intro input value rest taken
  refine ⟨_, u1_eq_ok.1 taken, .of_length (fun more => u1_eq_ok.2 rfl) fun front short => ?_⟩
  match front with
  | [] => rfl
  | _ :: _ => simp at short

theorem prompt_u2 : Prompt deep u2 u2 := by
  intro input value rest taken
  refine ⟨_, u2_eq_ok.1 taken, .of_length (fun more => u2_eq_ok.2 rfl) fun front short => ?_⟩
  match front with
  | [] | [_] => rfl
  | _ :: _ :: _ => simp at short

theorem prompt_u4 : Prompt deep u4 u4 := by
  intro input value rest taken
  refine ⟨_, u4_eq_ok.1 taken, .of_length (fun more => u4_eq_ok.2 rfl) fun front short => ?_⟩
  match front with
  | [] | [_] | [_, _] | [_, _, _] => rfl
  | _ :: _ :: _ :: _ :: _ =>
    simp only [Layout.length_u4, List.length_cons] at short
    omega

theorem prompt_u8 : Prompt deep u8 u8 :=
  prompt_u4.bind fun _ => prompt_u4.bind fun _ => prompt_pure _

theorem prompt_bytes (count : Nat) : Prompt deep (bytes count) (bytes count) := by
  intro input content rest taken
  obtain ⟨size, inputEq⟩ := bytes_eq_ok.1 taken
  refine ⟨content, inputEq, .of_length (fun more => bytes_eq_ok.2 ⟨size, rfl⟩) fun front short => ?_⟩
  unfold bytes
  split
  · next parts split =>
    obtain ⟨frontSize, rfl⟩ := Bytes.splitExact?_eq_some_iff.1 split
    simp only [List.length_append] at short
    omega
  · rfl

theorem prompt_manyFrom {entry later : Reader α} (prompt : Prompt deep entry later)
    (found : List α) (count : Nat) :
    Prompt deep (manyFrom entry found count) (manyFrom later found count) := by
  induction count generalizing found with
  | zero => exact prompt_pure found.reverse
  | succ count ih =>
    have step (read : Reader α) : manyFrom read found (count + 1) =
        read >>= fun value => manyFrom read (value :: found) count := by
      funext input
      rw [manyFrom]
      cases taken : read input with
      | error fault => rw [bind_of_error taken]
      | ok parts => rw [bind_of_ok taken]
    rw [step, step]
    exact prompt.bind fun value => ih (value :: found)

theorem prompt_table {entry later : Reader α} (prompt : Prompt deep entry later) :
    Prompt deep (table entry) (table later) :=
  prompt_u2.bind fun _ => prompt_manyFrom prompt [] _

/-! ## Depth -/

theorem Prompt.imp {deep' : Prop} {first later : Reader α} (prompt : Prompt deep first later)
    (enough : deep' → deep) : Prompt deep' first later := by
  intro input value rest taken
  obtain ⟨used, inputEq, follows⟩ := prompt _ _ _ taken
  exact ⟨used, inputEq, fun isDeep => follows.whole (enough isDeep), follows.wholeOrEnd, follows.cut⟩

/-- Readers with a bound on the depth, where each level only adds to the one below and the last one
gives up, follow each other at all depths. -/
theorem prompt_of_depths {read : Nat → Reader α} (last : read 0 = throw .unexpectedEnd)
    (next : ∀ depth, (∀ depth', Prompt (depth ≤ depth') (read depth) (read depth')) →
      ∀ depth', Prompt (depth ≤ depth') (read (depth + 1)) (read (depth' + 1)))
    (depth depth' : Nat) : Prompt (depth ≤ depth') (read depth) (read depth') := by
  induction depth generalizing depth' with
  | zero =>
    rw [last]
    exact prompt_throw _ _
  | succ depth ih =>
    cases depth' with
    | succ depth' => exact (next depth ih depth').imp Nat.le_of_succ_le_succ
    | zero =>
      -- The later reader gives up at once, so all that is needed is what the first one uses.
      intro input value rest taken
      obtain ⟨used, inputEq, -⟩ := next depth ih depth _ _ _ taken
      rw [last]
      exact ⟨used, inputEq, fun enough => absurd enough (by omega), fun _ => .inr rfl,
        fun _ _ => rfl⟩

end Reader

open Reader

/-! ## The parts of a class file -/

section

variable {deep : Prop}

theorem Constant.prompt_readContent (tag : UInt8) :
    Prompt deep (readContent tag) (readContent tag) := by
  unfold readContent
  split
  case h_1 => exact prompt_u2.bind fun _ => (prompt_bytes _).bind fun _ => prompt_pure _
  case h_2 | h_3 => exact prompt_u4.bind fun _ => prompt_pure _
  case h_4 | h_5 => exact prompt_u8.bind fun _ => prompt_pure _
  case h_6 | h_7 | h_13 | h_16 | h_17 => exact prompt_u2.bind fun _ => prompt_pure _
  case h_8 | h_9 | h_10 | h_11 | h_14 | h_15 =>
    exact prompt_u2.bind fun _ => prompt_u2.bind fun _ => prompt_pure _
  case h_12 => exact prompt_u1.bind fun _ => prompt_u2.bind fun _ => prompt_pure _
  case h_18 => exact prompt_throw _ _

theorem Pool.prompt_fill (count fuel : Nat) (pool : Pool) :
    Prompt deep (fill count fuel pool) (fill count fuel pool) := by
  induction fuel generalizing pool with
  | zero => exact prompt_pure pool
  | succ fuel ih =>
    have step : fill count (fuel + 1) pool =
        if pool.size < count then
          Constant.read >>= fun constant => fill count fuel (pool.append constant)
        else pure pool := by
      funext input
      rw [fill]
      split
      · cases taken : Constant.read input with
        | error fault => rw [bind_of_error taken]
        | ok parts => rw [bind_of_ok taken]
      · rfl
    rw [step]
    split
    · exact (prompt_u1.bind Constant.prompt_readContent).bind fun _ => ih _
    · exact prompt_pure pool

theorem Pool.prompt_read : Prompt deep read read := by
  refine prompt_u2.bind fun count => (prompt_fill _ _ _).bind fun pool => ?_
  split
  · exact prompt_pure pool
  · exact prompt_throw _ _

theorem AnnotationEntry.prompt_readWith {value later : Reader ElementValue}
    (prompt : Prompt deep value later) : Prompt deep (readWith value) (readWith later) := by
  have element : Prompt deep (do return (← u2, ← value)) (do return (← u2, ← later)) :=
    prompt_u2.bind fun _ => prompt.bind fun _ => prompt_pure _
  exact prompt_u2.bind fun _ => (prompt_table element).bind fun _ => prompt_pure _

theorem ElementValue.prompt_read (depth depth' : Nat) :
    Prompt (depth ≤ depth') (read depth) (read depth') := by
  refine prompt_of_depths rfl (fun depth inside depth' => ?_) depth depth'
  refine prompt_u1.bind fun tag => ?_
  split
  · exact prompt_u2.bind fun _ => prompt_pure _
  · split
    · exact prompt_u2.bind fun _ => prompt_u2.bind fun _ => prompt_pure _
    · exact prompt_u2.bind fun _ => prompt_pure _
    · exact (AnnotationEntry.prompt_readWith (inside depth')).bind fun _ => prompt_pure _
    · exact (prompt_table (inside depth')).bind fun _ => prompt_pure _
    · exact prompt_throw _ _

theorem Code.prompt_readWith {entry later : Reader Attribute} (prompt : Prompt deep entry later) :
    Prompt deep (readWith entry) (readWith later) := by
  have handler : Prompt deep Handler.read Handler.read :=
    prompt_u2.bind fun _ => prompt_u2.bind fun _ => prompt_u2.bind fun _ => prompt_u2.bind fun _ =>
      prompt_pure _
  exact prompt_u2.bind fun _ => prompt_u2.bind fun _ => prompt_u4.bind fun _ =>
    (prompt_bytes _).bind fun _ => (prompt_table handler).bind fun _ =>
      (prompt_table prompt).bind fun _ => prompt_pure _

end

namespace AttributeBody

variable {depth depth' : Nat} {entry later : Reader Attribute}

/-- The name selects the same kind of reader at all depths. -/
theorem prompt_reader? (prompt : Prompt (depth ≤ depth') entry later) {name : String}
    {read : Reader AttributeBody} (found : reader? depth entry name = some read) :
    ∃ read', reader? depth' later name = some read' ∧ Prompt (depth ≤ depth') read read' := by
  unfold reader? at found ⊢
  split at found <;> cases found
  · exact ⟨_, rfl, prompt_u2.bind fun _ => prompt_pure _⟩
  · exact ⟨_, rfl, (Code.prompt_readWith prompt).bind fun _ => prompt_pure _⟩
  · have annotation : Prompt (depth ≤ depth') (AnnotationEntry.read depth)
        (AnnotationEntry.read depth') :=
      AnnotationEntry.prompt_readWith (ElementValue.prompt_read depth depth')
    exact ⟨_, rfl, (prompt_table annotation).bind fun _ => prompt_pure _⟩
  · exact ⟨_, rfl, prompt_u2.bind fun _ => prompt_u2.bind fun _ => prompt_pure _⟩
  · have innerClass : Prompt (depth ≤ depth') InnerClass.read InnerClass.read :=
      prompt_u2.bind fun _ => prompt_u2.bind fun _ => prompt_u2.bind fun _ =>
        prompt_u2.bind fun _ => prompt_pure _
    exact ⟨_, rfl, (prompt_table innerClass).bind fun _ => prompt_pure _⟩
  · have bootstrapMethod : Prompt (depth ≤ depth') BootstrapMethod.read BootstrapMethod.read :=
      prompt_u2.bind fun _ => (prompt_table prompt_u2).bind fun _ => prompt_pure _
    exact ⟨_, rfl, (prompt_table bootstrapMethod).bind fun _ => prompt_pure _⟩

theorem follows_ofBytes (prompt : Prompt (depth ≤ depth') entry later) {name : String}
    {content : Bytes} {body : AttributeBody} (made : ofBytes depth entry name content = .ok body) :
    (depth ≤ depth' → ofBytes depth' later name content = .ok body) ∧
      (ofBytes depth' later name content = .ok body ∨
        ofBytes depth' later name content = .error .unexpectedEnd) := by
  unfold ofBytes at made
  split at made
  · next kept =>
    cases made
    have kept' : reader? depth' later name = none :=
      reader?_eq_none_iff.2 (reader?_eq_none_iff.1 kept)
    simp [ofBytes, kept']
  · next read found =>
    obtain ⟨read', found', prompt⟩ := prompt_reader? prompt found
    split at made
    · cases made
    · next taken =>
      cases made
      obtain ⟨used, contentEq, follows⟩ := prompt _ _ _ taken
      rw [List.append_nil] at contentEq
      subst contentEq
      -- The body is all of the content, so nothing stands behind it.
      have whole := fun enough => follows.whole enough []
      have wholeOrEnd := follows.wholeOrEnd []
      rw [List.append_nil] at whole wholeOrEnd
      unfold ofBytes
      rw [found']
      refine ⟨fun enough => by simp only [whole enough], ?_⟩
      rcases wholeOrEnd with taken | ended
      · exact .inl (by simp only [taken])
      · exact .inr (by simp only [ended])
    · cases made

end AttributeBody

theorem Attribute.prompt_read (pool : Pool) (depth depth' : Nat) :
    Prompt (depth ≤ depth') (read pool depth) (read pool depth') := by
  refine prompt_of_depths rfl (fun depth inside depth' => ?_) depth depth'
  refine prompt_u2.bind fun name => prompt_u4.bind fun size => (prompt_bytes _).bind fun content => ?_
  refine Prompt.bind (prompt_lift (fun _ made _ => made) fun _ made => .inl made) fun text => ?_
  refine Prompt.bind (prompt_lift (fun body made => ?_) fun body made => ?_) fun _ => prompt_pure _
  · exact (AttributeBody.follows_ofBytes (inside depth') made).1
  · exact (AttributeBody.follows_ofBytes (inside depth') made).2

theorem Member.prompt_read (pool : Pool) (depth depth' : Nat) :
    Prompt (depth ≤ depth') (read pool depth) (read pool depth') :=
  prompt_u2.bind fun _ => prompt_u2.bind fun _ => prompt_u2.bind fun _ =>
    (prompt_table (Attribute.prompt_read pool depth depth')).bind fun _ => prompt_pure _

theorem prompt_read (depth depth' : Nat) : Prompt (depth ≤ depth') (read depth) (read depth') := by
  refine prompt_u4.bind fun first => ?_
  split
  · intro input file rest taken
    obtain ⟨_, _, thrown, -⟩ := bind_eq_ok.1 taken
    exact absurd thrown throw_ne_ok
  · have members (pool : Pool) : Prompt (depth ≤ depth') (table (Member.read pool depth))
        (table (Member.read pool depth')) :=
      prompt_table (Member.prompt_read pool depth depth')
    have attributes (pool : Pool) : Prompt (depth ≤ depth') (Attribute.readTable pool depth)
        (Attribute.readTable pool depth') :=
      prompt_table (Attribute.prompt_read pool depth depth')
    exact prompt_u2.bind fun _ => prompt_u2.bind fun _ =>
      Pool.prompt_read.bind fun pool => prompt_u2.bind fun _ => prompt_u2.bind fun _ =>
        prompt_u2.bind fun _ => (prompt_table prompt_u2).bind fun _ => (members pool).bind fun _ =>
          (members pool).bind fun _ => (attributes pool).bind fun _ => prompt_pure _

/-- **Cut and continued class files.** When bytes can be parsed, what is left of them after a cut
ends unexpectedly wherever the cut is, and what is put behind them is left over, all of it. -/
theorem parse_cut_or_continued {bytes : Bytes} {file : ClassFile}
    (parsed : parse bytes = .ok file) :
    (∀ front, front <+: bytes → front ≠ bytes → parse front = .error .unexpectedEnd) ∧
      ∀ more, more ≠ [] → parse (bytes ++ more) = .error (.trailingBytes more.length) := by
  have taken : read bytes.length bytes = .ok (file, []) := by
    unfold parse at parsed
    split at parsed
    · cases parsed
    · next taken =>
      cases parsed
      exact taken
    · cases parsed
  constructor
  · rintro front ⟨missing, rfl⟩ isCut
    obtain ⟨used, usedEq, follows⟩ := prompt_read _ front.length _ _ _ taken
    rw [List.append_nil] at usedEq
    have nonempty : missing ≠ [] := fun none => isCut (by simp [none])
    simp only [parse, follows.cut usedEq.symm nonempty]
  · intro more nonempty
    obtain ⟨used, usedEq, follows⟩ := prompt_read _ (bytes ++ more).length _ _ _ taken
    rw [List.append_nil] at usedEq
    subst usedEq
    have whole := follows.whole (by simp) more
    unfold parse
    cases more with
    | nil => exact absurd rfl nonempty
    | cons byte rest => simp only [whole]

/-- A class file with a field whose constant value has a name and a length of its own, cut inside of
that attribute, and with two bytes behind it. -/
theorem field_cut_or_continued :
    let bytes := [0xCA, 0xFE, 0xBA, 0xBE, 0, 0, 0, 52, 0, 3, 1, 0, 13] ++
      Utf8.encode "ConstantValue" ++ [3, 0, 0, 0, 7, 0, 33, 0, 0, 0, 0, 0, 0, 0, 1, 0, 8, 0, 0, 0, 0,
        0, 1, 0, 1, 0, 0, 0, 2, 0, 2, 0, 0, 0, 0]
    (∃ file, parse bytes = .ok file) ∧ parse (bytes.take 55) = .error .unexpectedEnd ∧
      parse (bytes ++ [0, 1]) = .error (.trailingBytes 2) := by
  intro bytes
  have parsed : ∃ file, parse bytes = .ok file := ⟨_, rfl⟩
  obtain ⟨file, isFile⟩ := parsed
  obtain ⟨cut, continued⟩ := parse_cut_or_continued isFile
  exact ⟨⟨file, isFile⟩, cut _ (List.take_prefix 55 bytes) (by decide), continued [0, 1] nofun⟩

end ClassFile

end Relabel
