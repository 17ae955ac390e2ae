import Relabel.Proofs.ClassFile.Evolving
import Relabel.Proofs.ClassFile.PoolTexts

/-!
# Runs of edits of a pool

Any edits may follow each other, and each may fail, halfway even. What an edit leaves then is what a
part of it has appended. So a pool that has once been made stays *sound*: it has no more slots than
there are indexes, and only the slots that must be are unusable. Whatever an index means in it, it
means in all later pools, up to redirected strings.
-/

namespace Relabel.ClassFile.Pool

/-! ## Sound pools -/

/-- There are no more slots than indexes, and the unusable ones are in place. -/
structure Sound (pool : Pool) : Prop where
  bounded : pool.size ≤ 65535
  wellFormed : pool.WellFormed

/-- A pool to start from: the empty one, or one that has been read. -/
inductive IsMade : Pool → Prop
  | empty : IsMade .empty
  | read {input rest : Bytes} {pool : Pool} (taken : Pool.read input = .ok (pool, rest)) :
      IsMade pool

theorem IsMade.sound {pool : Pool} (made : pool.IsMade) : pool.Sound := by
  cases made with
  | empty => exact ⟨by decide, empty_wellFormed⟩
  | read taken =>
    obtain ⟨wellFormed, -, count, sizeEq, -⟩ := read_sound taken
    have small := count.toNat_lt
    exact ⟨by omega, wellFormed⟩

theorem Sound.append {pool : Pool} (sound : pool.Sound) {constant : Constant}
    (usable : constant ≠ .unusable)
    (room : pool.size + (if constant.isWide then 2 else 1) ≤ 65535) :
    (pool.append constant).Sound where
  bounded := by
    refine Nat.le_trans (Nat.le_of_eq ?_) room
    rw [Pool.append]
    split <;> simp [size]
  wellFormed := append_wellFormed sound.wellFormed usable

/-! ## Extending -/

/-- All entries stay as they are, and a sound pool stays sound. -/
structure Extends (old new : Pool) : Prop where
  kept : ∀ {index : Nat} {constant : Constant}, old.slots[index]? = some constant →
    new.slots[index]? = some constant
  sound : old.Sound → new.Sound

theorem Extends.refl (pool : Pool) : Extends pool pool := ⟨id, id⟩

theorem Extends.trans {old middle new : Pool} (first : Extends old middle)
    (second : Extends middle new) : Extends old new where
  kept found := second.kept (first.kept found)
  sound isSound := second.sound (first.sound isSound)

section

variable {old new : Pool} {index : UInt16} (extending : Extends old new)

include extending

theorem Extends.get {constant : Constant} (found : old.get index = .ok constant) :
    new.get index = .ok constant := by
  rw [get_eq_ok_iff] at found ⊢
  exact ⟨extending.kept found.1, found.2⟩

theorem Extends.text {value : String} (read : old.text index = .ok value) :
    new.text index = .ok value :=
  text_of_kept (fun found _ => extending.get found) read

theorem Extends.className {name : String} (read : old.className index = .ok name) :
    new.className index = .ok name :=
  className_of_kept (fun found _ => extending.get found) read

end

theorem append_extends {pool : Pool} {constant : Constant} (usable : constant ≠ .unusable)
    (room : pool.size + (if constant.isWide then 2 else 1) ≤ 65535) :
    Extends pool (pool.append constant) where
  kept found := by
    have inside := (Array.getElem?_eq_some_iff.1 found).1
    rw [getElem?_append_of_lt inside, found]
  sound isSound := isSound.append usable room

/-! ## What an edit leaves -/

/-- The pool that an edit leaves is so related to the pool before it, whether it fails or not. -/
def Leaves {α : Type} (related : Pool → Pool → Prop) (edit : Edit α) : Prop :=
  ∀ pool, related pool (edit pool).2

theorem Leaves.of_run {α : Type} {related : Pool → Pool → Prop} {edit : Edit α}
    (leaves : Leaves related edit) {pool after : Pool} {result : Except Fault α}
    (isRun : edit pool = (result, after)) : related pool after := by
  have left := leaves pool
  rw [isRun] at left
  exact left

/-- What is left by both of two edits is left by one after the other: if the first one fails, its
pool is the one that is left. -/
theorem Leaves.bind {α β : Type} {related : Pool → Pool → Prop}
    (trans : ∀ ⦃old middle new⦄, related old middle → related middle new → related old new)
    {first : Edit α} {next : α → Edit β} (leaves : Leaves related first)
    (nextLeaves : ∀ found, Leaves related (next found)) : Leaves related (first >>= next) := by
  intro pool
  rw [Editing.bind_eq]
  split
  · next found middle isRun => exact trans (leaves.of_run isRun) (nextLeaves found middle)
  · next fault middle isRun => exact leaves.of_run isRun

section

variable {related : Pool → Pool → Prop}
  (trans : ∀ ⦃old middle new⦄, related old middle → related middle new → related old new)
  (pushLeaves : ∀ constant, constant ≠ .unusable → (∀ bytes, constant ≠ .text bytes) →
    Leaves related (push constant))
  (textLeaves : ∀ value, Leaves related (addText value))

include trans pushLeaves textLeaves

theorem addClass_leaves (name : String) : Leaves related (addClass name) :=
  .bind trans (textLeaves name) fun _ => pushLeaves _ nofun nofun

theorem addString_leaves (value : String) : Leaves related (addString value) :=
  .bind trans (textLeaves value) fun _ => pushLeaves _ nofun nofun

theorem addMethodRef_leaves (owner name descriptor : String) :
    Leaves related (addMethodRef owner name descriptor) :=
  .bind trans (addClass_leaves trans pushLeaves textLeaves owner) fun _ =>
    .bind trans (textLeaves name) fun _ =>
      .bind trans (textLeaves descriptor) fun _ =>
        .bind trans (pushLeaves _ nofun nofun) fun _ => pushLeaves _ nofun nofun

end

theorem push_extends {constant : Constant} (usable : constant ≠ .unusable) :
    Leaves Extends (push constant) := by
  intro pool
  obtain ⟨room, pushed⟩ | full := push_cases constant pool
  · rw [pushed]
    exact append_extends usable room
  · rw [full]
    exact .refl pool

theorem addText_extends (value : String) : Leaves Extends (addText value) := by
  intro pool
  obtain ⟨fault, failed⟩ | ⟨position, -, reused⟩ | ⟨-, -, room, appended⟩ := addText_cases value pool
  · rw [failed]
    exact .refl pool
  · rw [reused]
    exact .refl pool
  · have usable : Constant.text (ModifiedUtf8.encode value) ≠ .unusable := nofun
    rw [appended]
    exact append_extends usable room

theorem addClass_extends (name : String) : Leaves Extends (addClass name) :=
  addClass_leaves (fun _ _ _ => .trans) (fun _ usable _ => push_extends usable) addText_extends name

/-! ## What the index of an edit means -/

section

variable {pool after : Pool} {index : UInt16}

theorem get_of_push {constant : Constant} (usable : constant ≠ .unusable)
    (pushed : push constant pool = (.ok index, after)) : after.get index = .ok constant := by
  obtain ⟨room, isPushed⟩ | full := push_cases constant pool
  · have room : pool.size < 65535 := by
      split at room <;> omega
    rw [isPushed] at pushed
    cases pushed
    exact get_append usable room
  · rw [full] at pushed
    cases pushed

theorem Sound.text_of_addText (sound : pool.Sound) {value : String}
    (added : addText value pool = (.ok index, after)) : after.text index = .ok value :=
  text_of_encode ((addText_eq_ok added).2.2 sound.bounded)

/-- An entry that is put behind its text refers to it. -/
theorem Sound.get_behind_text (sound : pool.Sound) {value : String} {entryOf : UInt16 → Constant}
    (usable : ∀ text, entryOf text ≠ .unusable)
    (added : (addText value >>= fun text => push (entryOf text)) pool = (.ok index, after)) :
    ∃ text, after.get index = .ok (entryOf text) ∧ after.text text = .ok value := by
  obtain ⟨text, middle, named, pushed⟩ := Editing.bind_eq_ok.1 added
  exact ⟨text, get_of_push (usable text) pushed,
    ((push_extends (usable text)).of_run pushed).text (sound.text_of_addText named)⟩

theorem Sound.className_of_addClass (sound : pool.Sound) {name : String}
    (added : addClass name pool = (.ok index, after)) : after.className index = .ok name :=
  className_eq_ok_iff.2 (sound.get_behind_text (fun _ => nofun) added)

theorem Sound.string_of_addString (sound : pool.Sound) {value : String}
    (added : addString value pool = (.ok index, after)) : after.string index = .ok value :=
  string_eq_ok_iff.2 (sound.get_behind_text (fun _ => nofun) added)

/-- A reference to a method means what its class, its name and its type mean. -/
theorem member_of_methodRef {classIndex pair nameIndex typeIndex : UInt16}
    {owner name descriptor : String}
    (isRef : pool.get index = .ok (.memberRef .method classIndex pair))
    (isPair : pool.get pair = .ok (.nameAndType nameIndex typeIndex))
    (isOwner : pool.className classIndex = .ok owner) (isName : pool.text nameIndex = .ok name)
    (isType : pool.text typeIndex = .ok descriptor) :
    pool.member index = .ok ⟨owner, name, descriptor⟩ := by
  simp only [member, isRef, isPair, isOwner, isName, isType, bind, Except.bind, pure, Except.pure]

theorem Sound.member_of_addMethodRef (sound : pool.Sound) {owner name descriptor : String}
    (added : addMethodRef owner name descriptor pool = (.ok index, after)) :
    after.member index = .ok ⟨owner, name, descriptor⟩ := by
  obtain ⟨classIndex, withClass, classAdded, added⟩ := Editing.bind_eq_ok.1 added
  obtain ⟨nameIndex, withName, nameAdded, added⟩ := Editing.bind_eq_ok.1 added
  obtain ⟨typeIndex, withType, typeAdded, added⟩ := Editing.bind_eq_ok.1 added
  obtain ⟨pair, withPair, pairPushed, pushed⟩ := Editing.bind_eq_ok.1 added
  have usablePair : Constant.nameAndType nameIndex typeIndex ≠ .unusable := nofun
  have usableRef : Constant.memberRef .method classIndex pair ≠ .unusable := nofun
  have toClass := (addClass_extends owner).of_run classAdded
  have toName := (addText_extends name).of_run nameAdded
  have isOwner := sound.className_of_addClass classAdded
  have isName := (toClass.sound sound).text_of_addText nameAdded
  have isType := (toName.sound (toClass.sound sound)).text_of_addText typeAdded
  -- Each pool extends the one before, so that what an index means in one it means in the last.
  have fromPair := (push_extends usableRef).of_run pushed
  have fromType := ((push_extends usablePair).of_run pairPushed).trans fromPair
  have fromName := ((addText_extends descriptor).of_run typeAdded).trans fromType
  exact member_of_methodRef (get_of_push usableRef pushed)
    (fromPair.get (get_of_push usablePair pairPushed))
    ((toName.trans fromName).className isOwner) (fromName.text isName) (fromType.text isType)

end

/-! ## Steps -/

/-- An edit with what is given to it. -/
inductive Step
  | push (constant : Constant)
  | addText (text : String)
  | addClass (name : String)
  | addString (value : String)
  | addMethodRef (owner name descriptor : String)
  | redirect (index text : UInt16)
  deriving DecidableEq, Repr

/-- The pool behind a step, whether it fails or not. -/
def Step.next (pool : Pool) : Step → Pool
  | .push constant => (Pool.push constant pool).2
  | .addText text => (Pool.addText text pool).2
  | .addClass name => (Pool.addClass name pool).2
  | .addString value => (Pool.addString value pool).2
  | .addMethodRef owner name descriptor => (Pool.addMethodRef owner name descriptor pool).2
  | .redirect index text => (Pool.redirect index text pool).2

/-- The text that the string with an index is made to refer to by a step. -/
def Step.target? (index : UInt16) (pool : Pool) : Step → Option UInt16
  | .redirect string text =>
    if string = index ∧ (Pool.redirect string text pool).1.isOk then some text else none
  | _ => none

/-- The pool behind steps that follow each other. -/
def run (steps : List Step) (pool : Pool) : Pool := steps.foldl Step.next pool

/-- The text that the string with an index is last made to refer to by some steps. -/
def target? (index : UInt16) : List Step → Pool → Option UInt16
  | [], _ => none
  | step :: steps, pool => (target? index steps (step.next pool)).or (step.target? index pool)

/-- An entry of an earlier pool is there still, but for the text that it is made to refer to. -/
def Keeps (pool : Pool) (index : UInt16) (constant : Constant) : Option UInt16 → Prop
  | none => pool.get index = .ok constant
  | some text => constant.isString ∧ pool.get index = .ok (.string text) ∧
      ∃ bytes, pool.get text = .ok (.text bytes)

/-- A string is redirected, or the pool stays as it is. -/
theorem redirect_cases (index text : UInt16) (pool : Pool) :
    (∃ after, redirect index text pool = (.ok (), after)) ∨
      ∃ fault, redirect index text pool = (.error fault, pool) := by
  unfold redirect
  split
  · split
    · exact .inl ⟨_, rfl⟩
    · exact .inr ⟨_, rfl⟩
  · exact .inr ⟨_, rfl⟩

/-- What the edits of a pool leave, a step leaves. -/
theorem Step.related_next {step : Step} (related : Pool → Pool → Prop)
    (trans : ∀ ⦃old middle new⦄, related old middle → related middle new → related old new)
    (pushLeaves : ∀ constant, constant ≠ .unusable → (∀ bytes, constant ≠ .text bytes) →
      Leaves related (Pool.push constant))
    (textLeaves : ∀ value, Leaves related (Pool.addText value))
    (pushed : ∀ constant, step = .push constant → Leaves related (Pool.push constant))
    (redirected : ∀ index text, step = .redirect index text →
      Leaves related (Pool.redirect index text)) (pool : Pool) : related pool (step.next pool) := by
  cases step with
  | push constant => exact pushed constant rfl pool
  | addText text => exact textLeaves text pool
  | addClass name => exact addClass_leaves trans pushLeaves textLeaves name pool
  | addString value => exact addString_leaves trans pushLeaves textLeaves value pool
  | addMethodRef owner name descriptor =>
    exact addMethodRef_leaves trans pushLeaves textLeaves owner name descriptor pool
  | redirect index text => exact redirected index text rfl pool

section

variable {pool : Pool} {step : Step}

/-- All steps but redirections only add to a pool. -/
theorem Step.extends_next (usable : step ≠ .push .unusable)
    (additive : ∀ index text, step ≠ .redirect index text) : Extends pool (step.next pool) := by
  refine step.related_next Extends (fun _ _ _ => .trans) (fun _ usable _ => push_extends usable)
    addText_extends ?_ (fun index text isRedirect => absurd isRedirect (additive index text)) pool
  rintro constant rfl
  exact push_extends fun isUnusable => usable (by rw [isUnusable])

theorem Step.sound_next (usable : step ≠ .push .unusable) (sound : pool.Sound) :
    (step.next pool).Sound := by
  cases step with
  | redirect index text =>
    obtain ⟨after, moved⟩ | ⟨fault, failed⟩ := redirect_cases index text pool
    · rw [next, moved]
      exact ⟨(size_redirect moved).trans_le sound.bounded,
        (redirect_evolves moved).wellFormed sound.wellFormed⟩
    · rw [next, failed]
      exact sound
  | _ => exact (extends_next usable nofun).sound sound

theorem Step.distinctTexts_next (noText : ∀ bytes, step ≠ .push (.text bytes))
    (distinct : pool.DistinctTexts) : (step.next pool).DistinctTexts := by
  refine step.related_next (fun old new => old.DistinctTexts → new.DistinctTexts)
    (fun _ _ _ first second distinct => second (first distinct))
    (fun _ _ notText _ distinct => distinct.push notText)
    (fun value _ distinct => distinct.addText value) ?_ ?_ pool distinct
  · rintro constant rfl pool distinct
    exact distinct.push fun bytes isText => noText bytes (by rw [isText])
  · intro index text _ pool distinct
    obtain ⟨after, moved⟩ | ⟨fault, failed⟩ := redirect_cases index text pool
    · rw [moved]
      exact distinct.redirect moved
    · rw [failed]
      exact distinct

/-- An entry is kept by a step, but for the string that is redirected. -/
theorem Step.keeps_next {index : UInt16} {constant : Constant} (usable : step ≠ .push .unusable)
    (found : pool.get index = .ok constant) :
    Keeps (step.next pool) index constant (step.target? index pool) := by
  cases step with
  | redirect string text =>
    obtain ⟨after, moved⟩ | ⟨fault, failed⟩ := redirect_cases string text pool
    · rw [next, target?, moved]
      obtain ⟨⟨bytes, isText⟩, ⟨other, isString⟩, -⟩ := redirect_eq_ok_iff.1 moved
      by_cases here : string = index
      · subst here
        rw [isString] at found
        cases found
        -- The text is another entry than the string, so that it is where it was.
        have elsewhere : text ≠ string := by
          rintro rfl
          rw [isString] at isText
          cases isText
        simp only [Except.isOk, Except.toBool, and_self, if_true]
        exact ⟨rfl, get_redirect moved, bytes, (get_redirect_of_ne moved elsewhere).trans isText⟩
      · simp only [here, false_and, if_false]
        exact (get_redirect_of_ne moved (Ne.symm here)).trans found
    · rw [next, target?, failed]
      simpa [Except.isOk, Except.toBool, Keeps] using found
  | _ => exact (extends_next usable nofun).get found

end

/-! ## Runs -/

theorem Keeps.get_of_not_string {pool : Pool} {index : UInt16} {constant : Constant}
    {target? : Option UInt16} (keeps : Keeps pool index constant target?)
    (notString : constant.isString = false) : pool.get index = .ok constant := by
  cases target? with
  | none => exact keeps
  | some text =>
    rw [keeps.1] at notString
    cases notString

theorem run_sound {steps : List Step} {pool : Pool}
    (usable : ∀ step ∈ steps, step ≠ .push .unusable) (sound : pool.Sound) :
    (run steps pool).Sound := by
  induction steps generalizing pool with
  | nil => exact sound
  | cons step steps ih =>
    rw [List.forall_mem_cons] at usable
    exact ih usable.2 (Step.sound_next usable.1 sound)

theorem run_distinctTexts {steps : List Step} {pool : Pool}
    (noText : ∀ step ∈ steps, ∀ bytes, step ≠ .push (.text bytes))
    (distinct : pool.DistinctTexts) : (run steps pool).DistinctTexts := by
  induction steps generalizing pool with
  | nil => exact distinct
  | cons step steps ih =>
    rw [List.forall_mem_cons] at noText
    exact ih noText.2 (Step.distinctTexts_next noText.1 distinct)

theorem run_keeps {steps : List Step} {pool : Pool} {index : UInt16} {constant : Constant}
    (usable : ∀ step ∈ steps, step ≠ .push .unusable) (found : pool.get index = .ok constant) :
    Keeps (run steps pool) index constant (target? index steps pool) := by
  induction steps generalizing pool index constant with
  | nil => exact found
  | cons step steps ih =>
    rw [List.forall_mem_cons] at usable
    have here := Step.keeps_next usable.1 found
    show Keeps (run steps (step.next pool)) index constant
      ((target? index steps (step.next pool)).or (step.target? index pool))
    cases isTarget : step.target? index pool with
    | none =>
      rw [isTarget] at here
      rw [Option.or_none]
      exact ih usable.2 here
    | some text =>
      rw [isTarget] at here
      obtain ⟨isString, moved, bytes, isText⟩ := here
      have later := ih usable.2 moved
      -- The string keeps the text of this step, unless a later one redirects it again.
      cases again : target? index steps (step.next pool) with
      | none =>
        rw [again] at later
        exact ⟨isString, later, bytes, (ih usable.2 isText).get_of_not_string rfl⟩
      | some other =>
        rw [again] at later
        exact ⟨isString, later.2⟩

/-- **Indexes last.** Take any steps from the empty pool or from one that has been read, failing or
not. The pool behind them has at most 65535 slots, and the unusable ones are the first one and those
behind wide entries. Each entry is kept by all further steps, but for the strings that are made to
refer to other texts. What has been added is what its index gives. And if no two texts were equal,
none are, unless texts have been pushed. -/
theorem IsMade.run_invariants {start : Pool} (made : start.IsMade) {steps more : List Step}
    (usable : ∀ step ∈ steps ++ more, step ≠ .push .unusable) :
    let pool := run steps start
    pool.size ≤ 65535 ∧ pool.WellFormed ∧
      (∀ index constant, pool.get index = .ok constant →
        Keeps (run more pool) index constant (target? index more pool)) ∧
      (∀ text index after, addText text pool = (.ok index, after) → after.text index = .ok text) ∧
      (∀ name index after, addClass name pool = (.ok index, after) →
        after.className index = .ok name) ∧
      (∀ value index after, addString value pool = (.ok index, after) →
        after.string index = .ok value) ∧
      (∀ owner name descriptor index after,
        addMethodRef owner name descriptor pool = (.ok index, after) →
        after.member index = .ok ⟨owner, name, descriptor⟩) ∧
      (start.DistinctTexts → (∀ step ∈ steps, ∀ bytes, step ≠ .push (.text bytes)) →
        pool.DistinctTexts) := by
  intro pool
  rw [List.forall_mem_append] at usable
  have sound : pool.Sound := run_sound usable.1 made.sound
  exact ⟨sound.bounded, sound.wellFormed, fun _ _ found => run_keeps usable.2 found,
    fun _ _ _ => sound.text_of_addText, fun _ _ _ => sound.className_of_addClass,
    fun _ _ _ => sound.string_of_addString, fun _ _ _ _ _ => sound.member_of_addMethodRef,
    fun distinct noText => run_distinctTexts noText distinct⟩

/-- A string behind its text, a wide entry, and another text that the string is redirected to. -/
theorem run_invariants_of_redirected :
    let steps : List Step := [.addString "a", .push (.long 7), .addText "b"]
    let pool : Pool := ⟨#[.unusable, .text [97], .string 1, .long 7, .unusable, .text [98]]⟩
    run steps .empty = pool ∧ pool.WellFormed ∧ pool.DistinctTexts ∧
      (run [.redirect 2 5] pool).get 2 = .ok (.string 5) ∧
      ∃ after, addText "a" pool = (.ok 1, after) ∧ after.text 1 = .ok "a" := by
  intro steps pool
  have usable : ∀ step ∈ steps ++ [.redirect 2 5], step ≠ .push .unusable := by decide
  have ran : run steps .empty = pool := by decide +kernel
  have noText : ∀ step ∈ steps, ∀ bytes, step ≠ .push (.text bytes) := by
    simp [steps]
  have invariants := IsMade.empty.run_invariants usable
  rw [ran] at invariants
  obtain ⟨-, wellFormed, keeps, isText, -, -, -, distinctTexts⟩ := invariants
  have redirected := keeps 2 (.string 1) (by decide)
  have isTarget : target? 2 [.redirect 2 5] pool = some 5 := by decide +kernel
  rw [isTarget] at redirected
  have added : addText "a" pool = (.ok 1, pool) := Prod.ext (by decide +kernel) (by decide +kernel)
  exact ⟨ran, wellFormed, distinctTexts empty_distinctTexts noText, redirected.2.1, pool, added,
    isText "a" 1 pool added⟩

end Relabel.ClassFile.Pool
