import Relabel.Proofs.ClassFile.PoolEdits

/-!
# Texts of constant pools

A text is looked for by its bytes, which stand for it and for no other text. So a text that a pool
holds already is used again, and a pool without two equal texts stays so, unless a text is appended
without being looked for.
-/

namespace Relabel.ClassFile.Pool

open ModifiedUtf8 (encode decode)

/-! ## Equal texts -/

/-- No two entries are the same text. -/
def DistinctTexts (pool : Pool) : Prop :=
  ∀ ⦃first second : Nat⦄ ⦃bytes : Bytes⦄, pool.slots[first]? = some (.text bytes) →
    pool.slots[second]? = some (.text bytes) → first = second

theorem empty_distinctTexts : empty.DistinctTexts := by
  intro first second bytes isText
  have member := Array.mem_of_getElem? isText
  simp [empty] at member

/-- A text of a pool with one more entry is that entry, or it was there before. -/
theorem text_of_append {pool : Pool} {constant : Constant} {index : Nat} {bytes : Bytes}
    (found : (pool.append constant).slots[index]? = some (.text bytes)) :
    pool.slots[index]? = some (.text bytes) ∨ index = pool.size ∧ constant = .text bytes := by
  have sizeEq : pool.slots.size = pool.size := rfl
  cases isWide : constant.isWide with
  | true =>
    -- The slot behind a wide entry is no text either.
    simp only [append, isWide, if_true, Array.getElem?_push, Array.size_push] at found
    grind
  | false =>
    simp only [append, isWide, Bool.false_eq_true, if_false, Array.getElem?_push] at found
    grind

section

variable {pool : Pool} (distinct : pool.DistinctTexts)

include distinct

theorem DistinctTexts.append {constant : Constant}
    (isNew : ∀ bytes, constant = .text bytes → ∀ index : Nat,
      pool.slots[index]? ≠ some (.text bytes)) :
    (pool.append constant).DistinctTexts := by
  intro first second bytes isFirst isSecond
  rcases text_of_append isFirst with firstOld | ⟨rfl, same⟩
  · rcases text_of_append isSecond with secondOld | ⟨-, same⟩
    · exact distinct firstOld secondOld
    · exact absurd firstOld (isNew bytes same first)
  · rcases text_of_append isSecond with secondOld | ⟨rfl, -⟩
    · exact absurd secondOld (isNew bytes same second)
    · rfl

theorem DistinctTexts.push {constant : Constant} (noText : ∀ bytes, constant ≠ .text bytes) :
    (push constant pool).2.DistinctTexts := by
  obtain ⟨-, pushed⟩ | full := push_cases constant pool
  · rw [pushed]
    exact distinct.append fun bytes isText => absurd isText (noText bytes)
  · rw [full]
    exact distinct

/-- A text is appended only if the pool does not have it. -/
theorem DistinctTexts.addText (value : String) : (addText value pool).2.DistinctTexts := by
  obtain ⟨fault, failed⟩ | ⟨position, -, reused⟩ | ⟨absent, -, -, appended⟩ :=
    addText_cases value pool
  · rw [failed]
    exact distinct
  · rw [reused]
    exact distinct
  · rw [appended]
    refine distinct.append fun bytes isText index => ?_
    cases isText
    exact absent index

theorem DistinctTexts.redirect {index text : UInt16} {after : Pool}
    (moved : redirect index text pool = (.ok (), after)) : after.DistinctTexts := by
  -- What is a text behind the edit is not the redirected string, so that it was there before.
  have wasText {position : Nat} {bytes : Bytes}
      (isText : after.slots[position]? = some (.text bytes)) :
      pool.slots[position]? = some (.text bytes) := by
    rw [getElem?_redirect moved] at isText
    split at isText
    · cases isText
    · exact isText
  intro first second bytes isFirst isSecond
  exact distinct (wasText isFirst) (wasText isSecond)

end

/-! ## Texts used again -/

/-- A text that the pool holds is not appended again. -/
theorem addText_of_held {pool after : Pool} {value : String} {position index : UInt16}
    (held : pool.get position = .ok (.text (encode value)))
    (added : addText value pool = (.ok index, after)) : after = pool := by
  obtain ⟨fault, failed⟩ | ⟨position, -, reused⟩ | ⟨absent, -⟩ := addText_cases value pool
  · rw [failed] at added
    cases added
  · rw [reused] at added
    cases added
    rfl
  · exact absurd (get_eq_ok_iff.1 held).1 (absent position.toNat)

/-- **Texts are told apart by their bytes.** A text comes back from its encoding, which has no zero
byte and none from `F0` up. The encoding of two texts one behind the other is that of the first and
then that of the second, and different texts have different encodings. So the entry of one text is
used again for another one just if they are the same. -/
theorem encode_tells_apart (s t : String) :
    decode (encode s) = some s ∧ (∀ byte ∈ encode s, byte ≠ 0 ∧ byte < 0xF0) ∧
      encode (s ++ t) = encode s ++ encode t ∧ (s ≠ t ↔ encode s ≠ encode t) ∧
      ∀ {pool after : Pool} {position index : UInt16}, pool.size ≤ 65535 →
        pool.get position = .ok (.text (encode t)) → addText s pool = (.ok index, after) →
        (pool.get index = .ok (.text (encode t)) ↔ s = t) := by
  refine ⟨ModifiedUtf8.decode_encode s, fun byte => ModifiedUtf8.mem_encode,
    ModifiedUtf8.encode_append s t, ModifiedUtf8.encode_inj.not.symm, ?_⟩
  intro pool after position index bounded held added
  obtain ⟨grows, -, isText⟩ := addText_eq_ok added
  have given := isText bounded
  constructor
  · intro reused
    have same := (grows.get reused).symm.trans given
    simp only [Except.ok.injEq, Constant.text.injEq] at same
    exact ModifiedUtf8.encode_inj.1 same.symm
  · rintro rfl
    rw [addText_of_held held added] at given
    exact given

/-- A zero character and one beyond the basic plane, each of which has an entry in a pool. -/
theorem encode_tells_apart_of_twoTexts :
    let pool : Pool := ⟨#[.unusable, .text (encode "a\x00"), .text (encode "😀")]⟩
    encode ("a\x00" ++ "😀") = [97, 0xC0, 0x80, 0xED, 0xA0, 0xBD, 0xED, 0xB8, 0x80] ∧
      ∃ index after, addText "😀" pool = (.ok index, after) ∧
        pool.get index ≠ .ok (.text (encode "a\x00")) := by
  intro pool
  obtain ⟨-, -, -, -, tells⟩ := encode_tells_apart "😀" "a\x00"
  have held : pool.get 1 = .ok (.text (encode "a\x00")) := by decide +kernel
  have added : addText "😀" pool = (.ok 2, pool) :=
    Prod.ext (by decide +kernel) (by decide +kernel)
  refine ⟨by decide +kernel, 2, pool, added, fun reused => ?_⟩
  exact absurd ((tells (by decide) held added).1 reused) (by decide)

end Relabel.ClassFile.Pool
