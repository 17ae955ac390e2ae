/-!
# Byte strings

A byte string is a list of bytes. The one operation that the formats of this library need beyond
those of lists is `splitExact?`, which takes a stated number of bytes off the front or refuses.
-/

namespace Relabel

abbrev Bytes := List UInt8

namespace Bytes

/-- Moves `count` bytes from the front of `rest` behind those already `taken`, last one first. -/
def splitFrom (taken : Bytes) : (count : Nat) → (rest : Bytes) → Option (Bytes × Bytes)
  | 0, rest => some (taken.reverse, rest)
  | _ + 1, [] => none
  | count + 1, byte :: rest => splitFrom (byte :: taken) count rest

/-- The first `count` bytes and the rest, or nothing if there are fewer. -/
def splitExact? (count : Nat) (bytes : Bytes) : Option (Bytes × Bytes) :=
  splitFrom [] count bytes

theorem splitFrom_eq_some {taken rest front back : Bytes} {count : Nat}
    (split : splitFrom taken count rest = some (front, back)) :
    ∃ moved, moved.length = count ∧ front = taken.reverse ++ moved ∧ rest = moved ++ back := by
  induction count generalizing taken rest with
  | zero =>
    simp only [splitFrom, Option.some.injEq, Prod.mk.injEq] at split
    exact ⟨[], rfl, by simp [split.1], by simp [split.2]⟩
  | succ count ih =>
    cases rest with
    | nil => simp [splitFrom] at split
    | cons byte rest =>
      obtain ⟨moved, size, frontEq, restEq⟩ := ih (by simpa [splitFrom] using split)
      exact ⟨byte :: moved, by simp [size], by simp [frontEq], by simp [restEq]⟩

theorem splitFrom_append (taken front back : Bytes) :
    splitFrom taken front.length (front ++ back) = some (taken.reverse ++ front, back) := by
  induction front generalizing taken with
  | nil => simp [splitFrom]
  | cons byte front ih => simp [splitFrom, ih]

/-- Splitting succeeds exactly with a front of the stated length. -/
theorem splitExact?_eq_some_iff {bytes front back : Bytes} {count : Nat} :
    splitExact? count bytes = some (front, back) ↔
      front.length = count ∧ bytes = front ++ back := by
  constructor
  · intro split
    obtain ⟨moved, size, frontEq, bytesEq⟩ := splitFrom_eq_some split
    simp only [List.reverse_nil, List.nil_append] at frontEq
    exact ⟨by rw [frontEq, size], by rw [frontEq, bytesEq]⟩
  · rintro ⟨size, rfl⟩
    rw [← size, splitExact?, splitFrom_append]
    simp

end Bytes

end Relabel
