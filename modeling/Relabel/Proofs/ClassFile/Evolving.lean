import Relabel.Proofs.ClassFile.AttributeLayout
import Relabel.Proofs.ClassFile.PoolEdits

/-!
# Well-formedness in evolving pools

When a pool evolves, its wide entries and its unusable slots stay where they are, its new texts are
short enough to be written, and names of attributes decode to what they were.
-/

namespace Relabel.ClassFile

theorem Constant.IsAddition.layout_fits {constant : Constant} (added : constant.IsAddition) :
    constant.layout.Fits := by
  cases constant with
  | text bytes =>
    have short : bytes.length ≤ 65535 := added
    simpa [layout, Part.limit] using short
  | string text => simp [layout]
  | _ => cases added

namespace Pool

/-- Every entry of the later pool stood there before or is of a kind that is added. -/
theorem Evolves.getElem?_cases {old new : Pool} (evolves : Evolves old new) {index : Nat}
    {constant : Constant} (found : new.slots[index]? = some constant) :
    old.slots[index]? = some constant ∨ constant.IsAddition := by
  cases earlier : old.slots[index]? with
  | none => exact .inr (evolves.added (Array.getElem?_eq_none_iff.1 earlier) found)
  | some slot =>
    cases isString : slot.isString with
    | false =>
      rw [evolves.kept earlier isString] at found
      exact .inl found
    | true =>
      -- A string that has been redirected is a string still.
      cases slot <;> cases isString
      obtain ⟨other, laterString⟩ := evolves.string earlier
      rw [laterString] at found
      cases found
      exact .inr trivial

theorem Evolves.getElem?_iff {old new : Pool} (evolves : Evolves old new) {index : Nat}
    {constant : Constant} (notAdded : ¬ constant.IsAddition) :
    new.slots[index]? = some constant ↔ old.slots[index]? = some constant := by
  constructor
  · intro found
    exact (evolves.getElem?_cases found).resolve_right notAdded
  · intro found
    have notString : constant.isString = false := by
      cases constant with
      | string text => exact absurd trivial notAdded
      | _ => rfl
    exact evolves.kept found notString

theorem Evolves.wellFormed {old new : Pool} (evolves : Evolves old new)
    (wellFormed : old.WellFormed) : new.WellFormed := by
  intro index
  have unusable := wellFormed index
  rw [evolves.getElem?_iff id, unusable]
  -- Wide entries are neither texts nor strings, so they have not moved either.
  have wide {previous : Nat} {constant : Constant} (isWide : constant.isWide) :
      new.slots[previous]? = some constant ↔ old.slots[previous]? = some constant := by
    cases constant with
    | long | double => exact evolves.getElem?_iff id
    | _ => cases isWide
  constructor
  · rintro (first | ⟨previous, constant, next, found, isWide⟩)
    · exact .inl first
    · exact .inr ⟨previous, constant, next, (wide isWide).2 found, isWide⟩
  · rintro (first | ⟨previous, constant, next, found, isWide⟩)
    · exact .inl first
    · exact .inr ⟨previous, constant, next, (wide isWide).1 found, isWide⟩

theorem Evolves.layout_fits {old new : Pool} (evolves : Evolves old new) (fits : old.layout.Fits) :
    new.layout.Fits := by
  rw [layout, Layout.fits_table] at fits ⊢
  obtain ⟨bounded, constantsFit⟩ := fits
  refine ⟨evolves.bounded bounded, ?_⟩
  intro constant member
  obtain ⟨index, found⟩ := List.mem_iff_getElem?.1 member
  rw [Array.getElem?_toList] at found
  rcases evolves.getElem?_cases found with earlier | added
  · rw [← Array.getElem?_toList] at earlier
    exact constantsFit constant (List.mem_of_getElem? earlier)
  · exact added.layout_fits

end Pool

mutual

theorem Attribute.WellFormed.later {old new : Pool} (evolves : Pool.Evolves old new) :
    ∀ {entry : Attribute}, entry.WellFormed old → entry.WellFormed new
  | ⟨_, _⟩, .mk decoded named inside => .mk (evolves.text decoded) named (inside.later evolves)
termination_by entry => sizeOf entry

theorem AttributeBody.WellFormed.later {old new : Pool} (evolves : Pool.Evolves old new) :
    ∀ {body : AttributeBody}, body.WellFormed old → body.WellFormed new
  | .constantValue _, _ => .constantValue
  | .code ⟨_, _, _, _, attributes⟩, .code inside => .code fun entry member =>
    have _smaller := List.sizeOf_lt_of_mem (show entry ∈ attributes from member)
    (inside entry member).later evolves
  | .annotations _, .annotations inside => .annotations inside
  | .enclosingMethod .., _ => .enclosingMethod
  | .innerClasses _, _ => .innerClasses
  | .bootstrapMethods _, _ => .bootstrapMethods
  | .raw _, _ => .raw
termination_by body => sizeOf body

end

end Relabel.ClassFile
