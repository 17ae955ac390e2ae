import Relabel.ClassFile.Annotation
import Relabel.Proofs.ClassFile.Layout

/-!
# Layouts of annotations

Annotations and values hold each other, so their layouts are defined together. A value is *well
formed* when each constant in it has one of the tags of constants, whatever the nesting.
-/

namespace Relabel.ClassFile

open Layout

mutual

/-- The layout of an annotation. -/
def AnnotationEntry.layout : AnnotationEntry → Layout
  | ⟨type, elements⟩ =>
    u2 type ++ (count .elements elements.length ++ ElementValue.layoutElements elements)

/-- The layout of a value with its tag. -/
def ElementValue.layout : ElementValue → Layout
  | .const tag value => u1 tag ++ u2 value
  | .enumConst type name => u1 101 ++ u2 type ++ u2 name
  | .classInfo descriptor => u1 99 ++ u2 descriptor
  | .nested value => u1 64 ++ AnnotationEntry.layout value
  | .array values => u1 91 ++ (count .array values.length ++ ElementValue.layoutAll values)

/-- The layouts of values, one after the other. -/
def ElementValue.layoutAll : List ElementValue → Layout
  | [] => raw []
  | value :: rest => ElementValue.layout value ++ ElementValue.layoutAll rest

/-- The layouts of elements, one after the other. -/
def ElementValue.layoutElements : List (UInt16 × ElementValue) → Layout
  | [] => raw []
  | (name, value) :: rest =>
    u2 name ++ ElementValue.layout value ++ ElementValue.layoutElements rest

end

/-- The layout of an element with its name. -/
def ElementValue.elementLayout (element : UInt16 × ElementValue) : Layout :=
  u2 element.1 ++ element.2.layout

theorem ElementValue.layoutAll_eq_entries (values : List ElementValue) :
    layoutAll values = entries layout values := by
  induction values with
  | nil => rfl
  | cons value rest ih => rw [layoutAll, entries, ih]

theorem ElementValue.layoutElements_eq_entries (elements : List (UInt16 × ElementValue)) :
    layoutElements elements = entries elementLayout elements := by
  induction elements with
  | nil => rfl
  | cons element rest ih => rw [layoutElements, entries, ih, elementLayout]

theorem AnnotationEntry.layout_eq (entry : AnnotationEntry) :
    entry.layout = u2 entry.type ++ table .elements ElementValue.elementLayout entry.elements := by
  obtain ⟨type, elements⟩ := entry
  rw [layout, ElementValue.layoutElements_eq_entries]
  rfl

theorem ElementValue.layout_array (values : List ElementValue) :
    layout (.array values) = u1 91 ++ table .array layout values := by
  rw [layout, layoutAll_eq_entries]
  rfl

/-! ## Writing -/

mutual

theorem AnnotationEntry.write_eq_emit (entry : AnnotationEntry) (out : Output) :
    AnnotationEntry.write out entry = entry.layout.emit out := by
  obtain ⟨type, elements⟩ := entry
  simp only [AnnotationEntry.write, AnnotationEntry.layout, emit_append, emit_u2,
    emit_count .elements rfl]
  cases Output.count .elements (Output.u2 out type) elements.length with
  | error fault => rfl
  | ok out => exact ElementValue.writeElements_eq_emit elements out

theorem ElementValue.write_eq_emit (value : ElementValue) (out : Output) :
    ElementValue.write out value = value.layout.emit out := by
  cases value with
  | const tag index => simp [ElementValue.write, ElementValue.layout, emit_append]
  | enumConst type name => simp [ElementValue.write, ElementValue.layout, emit_append]
  | classInfo descriptor => simp [ElementValue.write, ElementValue.layout, emit_append]
  | nested entry =>
    simp only [ElementValue.write, ElementValue.layout, emit_append, emit_u1]
    exact AnnotationEntry.write_eq_emit entry _
  | array values =>
    simp only [ElementValue.write, ElementValue.layout, emit_append, emit_u1,
      emit_count .array rfl]
    cases Output.count .array (Output.u1 out 91) values.length with
    | error fault => rfl
    | ok out => exact ElementValue.writeAll_eq_emit values out

theorem ElementValue.writeAll_eq_emit (values : List ElementValue) (out : Output) :
    ElementValue.writeAll out values = (ElementValue.layoutAll values).emit out := by
  match values with
  | [] => simp [ElementValue.writeAll, ElementValue.layoutAll]
  | value :: rest =>
    simp only [ElementValue.writeAll, ElementValue.layoutAll, emit_append,
      ElementValue.write_eq_emit value out]
    cases value.layout.emit out with
    | error fault => rfl
    | ok out => exact ElementValue.writeAll_eq_emit rest out

theorem ElementValue.writeElements_eq_emit (elements : List (UInt16 × ElementValue))
    (out : Output) :
    ElementValue.writeElements out elements = (ElementValue.layoutElements elements).emit out := by
  match elements with
  | [] => simp [ElementValue.writeElements, ElementValue.layoutElements]
  | (name, value) :: rest =>
    simp only [ElementValue.writeElements, ElementValue.layoutElements, emit_append, emit_u2,
      ElementValue.write_eq_emit value (Output.u2 out name)]
    cases value.layout.emit (Output.u2 out name) with
    | error fault => rfl
    | ok out => exact ElementValue.writeElements_eq_emit rest out

end

/-! ## Well-formed values -/

mutual

/-- Every constant in an annotation has the tag of a constant. -/
inductive AnnotationEntry.WellFormed : AnnotationEntry → Prop
  | mk {type : UInt16} {elements : List (UInt16 × ElementValue)}
      (inside : ∀ element ∈ elements, ElementValue.WellFormed element.2) :
      AnnotationEntry.WellFormed ⟨type, elements⟩

/-- Every constant in a value has the tag of a constant. -/
inductive ElementValue.WellFormed : ElementValue → Prop
  | const {tag : UInt8} {value : UInt16} (isTag : ElementValue.isConstTag tag) :
      ElementValue.WellFormed (.const tag value)
  | enumConst {type name : UInt16} : ElementValue.WellFormed (.enumConst type name)
  | classInfo {descriptor : UInt16} : ElementValue.WellFormed (.classInfo descriptor)
  | nested {value : AnnotationEntry} (inside : AnnotationEntry.WellFormed value) :
      ElementValue.WellFormed (.nested value)
  | array {values : List ElementValue}
      (inside : ∀ value ∈ values, ElementValue.WellFormed value) :
      ElementValue.WellFormed (.array values)

end

/-! ## Reading -/

namespace AnnotationEntry

theorem readWith_sound {value : Reader ElementValue}
    (sound : Reader.Sound value ElementValue.WellFormed ElementValue.layout) :
    Reader.Sound (readWith value) WellFormed layout := by
  -- The name of an element is read in front of its value.
  have elementSound : Reader.Sound (do return (← Reader.u2, ← value))
      (fun element => element.2.WellFormed) ElementValue.elementLayout := by
    intro input element rest taken
    simp only [Reader.bind_eq_ok, Reader.pure_eq_ok, Reader.u2_eq_ok] at taken
    obtain ⟨name, _, rfl, found, _, taken, rfl, rfl⟩ := taken
    obtain ⟨wellFormed, fits, rfl⟩ := sound taken
    simp [ElementValue.elementLayout, wellFormed, fits]
  intro input entry rest taken
  simp only [readWith, Reader.bind_eq_ok, Reader.pure_eq_ok, Reader.u2_eq_ok] at taken
  obtain ⟨type, _, rfl, elements, _, taken, rfl, rfl⟩ := taken
  obtain ⟨wellFormed, fits, rfl⟩ := Reader.table_sound .elements rfl elementSound taken
  exact ⟨.mk wellFormed, by simpa only [layout_eq, fits_append, fits_u2, true_and] using fits,
    by simp [layout_eq]⟩

/-- An annotation is read if its values are read that are no longer than the annotation. -/
theorem readWith_complete {value : Reader ElementValue} {depth : Nat}
    (complete : ∀ {found : ElementValue}, found.WellFormed → found.layout.Fits →
      found.layout.bytes.length ≤ depth → Reader.Complete value ElementValue.layout found)
    {entry : AnnotationEntry} (wellFormed : entry.WellFormed) (fits : entry.layout.Fits)
    (enough : entry.layout.bytes.length ≤ depth) : Reader.Complete (readWith value) layout entry := by
  intro rest
  obtain @⟨type, elements, inside⟩ := wellFormed
  rw [layout_eq, fits_append, fits_table] at fits
  have element : ∀ element ∈ elements, Reader.Complete (do return (← Reader.u2, ← value))
      ElementValue.elementLayout element := by
    intro element member rest
    have elementFits := fits.2.2 element member
    have part := length_le_entries ElementValue.elementLayout member
    simp only [layout_eq, table, ElementValue.elementLayout, fits_append, bytes_append,
      List.length_append, length_u2, length_count] at enough part elementFits
    have found := complete (inside element member) elementFits.2 (by omega)
    simp only [Reader.bind_eq_ok, Reader.pure_eq_ok, Reader.u2_eq_ok, ElementValue.elementLayout,
      bytes_append, List.append_assoc]
    exact ⟨_, _, rfl, _, _, found rest, rfl, rfl⟩
  have elementsRead := Reader.table_complete .elements fits.2.1 element
  simp only [readWith, Reader.bind_eq_ok, Reader.pure_eq_ok, Reader.u2_eq_ok, layout_eq,
    bytes_append, List.append_assoc]
  exact ⟨_, _, rfl, _, _, elementsRead rest, rfl, rfl⟩

end AnnotationEntry

theorem ElementValue.read_sound (depth : Nat) : Reader.Sound (read depth) WellFormed layout := by
  induction depth with
  | zero => exact fun taken => absurd taken Reader.throw_ne_ok
  | succ depth ih =>
    intro input value rest taken
    simp only [read, Reader.bind_eq_ok, Reader.u1_eq_ok] at taken
    obtain ⟨tag, _, rfl, taken⟩ := taken
    split at taken
    · next isTag =>
      simp only [Reader.bind_eq_ok, Reader.pure_eq_ok, Reader.u2_eq_ok] at taken
      obtain ⟨index, _, rfl, rfl, rfl⟩ := taken
      exact ⟨.const isTag, by simp [layout], by simp [layout]⟩
    split at taken
    · simp only [Reader.bind_eq_ok, Reader.pure_eq_ok, Reader.u2_eq_ok] at taken
      obtain ⟨type, _, rfl, name, _, rfl, rfl, rfl⟩ := taken
      exact ⟨.enumConst, by simp [layout], by simp [layout]⟩
    · simp only [Reader.bind_eq_ok, Reader.pure_eq_ok, Reader.u2_eq_ok] at taken
      obtain ⟨descriptor, _, rfl, rfl, rfl⟩ := taken
      exact ⟨.classInfo, by simp [layout], by simp [layout]⟩
    · simp only [Reader.bind_eq_ok, Reader.pure_eq_ok] at taken
      obtain ⟨entry, _, taken, rfl, rfl⟩ := taken
      obtain ⟨wellFormed, fits, rfl⟩ := AnnotationEntry.readWith_sound ih taken
      exact ⟨.nested wellFormed, by simp [layout, fits], by simp [layout]⟩
    · simp only [Reader.bind_eq_ok, Reader.pure_eq_ok] at taken
      obtain ⟨values, _, taken, rfl, rfl⟩ := taken
      obtain ⟨wellFormed, fits, rfl⟩ := Reader.table_sound .array rfl ih taken
      have fits : (layout (.array values)).Fits := by
        simpa only [layout_array, fits_append, fits_u1, true_and] using fits
      exact ⟨.array wellFormed, fits, by simp [layout_array]⟩
    · exact absurd taken Reader.throw_ne_ok

/-- Each level of nesting takes at least a byte, so the number of bytes is depth enough. -/
theorem ElementValue.read_complete {depth : Nat} {value : ElementValue}
    (wellFormed : value.WellFormed) (fits : value.layout.Fits)
    (enough : value.layout.bytes.length ≤ depth) : Reader.Complete (read depth) layout value := by
  induction depth generalizing value with
  | zero => cases wellFormed <;> simp [layout] at enough
  | succ depth ih =>
    intro rest
    simp only [read, Reader.bind_eq_ok, Reader.u1_eq_ok]
    cases wellFormed with
    | const isTag =>
      simp only [layout, bytes_append, List.append_assoc]
      refine ⟨_, _, rfl, ?_⟩
      simp only [isTag, if_true, Reader.bind_eq_ok, Reader.pure_eq_ok, Reader.u2_eq_ok]
      exact ⟨_, _, rfl, rfl, rfl⟩
    | enumConst =>
      simp only [layout, bytes_append, List.append_assoc]
      refine ⟨_, _, rfl, ?_⟩
      have isTag : isConstTag 101 = false := rfl
      simp only [isTag, Bool.false_eq_true, if_false, Reader.bind_eq_ok, Reader.pure_eq_ok,
        Reader.u2_eq_ok]
      exact ⟨_, _, rfl, _, _, rfl, rfl, rfl⟩
    | classInfo =>
      simp only [layout, bytes_append, List.append_assoc]
      refine ⟨_, _, rfl, ?_⟩
      have isTag : isConstTag 99 = false := rfl
      simp only [isTag, Bool.false_eq_true, if_false, Reader.bind_eq_ok, Reader.pure_eq_ok,
        Reader.u2_eq_ok]
      exact ⟨_, _, rfl, rfl, rfl⟩
    | nested inside =>
      simp only [layout, fits_append, fits_u1, true_and] at fits
      have complete := AnnotationEntry.readWith_complete ih inside fits (by
        simp only [layout, bytes_append, List.length_append, length_u1] at enough
        omega)
      simp only [layout, bytes_append, List.append_assoc]
      refine ⟨_, _, rfl, ?_⟩
      have isTag : isConstTag 64 = false := rfl
      simp only [isTag, Bool.false_eq_true, if_false, Reader.bind_eq_ok, Reader.pure_eq_ok]
      exact ⟨_, _, complete rest, rfl, rfl⟩
    | @array values inside =>
      simp only [layout_array, fits_append, fits_u1, true_and, fits_table] at fits
      have complete :
          Reader.Complete (Reader.table (read depth)) (table .array layout) values := by
        refine Reader.table_complete .array fits.1 fun value member => ?_
        have part := length_le_entries layout member
        simp only [layout_array, table, bytes_append, List.length_append, length_u1,
          length_count] at enough
        exact ih (inside value member) (fits.2 value member) (by omega)
      simp only [layout_array, bytes_append, List.append_assoc]
      refine ⟨_, _, rfl, ?_⟩
      have isTag : isConstTag 91 = false := rfl
      simp only [isTag, Bool.false_eq_true, if_false, Reader.bind_eq_ok, Reader.pure_eq_ok]
      exact ⟨_, _, complete rest, rfl, rfl⟩

namespace AnnotationEntry

theorem read_sound (depth : Nat) : Reader.Sound (read depth) WellFormed layout :=
  readWith_sound (ElementValue.read_sound depth)

theorem read_complete (depth : Nat) {entry : AnnotationEntry} (wellFormed : entry.WellFormed)
    (fits : entry.layout.Fits) (enough : entry.layout.bytes.length ≤ depth) :
    Reader.Complete (read depth) layout entry :=
  readWith_complete ElementValue.read_complete wellFormed fits enough

end AnnotationEntry

end Relabel.ClassFile
