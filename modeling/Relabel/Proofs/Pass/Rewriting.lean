import Relabel.Proofs.ClassFile.Evolving
import Relabel.Proofs.ClassFile.RoundTrip
import Relabel.Proofs.Pass.Framing

/-!
# Writing relabelled class files

Within the frame, a class file stays well formed and every part of it stays as large as it was,
apart from the pool, whose new entries fit. So a class file that has been parsed can be written
after relabelling, and what is written is parsed as the relabelled class file.
-/

namespace Relabel

namespace Pass

open ClassFile ClassFile.Layout

/-! ## Annotations -/

theorem ValueFrame.alike {old new : ElementValue} (frame : ValueFrame old new) :
    Alike old.layout new.layout := by
  cases frame with
  | same => exact .refl _
  | text before after => exact (Alike.refl _).append (alike_u2 before after)

theorem ValueFrame.wellFormed {old new : ElementValue} (frame : ValueFrame old new)
    (wellFormed : old.WellFormed) : new.WellFormed := by
  cases frame with
  | same => exact wellFormed
  | text =>
    cases wellFormed with
    | const isTag => exact .const isTag

/-- What each value of a list has, each value of a related list has. -/
theorem forall_mem_of_forall₂ {α : Type} {related : α → α → Prop} {holds later : α → Prop}
    {old new : List α} (all : List.Forall₂ related old new) (each : ∀ value ∈ old, holds value)
    (step : ∀ {before after}, related before after → holds before → later after) :
    ∀ value ∈ new, later value := by
  induction all with
  | nil => nofun
  | cons head tail ih =>
    rw [List.forall_mem_cons] at each ⊢
    exact ⟨step head each.1, ih each.2⟩

section

variable {names : Pool}

theorem ElementFrame.alike {old new : UInt16 × ElementValue} (frame : ElementFrame names old new) :
    Alike (ElementValue.elementLayout old) (ElementValue.elementLayout new) := by
  cases frame with
  | same => exact .refl _
  | texts named values =>
    rw [ElementValue.elementLayout, ElementValue.elementLayout, ElementValue.layout_array,
      ElementValue.layout_array]
    exact (Alike.refl _).append ((Alike.refl _).append
      (alike_table .array (values.imp fun _ _ => ValueFrame.alike)))

theorem ElementFrame.wellFormed {old new : UInt16 × ElementValue}
    (frame : ElementFrame names old new) (wellFormed : old.2.WellFormed) : new.2.WellFormed := by
  cases frame with
  | same => exact wellFormed
  | texts named values =>
    cases wellFormed with
    | array inside =>
      exact .array (forall_mem_of_forall₂ values inside ValueFrame.wellFormed)

theorem AnnotationFrame.alike {old new : AnnotationEntry} (frame : AnnotationFrame names old new) :
    Alike old.layout new.layout := by
  cases frame with
  | same => exact .refl _
  | metadata named elements =>
    rw [AnnotationEntry.layout_eq, AnnotationEntry.layout_eq]
    exact (Alike.refl _).append (alike_table .elements (elements.imp fun _ _ => ElementFrame.alike))

theorem AnnotationFrame.wellFormed {old new : AnnotationEntry}
    (frame : AnnotationFrame names old new) (wellFormed : old.WellFormed) : new.WellFormed := by
  cases frame with
  | same => exact wellFormed
  | metadata named elements =>
    cases wellFormed with
    | mk inside => exact .mk (forall_mem_of_forall₂ elements inside ElementFrame.wellFormed)

/-! ## Attributes -/

theorem MethodFrame.alike {old new : BootstrapMethod} (frame : MethodFrame old new) :
    Alike old.layout new.layout := by
  rw [BootstrapMethod.layout, BootstrapMethod.layout, frame.method]
  have arguments : List.Forall₂ (fun before after => Alike (u2 before) (u2 after)) old.arguments
      new.arguments :=
    List.forall₂_of_length_eq_of_get frame.arguments.symm fun _ _ _ => alike_u2 ..
  exact (Alike.refl _).append (alike_table .bootstrapArguments arguments)

theorem AttributeFrame.alike {old new : Attribute} (frame : AttributeFrame names old new) :
    Alike old.layout new.layout := by
  cases frame with
  | same => exact .refl _
  | arguments methods =>
    have bodies := alike_table .bootstrapMethods (methods.imp fun _ _ => MethodFrame.alike)
    exact (Alike.refl _).append (bodies.blob .body)
  | annotations entries =>
    have bodies := alike_table .annotations (entries.imp fun _ _ => AnnotationFrame.alike)
    exact (Alike.refl _).append (bodies.blob .body)

theorem AttributeFrame.wellFormed {pool : Pool} {old new : Attribute}
    (frame : AttributeFrame names old new) (wellFormed : old.WellFormed pool) :
    new.WellFormed pool := by
  cases frame with
  | same => exact wellFormed
  | arguments methods =>
    cases wellFormed with
    | mk decoded named inside => exact .mk decoded named .bootstrapMethods
  | annotations entries =>
    cases wellFormed with
    | mk decoded named inside =>
      cases inside with
      | annotations inside =>
        exact .mk decoded named
          (.annotations (forall_mem_of_forall₂ entries inside AnnotationFrame.wellFormed))

end

/-! ## Methods -/

theorem codeBytes_alike (code : Code) {bytes : Bytes} (length : bytes.length = code.bytes.length) :
    Alike code.layout (Code.layout { code with bytes }) := by
  rw [Code.layout_eq, Code.layout_eq]
  have front : Alike (u2 code.maxStack ++ u2 code.maxLocals ++ blob .code (raw code.bytes))
      (u2 code.maxStack ++ u2 code.maxLocals ++ blob .code (raw bytes)) :=
    (Alike.refl _).append ((alike_raw length).blob .code)
  exact (front.append (.refl _)).append (.refl _)

theorem setCodeBytes_alike {attributes : List Attribute} {code : Code} {bytes : Bytes}
    (found : (attributes.findSome? fun entry =>
      match entry.body with
      | .code code => some code
      | _ => none) = some code) (length : bytes.length = code.bytes.length) :
    List.Forall₂ (fun before after => Alike before.layout after.layout) attributes
      (Member.setCodeBytes bytes attributes) := by
  induction attributes with
  | nil => exact .nil
  | cons entry rest ih =>
    obtain ⟨name, body⟩ := entry
    cases body with
    | code first =>
      cases found
      refine .cons ?_ (List.forall₂_same.2 fun entry _ => .refl _)
      exact (Alike.refl _).append ((codeBytes_alike code length).blob .body)
    | _ => exact .cons (.refl _) (ih found)

theorem setCodeBytes_wellFormed {pool : Pool} {attributes : List Attribute} {bytes : Bytes}
    (wellFormed : ∀ entry ∈ attributes, entry.WellFormed pool) :
    ∀ entry ∈ Member.setCodeBytes bytes attributes, entry.WellFormed pool := by
  induction attributes with
  | nil => exact wellFormed
  | cons entry rest ih =>
    obtain ⟨name, body⟩ := entry
    obtain ⟨here, others⟩ := List.forall_mem_cons.1 wellFormed
    cases body with
    | code code =>
      cases here with
      | mk decoded named inside =>
        cases inside with
        | code inside => exact List.forall_mem_cons.2 ⟨.mk decoded named (.code inside), others⟩
    | _ => exact List.forall_mem_cons.2 ⟨here, ih others⟩

theorem forall₂_set {α : Type} {related : α → α → Prop} (refl : ∀ value, related value value)
    {values : List α} {position : Nat} {value changed : α} (found : values[position]? = some value)
    (here : related value changed) : List.Forall₂ related values (values.set position changed) := by
  induction values generalizing position with
  | nil => cases found
  | cons first rest ih =>
    cases position with
    | zero =>
      cases found
      exact .cons here (List.forall₂_same.2 fun value _ => refl value)
    | succ position => exact .cons (refl first) (ih found)

theorem MethodsFrame.alike {pool : Pool} {old new : List Member}
    (frame : MethodsFrame pool old new) :
    List.Forall₂ (fun before after => Alike before.layout after.layout) old new := by
  cases frame with
  | same => exact List.forall₂_same.2 fun member _ => .refl _
  | constructor isFirst few differ =>
    obtain ⟨member, code, bytes, isMember, isCode, -, operands, rfl⟩ := differ
    refine forall₂_set (fun _ => .refl _) isMember ?_
    have codes := setCodeBytes_alike isCode operands.length
    exact (Alike.refl _).append (alike_table .attributes codes)

theorem MethodsFrame.wellFormed {pool other : Pool} {old new : List Member}
    (frame : MethodsFrame pool old new) (wellFormed : ∀ member ∈ old, member.WellFormed other) :
    ∀ member ∈ new, member.WellFormed other := by
  cases frame with
  | same => exact wellFormed
  | constructor isFirst few differ =>
    obtain ⟨member, code, bytes, isMember, -, -, -, rfl⟩ := differ
    intro changed inside
    rcases List.mem_or_eq_of_mem_set inside with kept | rfl
    · exact wellFormed changed kept
    · exact setCodeBytes_wellFormed (wellFormed member (List.mem_of_getElem? isMember))

/-! ## Class files -/

theorem Frame.wellFormed {names : Pool} {old new : ClassFile} (frame : Frame names old new)
    (wellFormed : old.WellFormed) : new.WellFormed := by
  -- Attributes that have not changed are well formed in the later pool too.
  have laterAttributes {attributes : List Attribute}
      (each : ∀ entry ∈ attributes, entry.WellFormed old.pool) :
      ∀ entry ∈ attributes, entry.WellFormed new.pool :=
    fun entry member => (each entry member).later frame.pool
  have fields : new.fields = old.fields := by
    rw [frame.rest]
  constructor
  case pool => exact frame.pool.wellFormed wellFormed.pool
  case fields =>
    intro field member
    rw [fields] at member
    exact laterAttributes (wellFormed.fields field member)
  case methods =>
    apply frame.methods.wellFormed
    intro method member
    exact laterAttributes (wellFormed.methods method member)
  case attributes =>
    exact forall_mem_of_forall₂ frame.attributes (laterAttributes wellFormed.attributes)
      AttributeFrame.wellFormed

theorem Frame.fits {names : Pool} {old new : ClassFile} (frame : Frame names old new)
    (fits : old.layout.Fits) :
    new.layout.Fits := by
  simp only [layout, fits_append] at fits ⊢
  obtain ⟨⟨-, poolFits⟩, contentFits⟩ := fits
  -- Whatever stands behind the pool has the size that it had.
  have content : Alike old.content new.content := by
    have attributes := frame.attributes.imp fun _ _ => AttributeFrame.alike
    rw [frame.rest]
    exact ((Alike.refl _).append (alike_table .methods frame.methods.alike)).append
      (alike_table .attributes attributes)
  have header : new.header.Fits := by
    simp [header]
  exact ⟨⟨header, frame.pool.layout_fits poolFits⟩, content.fits contentFits⟩

/-- A class file that was parsed and then changed within the frame is written to bytes that are
parsed as the changed class file. -/
theorem Frame.reparse {names : Pool} {bytes : Bytes} {old new : ClassFile}
    (parsed : parse bytes = .ok old) (frame : Frame names old new) :
    ∃ written, new.toBytes = .ok written ∧ parse written = .ok new := by
  obtain ⟨wellFormed, fits, -⟩ := parse_sound parsed
  have nowFits := frame.fits fits
  refine ⟨new.layout.bytes, ?_, parse_complete (frame.wellFormed wellFormed) nowFits⟩
  rw [toBytes_eq, tooLarge?_eq_none_iff.2 nowFits]

/-- **A relabelled class file can be written and read.** If a class file has been parsed and
relabelling it has changed anything, then writing cannot fail, and what is written is parsed as the
relabelled class file. -/
theorem relabelBytes_reparse {reserve : Nat} {table : SymbolTable} {goal : Goal} {bytes : Bytes}
    {file after : ClassFile} {changes : Changes} (parsed : parse bytes = .ok file)
    (run : relabel reserve table goal file = (.ok changes, after)) (changed : changes.isChanged) :
    ∃ written, after.toBytes = .ok written ∧
      relabelBytes reserve table goal bytes = .ok (some written) ∧ parse written = .ok after := by
  obtain ⟨written, isWritten, reparsed⟩ := (frame_of_relabel run).reparse parsed
  refine ⟨written, isWritten, ?_, reparsed⟩
  simp [relabelBytes, parsed, run, changed, isWritten]

/-- A class with a field whose constant value is the string `SRC(a.B)`. -/
def fieldClass : ClassFile where
  minorVersion := 0
  majorVersion := 52
  pool := ⟨#[.unusable, .text [65], .classRef 1, .text [83, 82, 67, 40, 97, 46, 66, 41], .string 3,
    .text (ModifiedUtf8.encode "ConstantValue")]⟩
  accessFlags := 33
  thisClass := 2
  superClass := 0
  interfaces := []
  fields := [⟨0, 1, 1, [⟨5, .constantValue 4⟩]⟩]
  methods := []
  attributes := []

def fieldClassBytes : Bytes :=
  [0xCA, 0xFE, 0xBA, 0xBE, 0, 0, 0, 52, 0, 6, 1, 0, 1, 65, 7, 0, 1, 1, 0, 8, 83, 82, 67, 40, 97,
    46, 66, 41, 8, 0, 3, 1, 0, 13, 67, 111, 110, 115, 116, 97, 110, 116, 86, 97, 108, 117, 101, 0,
    33, 0, 2, 0, 0, 0, 0, 0, 1, 0, 0, 0, 1, 0, 1, 0, 1, 0, 5, 0, 0, 0, 2, 0, 4, 0, 0, 0, 0]

theorem relabelBytes_reparse_of_fieldClass :
    ∃ written after, relabelBytes 0 (.ofNames ∅ ∅ ∅) .developer fieldClassBytes =
      .ok (some written) ∧ parse written = .ok after := by
  have parsed : parse fieldClassBytes = .ok fieldClass := by decide +kernel
  have changes : (relabel 0 (.ofNames ∅ ∅ ∅) .developer fieldClass).1 = .ok ⟨1⟩ := by decide +kernel
  cases run : relabel 0 (.ofNames ∅ ∅ ∅) .developer fieldClass with
  | mk result after =>
    rw [run] at changes
    cases changes
    obtain ⟨written, -, relabelled, reparsed⟩ := relabelBytes_reparse parsed run rfl
    exact ⟨written, after, relabelled, reparsed⟩

end Pass

end Relabel
