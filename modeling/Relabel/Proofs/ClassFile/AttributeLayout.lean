import Relabel.ClassFile.Attribute
import Relabel.Proofs.ClassFile.AnnotationLayout
import Relabel.Proofs.ClassFile.PoolLayout

/-!
# Layouts of attributes

An attribute is laid out as its name and its body, the body behind the number of its bytes. Which
kind of body a name selects is told by the text that the name refers to, so an attribute is *well
formed* with respect to a pool: its name decodes there, the body is of the kind that this text
selects, and so it goes for the attributes inside of a code.
-/

namespace Relabel.ClassFile

open Layout

def Handler.layout (h : Handler) : Layout :=
  u2 h.start ++ u2 h.stop ++ u2 h.target ++ u2 h.catchType

def InnerClass.layout (c : InnerClass) : Layout :=
  u2 c.inner ++ u2 c.outer ++ u2 c.name ++ u2 c.accessFlags

def BootstrapMethod.layout (m : BootstrapMethod) : Layout :=
  u2 m.method ++ table .bootstrapArguments u2 m.arguments

mutual

/-- The layout of an attribute: its name, and its body as a blob. -/
def Attribute.layout : Attribute → Layout
  | ⟨name, body⟩ => u2 name ++ blob .body (AttributeBody.layout body)

/-- The layout of the body of an attribute. -/
def AttributeBody.layout : AttributeBody → Layout
  | .constantValue value => u2 value
  | .code code => Code.layout code
  | .annotations annotations => table .annotations AnnotationEntry.layout annotations
  | .enclosingMethod owner method => u2 owner ++ u2 method
  | .innerClasses classes => table .innerClasses InnerClass.layout classes
  | .bootstrapMethods methods => table .bootstrapMethods BootstrapMethod.layout methods
  | .raw content => raw content

/-- The layout of a code with its handlers and attributes. -/
def Code.layout : Code → Layout
  | ⟨maxStack, maxLocals, bytes, handlers, attributes⟩ =>
    u2 maxStack ++ u2 maxLocals ++ blob .code (raw bytes) ++
      table .handlers Handler.layout handlers ++
      (count .attributes attributes.length ++ Attribute.layoutAll attributes)

/-- The layouts of attributes, one after the other. -/
def Attribute.layoutAll : List Attribute → Layout
  | [] => raw []
  | entry :: rest => Attribute.layout entry ++ Attribute.layoutAll rest

end

/-- The layout of a table of attributes. -/
def Attribute.tableLayout (attributes : List Attribute) : Layout :=
  table .attributes Attribute.layout attributes

theorem Attribute.layoutAll_eq_entries (attributes : List Attribute) :
    layoutAll attributes = entries layout attributes := by
  induction attributes with
  | nil => rfl
  | cons entry rest ih => rw [layoutAll, entries, ih]

theorem Code.layout_eq (code : Code) :
    code.layout = u2 code.maxStack ++ u2 code.maxLocals ++ blob .code (raw code.bytes) ++
      table .handlers Handler.layout code.handlers ++ Attribute.tableLayout code.attributes := by
  obtain ⟨maxStack, maxLocals, bytes, handlers, attributes⟩ := code
  rw [layout, Attribute.layoutAll_eq_entries]
  rfl

/-! ## Writing -/

theorem Handler.write_eq_emit (h : Handler) (out : Output) : write out h = h.layout.emit out := by
  simp [write, layout, emit_append]

theorem InnerClass.write_eq_emit (c : InnerClass) (out : Output) :
    write out c = c.layout.emit out := by
  simp [write, layout, emit_append]

theorem writeIndex_eq_emit (index : UInt16) (out : Output) :
    writeIndex out index = (u2 index).emit out :=
  (emit_u2 index out).symm

theorem BootstrapMethod.write_eq_emit (m : BootstrapMethod) (out : Output) :
    write out m = m.layout.emit out := by
  simp [write, layout, emit_append, emit_table .bootstrapArguments rfl writeIndex_eq_emit]

mutual

theorem Attribute.write_eq_emit (entry : Attribute) (out : Output) :
    Attribute.write out entry = entry.layout.emit out := by
  obtain ⟨name, body⟩ := entry
  have written := AttributeBody.write_eq_emit body #[]
  cases content : body.layout.emit #[] <;>
    simp only [Attribute.write, Attribute.layout, emit_append, emit_u2, emit_blob .body rfl,
      written, content]

theorem AttributeBody.write_eq_emit (body : AttributeBody) (out : Output) :
    AttributeBody.write out body = body.layout.emit out := by
  cases body with
  | constantValue value => simp [AttributeBody.write, AttributeBody.layout]
  | code code => exact Code.write_eq_emit code out
  | annotations annotations =>
    exact (emit_table .annotations rfl AnnotationEntry.write_eq_emit annotations out).symm
  | enclosingMethod owner method =>
    simp [AttributeBody.write, AttributeBody.layout, emit_append]
  | innerClasses classes =>
    exact (emit_table .innerClasses rfl InnerClass.write_eq_emit classes out).symm
  | bootstrapMethods methods =>
    exact (emit_table .bootstrapMethods rfl BootstrapMethod.write_eq_emit methods
      out).symm
  | raw content => exact (emit_bytes content out).symm

theorem Code.write_eq_emit (code : Code) (out : Output) :
    Code.write out code = code.layout.emit out := by
  obtain ⟨maxStack, maxLocals, bytes, handlers, attributes⟩ := code
  simp only [Code.write, Code.layout, emit_append, emit_u2, emit_raw, emit_blob .code rfl,
    emit_table .handlers rfl Handler.write_eq_emit, emit_count .attributes rfl,
    Array.empty_append]
  cases Output.blob .code (Output.u2 (Output.u2 out maxStack) maxLocals) bytes.toArray with
  | error fault => rfl
  | ok out =>
    simp only
    cases Output.table .handlers Handler.write out handlers with
    | error fault => rfl
    | ok out =>
      simp only
      cases Output.count .attributes out attributes.length with
      | error fault => rfl
      | ok out => exact Attribute.writeAll_eq_emit attributes out

theorem Attribute.writeAll_eq_emit (attributes : List Attribute) (out : Output) :
    Attribute.writeAll out attributes = (Attribute.layoutAll attributes).emit out := by
  match attributes with
  | [] => simp [Attribute.writeAll, Attribute.layoutAll]
  | entry :: rest =>
    simp only [Attribute.writeAll, Attribute.layoutAll, emit_append,
      Attribute.write_eq_emit entry out]
    cases entry.layout.emit out with
    | error fault => rfl
    | ok out => exact Attribute.writeAll_eq_emit rest out

end

theorem Attribute.writeTable_eq_emit (attributes : List Attribute) (out : Output) :
    writeTable out attributes = (tableLayout attributes).emit out := by
  simp only [writeTable, tableLayout, table, ← layoutAll_eq_entries, emit_append,
    emit_count .attributes rfl]
  cases Output.count .attributes out attributes.length with
  | error fault => rfl
  | ok out => exact writeAll_eq_emit attributes out

/-! ## Well-formed attributes -/

/-- The names that select how a body is read. -/
def AttributeBody.names : List String :=
  ["ConstantValue", "Code", "RuntimeVisibleAnnotations", "EnclosingMethod", "InnerClasses",
    "BootstrapMethods"]

/-- The name that selects this kind of body; bytes are kept for all other names. -/
def AttributeBody.name? : AttributeBody → Option String
  | .constantValue _ => some "ConstantValue"
  | .code _ => some "Code"
  | .annotations _ => some "RuntimeVisibleAnnotations"
  | .enclosingMethod .. => some "EnclosingMethod"
  | .innerClasses _ => some "InnerClasses"
  | .bootstrapMethods _ => some "BootstrapMethods"
  | .raw _ => none

/-- Whether a body is of the kind that the name of its attribute selects. -/
def AttributeBody.IsNamed (body : AttributeBody) (name : String) : Prop :=
  match body.name? with
  | some selecting => name = selecting
  | none => name ∉ names

mutual

/-- The name of an attribute decodes and selects the kind of its body, and so it goes inside. -/
inductive Attribute.WellFormed (pool : Pool) : Attribute → Prop
  | mk {name : UInt16} {body : AttributeBody} {text : String} (decoded : pool.text name = .ok text)
      (named : body.IsNamed text) (inside : AttributeBody.WellFormed pool body) :
      Attribute.WellFormed pool ⟨name, body⟩

/-- Everything inside of a body is well formed. -/
inductive AttributeBody.WellFormed (pool : Pool) : AttributeBody → Prop
  | constantValue {value : UInt16} : AttributeBody.WellFormed pool (.constantValue value)
  | code {code : Code} (inside : ∀ entry ∈ code.attributes, Attribute.WellFormed pool entry) :
      AttributeBody.WellFormed pool (.code code)
  | annotations {annotations : List AnnotationEntry}
      (inside : ∀ annotation ∈ annotations, annotation.WellFormed) :
      AttributeBody.WellFormed pool (.annotations annotations)
  | enclosingMethod {owner method : UInt16} :
      AttributeBody.WellFormed pool (.enclosingMethod owner method)
  | innerClasses {classes : List InnerClass} : AttributeBody.WellFormed pool (.innerClasses classes)
  | bootstrapMethods {methods : List BootstrapMethod} :
      AttributeBody.WellFormed pool (.bootstrapMethods methods)
  | raw {content : Bytes} : AttributeBody.WellFormed pool (.raw content)

end

/-! ## Reading -/

theorem Handler.read_sound : Reader.Sound read (fun _ => True) layout := by
  intro input handler rest taken
  simp only [read, Reader.bind_eq_ok, Reader.pure_eq_ok, Reader.u2_eq_ok] at taken
  obtain ⟨start, _, rfl, stop, _, rfl, target, _, rfl, catchType, _, rfl, rfl, rfl⟩ := taken
  simp [layout]

theorem Handler.read_complete (handler : Handler) : Reader.Complete read layout handler := by
  intro rest
  simp only [read, Reader.bind_eq_ok, Reader.pure_eq_ok, Reader.u2_eq_ok, layout, bytes_append,
    List.append_assoc]
  exact ⟨_, _, rfl, _, _, rfl, _, _, rfl, _, _, rfl, rfl, rfl⟩

theorem InnerClass.read_sound : Reader.Sound read (fun _ => True) layout := by
  intro input entry rest taken
  simp only [read, Reader.bind_eq_ok, Reader.pure_eq_ok, Reader.u2_eq_ok] at taken
  obtain ⟨inner, _, rfl, outer, _, rfl, name, _, rfl, accessFlags, _, rfl, rfl, rfl⟩ := taken
  simp [layout]

theorem InnerClass.read_complete (entry : InnerClass) : Reader.Complete read layout entry := by
  intro rest
  simp only [read, Reader.bind_eq_ok, Reader.pure_eq_ok, Reader.u2_eq_ok, layout, bytes_append,
    List.append_assoc]
  exact ⟨_, _, rfl, _, _, rfl, _, _, rfl, _, _, rfl, rfl, rfl⟩

theorem BootstrapMethod.read_sound : Reader.Sound read (fun _ => True) layout := by
  intro input method rest taken
  simp only [read, Reader.bind_eq_ok, Reader.pure_eq_ok, Reader.u2_eq_ok] at taken
  obtain ⟨method, _, rfl, arguments, _, taken, rfl, rfl⟩ := taken
  obtain ⟨-, fits, rfl⟩ :=
    Reader.table_sound .bootstrapArguments rfl Reader.u2_sound taken
  exact ⟨trivial, fits_append.2 ⟨fits_u2 _, fits⟩, by simp [layout]⟩

theorem BootstrapMethod.read_complete {method : BootstrapMethod} (fits : method.layout.Fits) :
    Reader.Complete read layout method := by
  intro rest
  rw [layout, fits_append, fits_table] at fits
  have arguments := Reader.table_complete .bootstrapArguments fits.2.1
    fun argument _ => Reader.u2_complete argument
  simp only [read, Reader.bind_eq_ok, Reader.pure_eq_ok, Reader.u2_eq_ok, layout, bytes_append,
    List.append_assoc]
  exact ⟨_, _, rfl, _, _, arguments rest, rfl, rfl⟩

/-- The number in front of a blob tells its length just if the length can be written. -/
theorem length_eq_toNat_iff {content : Bytes} {size : UInt32} :
    content.length = size.toNat ↔
      content.length ≤ 4294967295 ∧ size = UInt32.ofNat content.length := by
  rw [← UInt32.toNat_inj, UInt32.toNat_ofNat']
  have := size.toNat_lt
  omega

theorem Code.readWith_sound {entry : Reader Attribute} {proper : Attribute → Prop}
    (sound : Reader.Sound entry proper Attribute.layout) :
    Reader.Sound (readWith entry) (fun code => ∀ entry ∈ code.attributes, proper entry) layout := by
  intro input code rest taken
  simp only [readWith, Reader.bind_eq_ok, Reader.pure_eq_ok, Reader.u2_eq_ok, Reader.u4_eq_ok,
    Reader.bytes_eq_ok, length_eq_toNat_iff] at taken
  obtain ⟨maxStack, _, rfl, maxLocals, _, rfl, size, _, rfl, content, _, ⟨⟨small, rfl⟩, rfl⟩,
    handlers, _, handlersTaken, attributes, _, attributesTaken, rfl, rfl⟩ := taken
  obtain ⟨-, handlersFit, rfl⟩ :=
    Reader.table_sound .handlers rfl Handler.read_sound handlersTaken
  obtain ⟨inside, attributesFit, rfl⟩ :=
    Reader.table_sound .attributes rfl sound attributesTaken
  refine ⟨inside, ?_, ?_⟩
  · simp only [layout_eq, fits_append, fits_u2, fits_blob, fits_raw, true_and]
    exact ⟨⟨small, handlersFit⟩, attributesFit⟩
  · simp [layout_eq, blob, raw, Attribute.tableLayout]

theorem Code.readWith_complete {entry : Reader Attribute} {code : Code} (fits : code.layout.Fits)
    (complete : ∀ nested ∈ code.attributes, Reader.Complete entry Attribute.layout nested) :
    Reader.Complete (readWith entry) layout code := by
  intro rest
  simp only [layout_eq, Attribute.tableLayout, fits_append, fits_u2, fits_blob, fits_raw, true_and,
    fits_table] at fits
  obtain ⟨⟨small, handlersSize, -⟩, attributesSize, -⟩ := fits
  have handlers := Reader.table_complete .handlers handlersSize
    fun handler _ => Handler.read_complete handler
  have attributes := Reader.table_complete .attributes attributesSize complete
  simp only [readWith, Reader.bind_eq_ok, Reader.pure_eq_ok, Reader.u2_eq_ok, Reader.u4_eq_ok,
    Reader.bytes_eq_ok, length_eq_toNat_iff, layout_eq, Attribute.tableLayout, blob, raw,
    bytes_append, List.append_assoc]
  obtain ⟨maxStack, maxLocals, bytes, _, _⟩ := code
  exact ⟨_, _, rfl, _, _, rfl, _, _, rfl, bytes, _, ⟨⟨small, rfl⟩, rfl⟩, _, _, handlers _, _, _,
    attributes rest, rfl, rfl⟩

/-! ### Bodies -/

namespace AttributeBody

/-- Bodies are kept as bytes just for the names that select no other kind. -/
theorem reader?_eq_none_iff {depth : Nat} {entry : Reader Attribute} {name : String} :
    reader? depth entry name = none ↔ name ∉ names := by
  unfold reader?
  split <;> simp_all [names]

/-- Whatever a reader of bodies takes off the input is the layout of a body of the kind that the
name selects. -/
theorem reader?_sound {pool : Pool} {depth : Nat} {entry : Reader Attribute} {name : String}
    {read : Reader AttributeBody}
    (sound : Reader.Sound entry (Attribute.WellFormed pool) Attribute.layout)
    (found : reader? depth entry name = some read) :
    Reader.Sound read (fun body => body.IsNamed name ∧ WellFormed pool body) layout := by
  unfold reader? at found
  intro input body rest taken
  split at found
  case h_7 => cases found
  all_goals
    cases found
    simp only [Reader.bind_eq_ok, Reader.pure_eq_ok, Reader.u2_eq_ok] at taken
  case h_1 =>
    obtain ⟨value, _, rfl, rfl, rfl⟩ := taken
    exact ⟨⟨rfl, .constantValue⟩, fits_u2 _, rfl⟩
  case h_2 =>
    obtain ⟨code, _, taken, rfl, rfl⟩ := taken
    obtain ⟨inside, fits, rfl⟩ := Code.readWith_sound sound taken
    exact ⟨⟨rfl, .code inside⟩, fits, rfl⟩
  case h_3 =>
    obtain ⟨annotations, _, taken, rfl, rfl⟩ := taken
    obtain ⟨inside, fits, rfl⟩ :=
      Reader.table_sound .annotations rfl (AnnotationEntry.read_sound depth) taken
    exact ⟨⟨rfl, .annotations inside⟩, fits, rfl⟩
  case h_4 =>
    obtain ⟨owner, _, rfl, method, _, rfl, rfl, rfl⟩ := taken
    exact ⟨⟨rfl, .enclosingMethod⟩, by simp [layout], by simp [layout]⟩
  case h_5 =>
    obtain ⟨classes, _, taken, rfl, rfl⟩ := taken
    obtain ⟨-, fits, rfl⟩ :=
      Reader.table_sound .innerClasses rfl InnerClass.read_sound taken
    exact ⟨⟨rfl, .innerClasses⟩, fits, rfl⟩
  case h_6 =>
    obtain ⟨methods, _, taken, rfl, rfl⟩ := taken
    obtain ⟨-, fits, rfl⟩ :=
      Reader.table_sound .bootstrapMethods rfl BootstrapMethod.read_sound taken
    exact ⟨⟨rfl, .bootstrapMethods⟩, fits, rfl⟩

/-- A body that a name selects is read if the attributes in it are. -/
theorem reader?_complete {pool : Pool} {depth : Nat} {entry : Reader Attribute}
    {body : AttributeBody} {name : String} (isNamed : body.name? = some name)
    (wellFormed : body.WellFormed pool) (fits : body.layout.Fits)
    (enough : body.layout.bytes.length ≤ depth)
    (complete : ∀ {nested : Attribute}, nested.WellFormed pool → nested.layout.Fits →
      nested.layout.bytes.length ≤ depth → Reader.Complete entry Attribute.layout nested) :
    ∃ read, reader? depth entry name = some read ∧ Reader.Complete read layout body := by
  cases wellFormed with
  | raw => cases isNamed
  | constantValue =>
    cases isNamed
    refine ⟨_, rfl, fun rest => ?_⟩
    simp only [Reader.bind_eq_ok, Reader.pure_eq_ok, Reader.u2_eq_ok]
    exact ⟨_, _, rfl, rfl, rfl⟩
  | enclosingMethod =>
    cases isNamed
    refine ⟨_, rfl, fun rest => ?_⟩
    simp only [Reader.bind_eq_ok, Reader.pure_eq_ok, Reader.u2_eq_ok, layout, bytes_append,
      List.append_assoc]
    exact ⟨_, _, rfl, _, _, rfl, rfl, rfl⟩
  | @code code inside =>
    cases isNamed
    have codeFits : code.layout.Fits := fits
    have codeEnough : code.layout.bytes.length ≤ depth := enough
    simp only [Code.layout_eq, Attribute.tableLayout, fits_append, fits_table] at codeFits
    -- The attributes of a code are shorter than the code, so that its depth is enough for them.
    have read := Code.readWith_complete fits fun nested member =>
      complete (inside nested member) (codeFits.2.2 nested member) (by
        have part := length_le_entries Attribute.layout member
        simp only [Code.layout_eq, Attribute.tableLayout, table, bytes_append,
          List.length_append] at codeEnough
        omega)
    refine ⟨_, rfl, fun rest => ?_⟩
    simp only [Reader.bind_eq_ok, Reader.pure_eq_ok]
    exact ⟨_, _, read rest, rfl, rfl⟩
  | @annotations annotations inside =>
    cases isNamed
    have tableEnough : (table .annotations AnnotationEntry.layout annotations).bytes.length ≤
      depth := enough
    obtain ⟨size, annotationsFit⟩ := fits_table.1 fits
    have read := Reader.table_complete .annotations size fun annotation member =>
      AnnotationEntry.read_complete depth (inside annotation member)
        (annotationsFit annotation member) (by
          have part := length_le_entries AnnotationEntry.layout member
          simp only [table, bytes_append, List.length_append] at tableEnough
          omega)
    refine ⟨_, rfl, fun rest => ?_⟩
    simp only [Reader.bind_eq_ok, Reader.pure_eq_ok]
    exact ⟨_, _, read rest, rfl, rfl⟩
  | innerClasses =>
    cases isNamed
    have read := Reader.table_complete .innerClasses (fits_table.1 fits).1
      fun entry _ => InnerClass.read_complete entry
    refine ⟨_, rfl, fun rest => ?_⟩
    simp only [Reader.bind_eq_ok, Reader.pure_eq_ok]
    exact ⟨_, _, read rest, rfl, rfl⟩
  | bootstrapMethods =>
    cases isNamed
    obtain ⟨size, methodsFit⟩ := fits_table.1 fits
    have read := Reader.table_complete .bootstrapMethods size
      fun method member => BootstrapMethod.read_complete (methodsFit method member)
    refine ⟨_, rfl, fun rest => ?_⟩
    simp only [Reader.bind_eq_ok, Reader.pure_eq_ok]
    exact ⟨_, _, read rest, rfl, rfl⟩

theorem ofBytes_sound {pool : Pool} {depth : Nat} {entry : Reader Attribute} {name : String}
    {content : Bytes} {body : AttributeBody}
    (sound : Reader.Sound entry (Attribute.WellFormed pool) Attribute.layout)
    (made : ofBytes depth entry name content = .ok body) :
    body.IsNamed name ∧ WellFormed pool body ∧ body.layout.Fits ∧ body.layout.bytes = content := by
  unfold ofBytes at made
  split at made
  · next kept =>
    cases made
    exact ⟨reader?_eq_none_iff.1 kept, .raw, fits_raw _, rfl⟩
  · next read found =>
    split at made
    · cases made
    · next other taken =>
      cases made
      obtain ⟨⟨named, inside⟩, fits, contentEq⟩ := reader?_sound sound found taken
      exact ⟨named, inside, fits, by simpa using contentEq.symm⟩
    · cases made

theorem ofBytes_complete {pool : Pool} (depth : Nat) {entry : Reader Attribute} {name : String}
    {body : AttributeBody} (named : body.IsNamed name) (wellFormed : body.WellFormed pool)
    (fits : body.layout.Fits) (enough : body.layout.bytes.length ≤ depth)
    (complete : ∀ {nested : Attribute}, nested.WellFormed pool → nested.layout.Fits →
      nested.layout.bytes.length ≤ depth → Reader.Complete entry Attribute.layout nested) :
    ofBytes depth entry name body.layout.bytes = .ok body := by
  unfold IsNamed at named
  split at named
  · next selecting isNamed =>
    subst named
    obtain ⟨read, found, taken⟩ := reader?_complete isNamed wellFormed fits enough complete
    have all := taken []
    rw [List.append_nil] at all
    simp [ofBytes, found, all]
  · next isRaw =>
    have kept : reader? depth entry name = none := reader?_eq_none_iff.2 named
    cases body with
    | raw content => simp [ofBytes, kept, layout, Layout.raw]
    | _ => cases isRaw

end AttributeBody

/-! ### Attributes -/

namespace Attribute

theorem read_sound (pool : Pool) (depth : Nat) :
    Reader.Sound (read pool depth) (WellFormed pool) layout := by
  induction depth with
  | zero => exact fun taken => absurd taken Reader.throw_ne_ok
  | succ depth ih =>
    intro input entry rest taken
    simp only [read, Reader.bind_eq_ok, Reader.pure_eq_ok, Reader.u2_eq_ok, Reader.u4_eq_ok,
      Reader.bytes_eq_ok, length_eq_toNat_iff, Reader.lift_eq_ok] at taken
    obtain ⟨name, _, rfl, size, _, rfl, content, _, ⟨⟨small, rfl⟩, rfl⟩, text, _, ⟨decoded, rfl⟩,
      body, _, ⟨made, rfl⟩, rfl, rfl⟩ := taken
    obtain ⟨named, inside, fits, rfl⟩ := AttributeBody.ofBytes_sound ih made
    refine ⟨.mk decoded named inside, ?_, ?_⟩
    · rw [layout, fits_append, fits_blob]
      exact ⟨fits_u2 _, fits, small⟩
    · simp [layout, blob]

/-- An attribute takes more bytes than what it holds, so their number is depth enough. -/
theorem read_complete {pool : Pool} {depth : Nat} {entry : Attribute}
    (wellFormed : entry.WellFormed pool) (fits : entry.layout.Fits)
    (enough : entry.layout.bytes.length ≤ depth) :
    Reader.Complete (read pool depth) layout entry := by
  induction depth generalizing entry with
  | zero =>
    cases wellFormed
    simp [layout] at enough
  | succ depth ih =>
    intro rest
    obtain @⟨name, body, text, decoded, named, inside⟩ := wellFormed
    simp only [layout, fits_append, fits_u2, fits_blob, true_and] at fits
    simp only [layout, bytes_append, List.length_append, length_u2, length_blob] at enough
    have made := AttributeBody.ofBytes_complete depth named inside fits.1 (by omega) ih
    simp only [read, Reader.bind_eq_ok, Reader.pure_eq_ok, Reader.u2_eq_ok, Reader.u4_eq_ok,
      Reader.bytes_eq_ok, length_eq_toNat_iff, Reader.lift_eq_ok, layout, blob, bytes_append,
      List.append_assoc]
    exact ⟨_, _, rfl, _, _, rfl, _, _, ⟨⟨fits.2, rfl⟩, rfl⟩, _, _, ⟨decoded, rfl⟩, _, _,
      ⟨made, rfl⟩, rfl, rfl⟩

theorem readTable_sound (pool : Pool) (depth : Nat) :
    Reader.Sound (readTable pool depth)
      (fun attributes => ∀ entry ∈ attributes, entry.WellFormed pool) tableLayout :=
  Reader.table_sound .attributes rfl (read_sound pool depth)

theorem readTable_complete {pool : Pool} (depth : Nat) {attributes : List Attribute}
    (wellFormed : ∀ entry ∈ attributes, entry.WellFormed pool)
    (fits : (tableLayout attributes).Fits)
    (enough : (tableLayout attributes).bytes.length ≤ depth) :
    Reader.Complete (readTable pool depth) tableLayout attributes := by
  obtain ⟨size, entriesFit⟩ := fits_table.1 fits
  refine Reader.table_complete .attributes size fun entry member =>
    read_complete (wellFormed entry member) (entriesFit entry member) ?_
  have part := length_le_entries layout member
  simp only [tableLayout, table, bytes_append, List.length_append] at enough
  omega

end Attribute

end Relabel.ClassFile
