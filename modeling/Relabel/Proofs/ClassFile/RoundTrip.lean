import Relabel.ClassFile.Basic
import Relabel.Proofs.ClassFile.AttributeLayout

/-!
# Round trips of class files

A class file is *well formed* when its pool and its attributes are. Whatever is parsed is well
formed, and its layout is what has been parsed, except for the number of slots of a pool without
entries: reading takes zero for one, writing always writes one. In the other direction, a
well-formed class file is either refused because a part of it is too large, or it is written to
bytes that are parsed as the same class file.
-/

namespace Relabel

namespace ClassFile

open Layout

/-! ## Members -/

/-- The layout of a field or method. -/
def Member.layout (member : Member) : Layout :=
  u2 member.accessFlags ++ u2 member.name ++ u2 member.descriptor ++
    Attribute.tableLayout member.attributes

theorem Member.write_eq_emit (member : Member) (out : Output) :
    write out member = member.layout.emit out := by
  simp only [write, layout, emit_append, emit_u2, Attribute.writeTable_eq_emit]

/-- The attributes of a member are well formed. -/
def Member.WellFormed (pool : Pool) (member : Member) : Prop :=
  ∀ entry ∈ member.attributes, entry.WellFormed pool

theorem Member.read_sound (pool : Pool) (depth : Nat) :
    Reader.Sound (read pool depth) (WellFormed pool) layout := by
  intro input member rest taken
  simp only [read, Reader.bind_eq_ok, Reader.pure_eq_ok, Reader.u2_eq_ok] at taken
  obtain ⟨accessFlags, _, rfl, name, _, rfl, descriptor, _, rfl, attributes, _, taken, rfl, rfl⟩ :=
    taken
  obtain ⟨inside, fits, rfl⟩ := Attribute.readTable_sound pool depth taken
  exact ⟨inside, by simp [layout, fits], by simp [layout]⟩

theorem Member.read_complete {pool : Pool} {depth : Nat} {member : Member}
    (wellFormed : member.WellFormed pool) (fits : member.layout.Fits)
    (enough : member.layout.bytes.length ≤ depth) :
    Reader.Complete (read pool depth) layout member := by
  intro rest
  rw [layout, fits_append] at fits
  have attributes := Attribute.readTable_complete depth wellFormed fits.2 (by
    simp only [layout, bytes_append, List.length_append] at enough
    omega)
  simp only [read, Reader.bind_eq_ok, Reader.pure_eq_ok, Reader.u2_eq_ok, layout, bytes_append,
    List.append_assoc]
  exact ⟨_, _, rfl, _, _, rfl, _, _, rfl, _, _, attributes rest, rfl, rfl⟩

/-! ## Class files -/

/-- What stands in front of the constant pool. -/
def header (file : ClassFile) : Layout :=
  u4 magic ++ u2 file.minorVersion ++ u2 file.majorVersion

/-- What stands behind the constant pool. -/
def content (file : ClassFile) : Layout :=
  u2 file.accessFlags ++ u2 file.thisClass ++ u2 file.superClass ++
    table .interfaces u2 file.interfaces ++ table .fields Member.layout file.fields ++
    table .methods Member.layout file.methods ++ Attribute.tableLayout file.attributes

/-- The layout of a class file. -/
def layout (file : ClassFile) : Layout := file.header ++ file.pool.layout ++ file.content

theorem write_eq_emit (file : ClassFile) (out : Output) : file.write out = file.layout.emit out := by
  have bound (front back : Layout) :
      (front ++ back).emit = fun out => front.emit out >>= back.emit := by
    funext out
    rw [emit_append]
    cases front.emit out <;> rfl
  simp only [write, layout, header, content, bound, bind_assoc, emit_u4, emit_u2,
    Pool.write_eq_emit, ← emit_table .interfaces rfl writeIndex_eq_emit,
    ← emit_table .fields rfl Member.write_eq_emit,
    ← emit_table .methods rfl Member.write_eq_emit, Attribute.writeTable_eq_emit]
  rfl

/-- Writing refuses the first part that is too large, and gives the bytes of the layout if there is
none. -/
theorem toBytes_eq (file : ClassFile) :
    file.toBytes =
      match file.layout.tooLarge? with
      | some part => .error (.tooLarge part)
      | none => .ok file.layout.bytes := by
  rw [toBytes, write_eq_emit, emit]
  cases file.layout.tooLarge? <;> simp [Except.map]

/-- The pool and all attributes of a class file are well formed. -/
structure WellFormed (file : ClassFile) : Prop where
  pool : file.pool.WellFormed
  fields : ∀ field ∈ file.fields, field.WellFormed file.pool
  methods : ∀ method ∈ file.methods, method.WellFormed file.pool
  attributes : ∀ entry ∈ file.attributes, entry.WellFormed file.pool

theorem read_sound {depth : Nat} {input rest : Bytes} {file : ClassFile}
    (taken : read depth input = .ok (file, rest)) :
    file.WellFormed ∧ file.layout.Fits ∧ ∃ count : UInt16, file.pool.size = max count.toNat 1 ∧
      input = file.header.bytes ++ (u2 count).bytes ++
        (entries Constant.layout file.pool.slots.toList).bytes ++ file.content.bytes ++ rest := by
  simp only [read, Reader.bind_eq_ok, Reader.u4_eq_ok] at taken
  obtain ⟨first, _, rfl, taken⟩ := taken
  split at taken
  · simp only [Reader.bind_eq_ok] at taken
    obtain ⟨_, _, thrown, -⟩ := taken
    exact absurd thrown Reader.throw_ne_ok
  next isMagic =>
  obtain rfl : first = magic := Decidable.not_not.1 isMagic
  simp only [Reader.bind_eq_ok, Reader.pure_eq_ok, Reader.u2_eq_ok] at taken
  obtain ⟨minorVersion, _, rfl, majorVersion, _, rfl, pool, _, poolTaken,
    accessFlags, _, rfl, thisClass, _, rfl, superClass, _, rfl, interfaces, _, interfacesTaken,
    fields, _, fieldsTaken, methods, _, methodsTaken, attributes, _, attributesTaken, rfl, rfl⟩ :=
    taken
  obtain ⟨poolWellFormed, poolFits, count, poolSize, rfl⟩ := Pool.read_sound poolTaken
  obtain ⟨-, interfacesFit, rfl⟩ :=
    Reader.table_sound .interfaces rfl Reader.u2_sound interfacesTaken
  obtain ⟨fieldsWellFormed, fieldsFit, rfl⟩ :=
    Reader.table_sound .fields rfl (Member.read_sound pool depth) fieldsTaken
  obtain ⟨methodsWellFormed, methodsFit, rfl⟩ :=
    Reader.table_sound .methods rfl (Member.read_sound pool depth) methodsTaken
  obtain ⟨attributesWellFormed, attributesFit, rfl⟩ :=
    Attribute.readTable_sound pool depth attributesTaken
  refine ⟨⟨poolWellFormed, fieldsWellFormed, methodsWellFormed, attributesWellFormed⟩, ?_, count,
    poolSize, ?_⟩
  · simp only [layout, header, content, fits_append, fits_u4, fits_u2]
    exact ⟨⟨by simp, poolFits⟩, ⟨⟨⟨by simp, interfacesFit⟩, fieldsFit⟩, methodsFit⟩, attributesFit⟩
  · simp [header, content]

theorem read_complete {depth : Nat} {file : ClassFile} (wellFormed : file.WellFormed)
    (fits : file.layout.Fits) (enough : file.layout.bytes.length ≤ depth) :
    Reader.Complete (read depth) layout file := by
  intro rest
  simp only [layout, content, fits_append] at fits
  obtain ⟨⟨-, poolFits⟩, ⟨⟨⟨-, interfacesFit⟩, fieldsFit⟩, methodsFit⟩, attributesFit⟩ := fits
  simp only [layout, content, bytes_append, List.length_append] at enough
  have pool := Pool.read_complete wellFormed.pool poolFits
  have interfaces := Reader.table_complete .interfaces (fits_table.1 interfacesFit).1
    fun entry _ => Reader.u2_complete entry
  have members (part : Part) (limit : part.limit = 65535) {members : List Member}
      (inside : ∀ member ∈ members, member.WellFormed file.pool)
      (membersFit : (table part Member.layout members).Fits)
      (membersEnough : (table part Member.layout members).bytes.length ≤ depth) :
      Reader.Complete (Reader.table (Member.read file.pool depth)) (table part Member.layout)
        members := by
    obtain ⟨size, eachFits⟩ := fits_table.1 membersFit
    refine Reader.table_complete part (limit ▸ size) fun member isMember =>
      Member.read_complete (inside member isMember) (eachFits member isMember) ?_
    have part := length_le_entries Member.layout isMember
    simp only [table, bytes_append, List.length_append] at membersEnough
    omega
  have fields := members .fields rfl wellFormed.fields fieldsFit (by omega)
  have methods := members .methods rfl wellFormed.methods methodsFit (by omega)
  have attributes := Attribute.readTable_complete depth wellFormed.attributes
    attributesFit (by omega)
  simp only [read, Reader.bind_eq_ok, Reader.u4_eq_ok, layout, header, content, bytes_append,
    List.append_assoc]
  refine ⟨magic, _, rfl, ?_⟩
  simp only [ne_eq, not_true_eq_false, if_false, Reader.bind_eq_ok, Reader.pure_eq_ok,
    Reader.u2_eq_ok]
  exact ⟨_, _, rfl, _, _, rfl, _, _, pool _, _, _, rfl, _, _, rfl, _, _, rfl, _, _, interfaces _,
    _, _, fields _, _, _, methods _, _, _, attributes rest, rfl, rfl⟩

/-! ## Parsing what has been written -/

/-- What is parsed is well formed, and all of the bytes are its layout, except for the number of
slots. -/
theorem parse_sound {bytes : Bytes} {file : ClassFile} (parsed : parse bytes = .ok file) :
    file.WellFormed ∧ file.layout.Fits ∧ ∃ count : UInt16, file.pool.size = max count.toNat 1 ∧
      bytes = file.header.bytes ++ (u2 count).bytes ++
        (entries Constant.layout file.pool.slots.toList).bytes ++ file.content.bytes := by
  unfold parse at parsed
  split at parsed
  · cases parsed
  · next found taken =>
    cases parsed
    simpa only [List.append_nil] using read_sound taken
  · cases parsed

/-- Every slot of a parsed pool has an index, and editing keeps it so. -/
theorem size_pool_of_parse {bytes : Bytes} {file : ClassFile} (parsed : parse bytes = .ok file) :
    file.pool.size ≤ 65535 := by
  obtain ⟨-, -, count, size, -⟩ := parse_sound parsed
  have := count.toNat_lt
  omega

theorem parse_complete {file : ClassFile} (wellFormed : file.WellFormed) (fits : file.layout.Fits) :
    parse file.layout.bytes = .ok file := by
  have taken := read_complete wellFormed fits (Nat.le_refl _) []
  rw [List.append_nil] at taken
  simp [parse, taken]

/-- A well-formed class file is refused just if one of its parts is too large, and otherwise it is
written to bytes that are parsed as the same class file. -/
theorem toBytes_of_wellFormed {file : ClassFile} (wellFormed : file.WellFormed) :
    ((∃ part, file.toBytes = .error (.tooLarge part)) ↔
        ∃ size ∈ file.layout.sizes, size.1.limit < size.2) ∧
      ((∀ size ∈ file.layout.sizes, size.2 ≤ size.1.limit) →
        ∃ bytes, file.toBytes = .ok bytes ∧ parse bytes = .ok file) := by
  rw [toBytes_eq]
  constructor
  · cases refused : file.layout.tooLarge? with
    | none =>
      have fits := tooLarge?_eq_none_iff.1 refused
      constructor
      · rintro ⟨part, ⟨⟩⟩
      · rintro ⟨size, member, large⟩
        exact absurd (fits size member) (by omega)
    | some part =>
      obtain ⟨size, found, -⟩ := Option.map_eq_some_iff.1 refused
      refine ⟨fun _ => ⟨size, List.mem_of_find?_eq_some found, ?_⟩, fun _ => ⟨part, rfl⟩⟩
      simpa using List.find?_some found
  · intro fits
    rw [tooLarge?_eq_none_iff.2 fits]
    exact ⟨_, rfl, parse_complete wellFormed fits⟩

theorem raw_attribute_round_trip :
    let file : ClassFile :=
      { minorVersion := 0, majorVersion := 52, pool := ⟨#[.unusable, .text [65]]⟩,
        accessFlags := 33, thisClass := 0, superClass := 0, interfaces := [], fields := [],
        methods := [], attributes := [⟨1, .raw [7]⟩] }
    file.WellFormed ∧ ∃ bytes, file.toBytes = .ok bytes ∧ parse bytes = .ok file := by
  intro file
  have parsed : parse [0xCA, 0xFE, 0xBA, 0xBE, 0, 0, 0, 52, 0, 2, 1, 0, 1, 65, 0, 33, 0, 0, 0, 0, 0,
      0, 0, 0, 0, 0, 0, 1, 0, 1, 0, 0, 0, 1, 7] = .ok file := rfl
  obtain ⟨wellFormed, fits, -⟩ := parse_sound parsed
  exact ⟨wellFormed, (toBytes_of_wellFormed wellFormed).2 fits⟩

/-! ## Writing what has been parsed -/

/-- Whether the number of pool slots, which stands behind the magic number and the version, is
zero. -/
def StatesNoSlots (bytes : Bytes) : Prop := (bytes.drop 8).take 2 = [0, 0]

/-- A parsed class file is written back byte for byte just if its number of pool slots is not given
as zero; otherwise one is written in its place. -/
theorem toBytes_of_parse {bytes : Bytes} {file : ClassFile} (parsed : parse bytes = .ok file) :
    (file.toBytes = .ok bytes ↔ ¬ StatesNoSlots bytes) ∧
      (StatesNoSlots bytes → file.toBytes = .ok (bytes.set 9 1)) := by
  obtain ⟨-, fits, count, size, bytesEq⟩ := parse_sound parsed
  have stated : (bytes.drop 8).take 2 = (u2 count).bytes := by
    rw [bytesEq]
    rfl
  have written : file.toBytes = .ok (file.header.bytes ++ (u2 (UInt16.ofNat file.pool.size)).bytes ++
      (entries Constant.layout file.pool.slots.toList).bytes ++ file.content.bytes) := by
    rw [toBytes_eq, tooLarge?_eq_none_iff.2 fits]
    simp [layout, Pool.layout, table, Layout.count, Pool.size]
  by_cases zero : count = 0
  · subst zero
    have none : StatesNoSlots bytes := stated
    have changed : file.toBytes = .ok (bytes.set 9 1) := by
      rw [written, size, bytesEq]
      rfl
    -- The bytes differ in the number of slots, which is behind the eight bytes of the header.
    refine ⟨⟨fun same => ?_, fun some => absurd none some⟩, fun _ => changed⟩
    rw [changed, bytesEq] at same
    simp [header, u4, u2, raw] at same
  -- Any other number is the number of slots that there are.
  · have same : UInt16.ofNat file.pool.size = count := by
      rw [← UInt16.toNat_inj, UInt16.toNat_ofNat', size]
      have := count.toNat_lt
      have : count.toNat ≠ 0 := fun isZero => zero (UInt16.toNat_inj.1 isZero)
      omega
    have some : ¬ StatesNoSlots bytes := by
      intro none
      have digits : (u2 count).bytes = [0, 0] := stated.symm.trans none
      have read : Reader.u2 [0, 0] = .ok (count, []) := Reader.u2_eq_ok.2 (by rw [digits]; rfl)
      have readZero : Reader.u2 [0, 0] = .ok (0, []) := rfl
      rw [readZero] at read
      exact zero (by simpa using read.symm)
    rw [written, same, ← bytesEq]
    simp [some]

/-- A class file whose number of pool slots is given as zero is parsed, but not reproduced. -/
theorem zero_slots_not_reproduced :
    ∃ bytes file, StatesNoSlots bytes ∧ parse bytes = .ok file ∧ file.toBytes ≠ .ok bytes :=
  ⟨[0xCA, 0xFE, 0xBA, 0xBE, 0, 0, 0, 52, 0, 0, 0, 33, 0, 0, 0, 0, 0, 0, 0, 0, 0, 0, 0, 0], _, rfl,
    rfl, nofun⟩

theorem raw_attribute_reproduced :
    let bytes :=
      [0xCA, 0xFE, 0xBA, 0xBE, 0, 0, 0, 52, 0, 2, 1, 0, 1, 65, 0, 33, 0, 0, 0, 0, 0, 0, 0, 0, 0, 0,
        0, 1, 0, 1, 0, 0, 0, 1, 7]
    ∃ file, parse bytes = .ok file ∧ file.toBytes = .ok bytes :=
  ⟨_, rfl, (toBytes_of_parse rfl).1.2 nofun⟩

end ClassFile

end Relabel
