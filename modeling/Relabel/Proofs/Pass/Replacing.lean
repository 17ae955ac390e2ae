import Relabel.Pass.Reference
import Relabel.Proofs.ClassFile.Bytecode
import Relabel.Proofs.ClassFile.PoolEdits
import Relabel.Proofs.Pass.Detaching

/-!
# Replacing a loaded string

A string that a load shares with something else is left alone, and the load gets a new one, unless
its single byte cannot hold the index of a new entry. Then the shared string is redirected, and all
that refers to it sees the new text.
-/

namespace Relabel.Pass

open ClassFile

/-! ## Counting references -/

/-- How many arguments in an attribute are an index. -/
def argumentCount (index : UInt16) (entry : Attribute) : Nat :=
  match bootstrapMethods? entry with
  | some methods => (methods.map (·.arguments.count index)).sum
  | none => 0

/-- How many instructions of a code refer to an index. -/
def loadCount (index : UInt16) (code : Code) : Nat :=
  (Bytecode.decode code.bytes).instructions.countP (·.constantIndex? = some index)

/-- How often the first codes of methods refer to an index. -/
def loadsIn (index : UInt16) (methods : List Member) : Nat :=
  ((methods.filterMap (·.code?)).map (loadCount index)).sum

theorem foldl_add_eq {α : Type} (size : α → Nat) (values : List α) (start : Nat) :
    values.foldl (fun count value => count + size value) start =
      start + (values.map size).sum := by
  induction values generalizing start with
  | nil => simp
  | cons value rest ih => simp [ih, Nat.add_assoc]

theorem foldl_arguments_eq (index : UInt16) (attributes : List Attribute) (start : Nat) :
    attributes.foldl (fun count entry =>
      match entry.body with
      | .bootstrapMethods methods =>
        methods.foldl (fun count method => count + method.arguments.count index) count
      | _ => count) start = start + (attributes.map (argumentCount index)).sum := by
  induction attributes generalizing start with
  | nil => simp
  | cons entry rest ih =>
    rw [List.foldl_cons, ih, List.map_cons, List.sum_cons, ← Nat.add_assoc]
    congr 1
    obtain ⟨name, body⟩ := entry
    cases body with
    | bootstrapMethods methods => exact foldl_add_eq _ methods start
    | _ => rfl

theorem foldlM_codes_eq_ok {index : UInt16} {codes : List Code} {start result : Nat}
    (run : codes.foldlM (fun count code => do
      let decoded := Bytecode.decode code.bytes
      match decoded.fault with
      | some fault => throw fault
      | none => return count + decoded.instructions.countP (·.constantIndex? = some index)) start =
        (.ok result : Except Fault Nat)) :
    result = start + (codes.map (loadCount index)).sum := by
  induction codes generalizing start with
  | nil =>
    cases run
    simp
  | cons code rest ih =>
    rw [List.foldlM_cons, Editing.except_bind_eq_ok] at run
    obtain ⟨middle, head, tail⟩ := run
    cases faulty : (Bytecode.decode code.bytes).fault with
    | some fault =>
      simp only [faulty] at head
      cases head
    | none =>
      simp only [faulty] at head
      cases head
      rw [ih tail, List.map_cons, List.sum_cons, ← Nat.add_assoc]
      rfl

/-- The references to an entry are those of fields, of code and of bootstrap arguments. -/
theorem referenceCount_eq_ok {file : ClassFile} {index : UInt16} {count : Nat}
    (run : referenceCount file index = .ok count) :
    count = file.fields.countP (fun field => field.constantValue? = some index) +
      loadsIn index file.methods + (file.attributes.map (argumentCount index)).sum := by
  simp only [referenceCount, Editing.except_bind_eq_ok] at run
  obtain ⟨inCode, codesRun, counted⟩ := run
  cases counted
  have inArguments := foldl_arguments_eq index file.attributes 0
  rw [foldlM_codes_eq_ok codesRun, Nat.zero_add] at *
  exact congrArg _ inArguments

/-! ## Loads -/

/-- The instructions in the first code of a method. -/
def instructions? (file : ClassFile) (method : Nat) : Option Decoded := do
  let member ← file.methods[method]?
  let code ← member.code?
  return Bytecode.decode code.bytes

theorem instructions?_eq_some_iff {file : ClassFile} {method : Nat} {decoded : Decoded} :
    instructions? file method = some decoded ↔
      ∃ member code, file.methods[method]? = some member ∧ member.code? = some code ∧
        Bytecode.decode code.bytes = decoded := by
  simp only [instructions?, Option.bind_eq_bind, Option.bind_eq_some_iff, Option.pure_def,
    Option.some.injEq, exists_and_left]

/-- The instruction that a string was loaded by. -/
structure IsLoadOf (loaded : LoadedString) (i : Instruction) : Prop where
  offset : loaded.offset = i.offset
  opcode : loaded.opcode = i.opcode
  isLoad : i.isLoad
  index : i.constantIndex? = some loaded.index

theorem pos_of_argumentAt? {attributes : List Attribute} {entry method argument : Nat}
    {index : UInt16} (found : argumentAt? attributes entry method argument = some index) :
    0 < (attributes.map (argumentCount index)).sum := by
  simp only [argumentAt?, Option.bind_eq_bind, Option.bind_eq_some_iff] at found
  obtain ⟨entry, isEntry, methods, areMethods, method, isMethod, isArgument⟩ := found
  have one : 0 < method.arguments.count index :=
    List.count_pos_iff.2 (List.mem_of_getElem? isArgument)
  have inMethods := List.le_sum_of_mem
    (List.mem_map_of_mem (f := (·.arguments.count index)) (List.mem_of_getElem? isMethod))
  have inAttributes := List.le_sum_of_mem
    (List.mem_map_of_mem (f := argumentCount index) (List.mem_of_getElem? isEntry))
  simp only [argumentCount, areMethods] at inAttributes
  omega

theorem pos_loadsIn {methods : List Member} {member : Member} {code : Code} {i : Instruction}
    {index : UInt16} (isMember : member ∈ methods) (isCode : member.code? = some code)
    (isInstruction : i ∈ (Bytecode.decode code.bytes).instructions)
    (isIndex : i.constantIndex? = some index) : 0 < loadsIn index methods := by
  have one : 0 < loadCount index code :=
    List.countP_pos_iff.2 ⟨i, isInstruction, by simpa using isIndex⟩
  have inCodes : code ∈ methods.filterMap (·.code?) :=
    List.mem_filterMap.2 ⟨member, isMember, isCode⟩
  exact one.trans_le (List.le_sum_of_mem (List.mem_map_of_mem inCodes))

theorem pos_of_instructions? {file : ClassFile} {method : Nat} {decoded : Decoded}
    {i : Instruction} {index : UInt16} (coded : instructions? file method = some decoded)
    (member : i ∈ decoded.instructions) (isIndex : i.constantIndex? = some index) :
    0 < loadsIn index file.methods := by
  obtain ⟨owner, code, isOwner, isCode, rfl⟩ := instructions?_eq_some_iff.1 coded
  exact pos_loadsIn (List.mem_of_getElem? isOwner) isCode member isIndex

/-- A string that is both loaded and a bootstrap argument has more than one reference. -/
theorem one_lt_referenceCount {file : ClassFile} {method : Nat} {decoded : Decoded}
    {i : Instruction} {index : UInt16} {count entry owner argument : Nat}
    (coded : instructions? file method = some decoded) (member : i ∈ decoded.instructions)
    (isIndex : i.constantIndex? = some index)
    (found : argumentAt? file.attributes entry owner argument = some index)
    (run : referenceCount file index = .ok count) : 1 < count := by
  have counted := referenceCount_eq_ok run
  have inCode := pos_of_instructions? coded member isIndex
  have inArguments := pos_of_argumentAt? found
  omega

/-! ## Changing a load -/

theorem findSome?_setCodeBytes {attributes : List Attribute} {code : Code} (bytes : Bytes)
    (found : (attributes.findSome? fun entry =>
      match entry.body with
      | .code code => some code
      | _ => none) = some code) :
    ((Member.setCodeBytes bytes attributes).findSome? fun entry =>
      match entry.body with
      | .code code => some code
      | _ => none) = some { code with bytes } := by
  induction attributes with
  | nil => cases found
  | cons entry rest ih =>
    obtain ⟨name, body⟩ := entry
    cases body with
    | code first =>
      cases found
      rfl
    | _ => exact ih found

theorem code?_withCodeBytes {member : Member} {code : Code} (found : member.code? = some code)
    (bytes : Bytes) : (member.withCodeBytes bytes).code? = some { code with bytes } :=
  findSome?_setCodeBytes bytes found

theorem withCodeBytes_withCodeBytes (member : Member) (first second : Bytes) :
    (member.withCodeBytes first).withCodeBytes second = member.withCodeBytes second := by
  have attributes (entries : List Attribute) :
      Member.setCodeBytes second (Member.setCodeBytes first entries) =
        Member.setCodeBytes second entries := by
    induction entries with
    | nil => rfl
    | cons entry rest ih =>
      obtain ⟨name, body⟩ := entry
      cases body with
      | code code => rfl
      | _ => exact congrArg (List.cons _) ih
  rw [Member.withCodeBytes, Member.withCodeBytes, attributes]
  rfl

theorem setCodeBytes_self {attributes : List Attribute} {code : Code}
    (found : (attributes.findSome? fun entry =>
      match entry.body with
      | .code code => some code
      | _ => none) = some code) :
    Member.setCodeBytes code.bytes attributes = attributes := by
  induction attributes with
  | nil => rfl
  | cons entry rest ih =>
    obtain ⟨name, body⟩ := entry
    cases body with
    | code first =>
      cases found
      cases code
      rfl
    | _ => exact congrArg (List.cons _) (ih found)

theorem withCodeBytes_self {member : Member} {code : Code} (found : member.code? = some code) :
    member.withCodeBytes code.bytes = member := by
  rw [Member.withCodeBytes, setCodeBytes_self found]

/-- Bytes that differ in a part of the same size are the same outside of it. -/
theorem getElem?_of_outside {before after : Bytes} (size : after.length = before.length)
    (front back : Bytes) {position : Nat}
    (outside : position < front.length ∨ front.length + before.length ≤ position) :
    (front ++ (after ++ back))[position]? = (front ++ (before ++ back))[position]? := by
  rcases outside with inFront | behind
  · rw [List.getElem?_append_left inFront, List.getElem?_append_left inFront]
  · rw [List.getElem?_append_right (by omega), List.getElem?_append_right (by omega),
      List.getElem?_append_right (by omega), List.getElem?_append_right (by omega), size]

/-- A changed index is in the operands of its instruction. -/
theorem operandsDiffer_of_setIndex? {code changed : Bytes} {front back : List Instruction}
    {i : Instruction} {index : UInt16}
    (decoded : Bytecode.decode code = ⟨front ++ i :: back, none⟩)
    (set : Bytecode.setIndex? code i.offset index = some changed) :
    OperandsDiffer [i] code changed := by
  obtain ⟨consecutive, rfl⟩ := Bytecode.decode_eq_iff.1 decoded
  obtain ⟨-, offsetEq, wellFormed, -⟩ := Bytecode.consecutive_append.1 consecutive
  rw [Bytecode.setIndex?_assemble consecutive] at set
  obtain ⟨other, made, rfl⟩ := Option.map_eq_some_iff.1 set
  obtain ⟨-, -, sameOpcode, sameSize, -⟩ := wellFormed.withIndex?_eq_some made
  -- The opcode stays, so that it belongs to what is in front of the operands.
  have split (j : Instruction) (sameOpcode : j.opcode = i.opcode) :
      Bytecode.assemble (front ++ j :: back) =
        (Bytecode.assemble front ++ [i.opcode]) ++ (j.operands ++ Bytecode.assemble back) := by
    simp [Bytecode.assemble_append_cons, Instruction.bytes, sameOpcode]
  rw [split i rfl, split other sameOpcode]
  refine ⟨by simp [sameSize], fun position outside => getElem?_of_outside sameSize _ _ ?_⟩
  have outside := outside i (List.mem_singleton.2 rfl)
  rw [List.length_append, List.length_singleton]
  omega

theorem LoadsDiffer.refl {file : ClassFile} {method : Nat} {decoded : Decoded}
    {loads : List Instruction} (coded : instructions? file method = some decoded)
    (areLoads : ∀ i ∈ loads, i ∈ decoded.instructions ∧ i.isLoad) :
    LoadsDiffer method loads file.methods file.methods := by
  obtain ⟨member, code, isMember, isCode, rfl⟩ := instructions?_eq_some_iff.1 coded
  refine ⟨member, code, code.bytes, isMember, isCode, areLoads, ⟨rfl, fun _ _ => rfl⟩, ?_⟩
  rw [withCodeBytes_self isCode]
  obtain ⟨inside, rfl⟩ := List.getElem?_eq_some_iff.1 isMember
  rw [List.set_getElem_self]

/-- Changes of loads one after the other, all of them in the code that was there at first. -/
theorem LoadsDiffer.trans {method : Nat} {first second : List Instruction}
    {old middle new : List Member} (front : LoadsDiffer method first old middle)
    (back : LoadsDiffer method second middle new)
    (inside : ∀ member code, old[method]? = some member → member.code? = some code →
      ∀ i ∈ second, i ∈ (Bytecode.decode code.bytes).instructions) :
    LoadsDiffer method (first ++ second) old new := by
  obtain ⟨member, code, bytes, isMember, isCode, areLoads, differ, rfl⟩ := front
  obtain ⟨member', code', bytes', isMember', isCode', areLoads', differ', rfl⟩ := back
  rw [List.getElem?_set_self (List.getElem?_eq_some_iff.1 isMember).1] at isMember'
  cases isMember'
  rw [code?_withCodeBytes isCode] at isCode'
  cases isCode'
  refine ⟨member, code, bytes', isMember, isCode, ?_, ⟨?_, ?_⟩, ?_⟩
  · intro i member
    rcases List.mem_append.1 member with inFirst | inSecond
    · exact areLoads i inFirst
    · exact ⟨inside _ _ isMember isCode i inSecond, (areLoads' i inSecond).2⟩
  · exact differ'.length.trans differ.length
  · intro position outside
    rw [List.forall_mem_append] at outside
    rw [differ'.kept position outside.2, differ.kept position outside.1]
  · rw [List.set_set, withCodeBytes_withCodeBytes]

/-- An index that fits can be put into a load, and all other instructions stay. -/
theorem setLoadIndex_eq {file : ClassFile} {method : Nat} {front back : List Instruction}
    {i : Instruction} (coded : instructions? file method = some ⟨front ++ i :: back, none⟩)
    (isLoad : i.isLoad) {index : UInt16} (hasIndex : i.constantIndex?.isSome)
    (fits : i.opcode = Opcode.ldc → index.toNat ≤ 255) :
    ∃ methods changed, setLoadIndex method i.offset index file = (.ok true, { file with methods }) ∧
      i.withIndex? index = some changed ∧
      instructions? { file with methods } method = some ⟨front ++ changed :: back, none⟩ ∧
      LoadsDiffer method [i] file.methods methods := by
  obtain ⟨member, code, isMember, isCode, decoded⟩ := instructions?_eq_some_iff.1 coded
  obtain ⟨possible, changes⟩ := Bytecode.setIndex?_of_decode decoded index
  obtain ⟨bytes, set⟩ := Option.isSome_iff_exists.1 (possible.2 ⟨hasIndex, fits⟩)
  obtain ⟨changed, isChanged, nowDecoded⟩ := changes bytes set
  have inside : method < file.methods.length := (List.getElem?_eq_some_iff.1 isMember).1
  refine ⟨file.methods.set method (member.withCodeBytes bytes), changed, ?_, isChanged, ?_, ?_⟩
  · have put : code.putIndex i.offset index = (true, { code with bytes }) :=
      Code.putIndex_eq_true_iff.2 ⟨set, rfl⟩
    simp [setLoadIndex, isMember, isCode, put]
  · exact instructions?_eq_some_iff.2 ⟨_, _, List.getElem?_set_self inside,
      code?_withCodeBytes isCode bytes, nowDecoded⟩
  · exact ⟨member, code, bytes, isMember, isCode, by simp [decoded, isLoad],
      operandsDiffer_of_setIndex? decoded set, rfl⟩

/-! ## Replacing -/

/-- Either the load gets a new string behind the entries of the pool, or the string that it loads is
redirected: if nothing else refers to it, or if its single byte cannot hold the new index. -/
theorem replaceString_eq_ok {method : Nat} {loaded : LoadedString} {value : String}
    {file after : ClassFile} {front back : List Instruction} {i : Instruction}
    (coded : instructions? file method = some ⟨front ++ i :: back, none⟩)
    (loads : IsLoadOf loaded i) (run : replaceString method loaded value file = (.ok (), after)) :
    ∃ references target grown, referenceCount file loaded.index = .ok references ∧
      Pool.addText value file.pool = (.ok target, grown) ∧
      ((1 < references ∧ (loaded.opcode ≠ Opcode.ldc ∨ grown.size ≤ 255) ∧
          grown.size < 65535 ∧ ∃ methods changed,
            after = { file with pool := grown.append (.string target), methods } ∧
            i.withIndex? (UInt16.ofNat grown.size) = some changed ∧
            instructions? after method = some ⟨front ++ changed :: back, none⟩ ∧
            LoadsDiffer method [i] file.methods methods) ∨
        (¬ (1 < references ∧ (loaded.opcode ≠ Opcode.ldc ∨ grown.size ≤ 255)) ∧
          Pool.redirect loaded.index target grown = (.ok (), after.pool) ∧
          after = { file with pool := after.pool })) := by
  simp only [replaceString, Editing.bind_eq_ok, Editing.get_eq_ok] at run
  obtain ⟨_, _, ⟨rfl, rfl⟩, run⟩ := run
  cases counted : referenceCount file loaded.index with
  | error fault =>
    simp only [counted] at run
    exact absurd run Editing.throw_ne_ok
  | ok references =>
    simp only [counted, Editing.bind_eq_ok, Editing.get_eq_ok, onPool_eq_ok] at run
    obtain ⟨target, _, ⟨grown, added, rfl⟩, _, _, ⟨rfl, rfl⟩, run⟩ := run
    refine ⟨references, target, grown, rfl, added, ?_⟩
    by_cases anew : 1 < references ∧ (loaded.opcode ≠ Opcode.ldc ∨ grown.size ≤ 255)
    · left
      simp only [if_pos anew, Editing.bind_eq_ok, onPool_eq_ok] at run
      obtain ⟨string, _, ⟨_, pushed, rfl⟩, run⟩ := run
      obtain ⟨room, rfl, rfl⟩ := (Pool.push_eq_ok_iff rfl).1 pushed
      -- A load that cannot hold the new index is not given one, so that setting it succeeds.
      have fits : i.opcode = Opcode.ldc → (UInt16.ofNat grown.size).toNat ≤ 255 := by
        intro isLdc
        have small := anew.2.resolve_left fun other => other (loads.opcode.trans isLdc)
        rw [UInt16.toNat_ofNat']
        omega
      have hasIndex : i.constantIndex?.isSome := by simp [loads.index]
      have coded' : instructions?
          { file with pool := grown.append (.string target) } method = _ := coded
      obtain ⟨methods, changed, set, isChanged, nowCoded, differ⟩ :=
        setLoadIndex_eq coded' loads.isLoad hasIndex fits
      rw [← loads.offset] at set
      obtain ⟨_, _, setRun, run⟩ := run
      rw [set] at setRun
      cases setRun
      simp only [if_true] at run
      obtain ⟨-, rfl⟩ := Editing.pure_eq_ok.1 run
      exact ⟨anew.1, anew.2, room, methods, changed, rfl, isChanged, nowCoded, differ⟩
    · right
      simp only [if_neg anew, onPool_eq_ok] at run
      obtain ⟨pool, moved, rfl⟩ := run
      exact ⟨anew, moved, rfl⟩

section

variable {method : Nat} {loaded : LoadedString} {value : String} {file after : ClassFile}
  {front back : List Instruction} {i : Instruction}

/-- Besides the pool, only the load itself changes. -/
theorem replaceString_frame (coded : instructions? file method = some ⟨front ++ i :: back, none⟩)
    (loads : IsLoadOf loaded i) (run : replaceString method loaded value file = (.ok (), after)) :
    Pool.Evolves file.pool after.pool ∧
      after = { file with pool := after.pool, methods := after.methods } ∧
      LoadsDiffer method [i] file.methods after.methods ∧
      ∃ changed, instructions? after method = some ⟨front ++ changed :: back, none⟩ := by
  obtain ⟨references, target, grown, -, added, outcome⟩ := replaceString_eq_ok coded loads run
  obtain ⟨grows, -, -⟩ := Pool.addText_eq_ok added
  rcases outcome with ⟨-, -, room, methods, changed, rfl, -, nowCoded, differ⟩ |
    ⟨-, moved, afterEq⟩
  · have appended : Pool.Grows grown (grown.append (.string target)) :=
      Pool.append_grows rfl trivial room
    exact ⟨(grows.trans appended).evolves, rfl, differ, changed, nowCoded⟩
  · refine ⟨grows.evolves.trans (Pool.redirect_evolves moved), ?_, ?_, i, ?_⟩
    · rw [afterEq]
    · rw [afterEq]
      exact .refl coded (by simp [loads.isLoad])
    · rw [afterEq]
      exact coded

/-- Whether replacing a loaded string redirects an entry that a bootstrap argument refers to as
well: it does if the operand of the load is a single byte, and the pool has no room for a new
string that this byte could refer to. -/
def Overwrites (loaded : LoadedString) (value : String) (pool : Pool) (index : UInt16) : Prop :=
  loaded.index = index ∧ loaded.opcode = Opcode.ldc ∧ 255 < (Pool.addText value pool).2.size

instance (loaded : LoadedString) (value : String) (pool : Pool) (index : UInt16) :
    Decidable (Overwrites loaded value pool index) :=
  inferInstanceAs (Decidable (_ ∧ _))

section

variable {pool grown : Pool} {target : UInt16}

/-- A string with other references that the load does not leave alone is overwritten. -/
theorem overwrites_of_crowded {references : Nat}
    (added : Pool.addText value pool = (.ok target, grown)) (shared : 1 < references)
    (crowded : ¬ (1 < references ∧ (loaded.opcode ≠ Opcode.ldc ∨ grown.size ≤ 255))) :
    Overwrites loaded value pool loaded.index := by
  have noRoom : ¬ (loaded.opcode ≠ Opcode.ldc ∨ grown.size ≤ 255) :=
    fun fits => crowded ⟨shared, fits⟩
  rw [not_or, Decidable.not_not, Nat.not_le] at noRoom
  refine ⟨rfl, noRoom.1, ?_⟩
  rw [added]
  exact noRoom.2

theorem not_overwrites_of_room
    (room : loaded.opcode = Opcode.ldc → (Pool.addText value pool).2.size ≤ 255)
    (index : UInt16) : ¬ Overwrites loaded value pool index := by
  rintro ⟨-, isLdc, large⟩
  exact absurd large (Nat.not_lt.2 (room isLdc))

theorem not_overwrites_of_fits (added : Pool.addText value pool = (.ok target, grown))
    (fits : loaded.opcode ≠ Opcode.ldc ∨ grown.size ≤ 255) (index : UInt16) :
    ¬ Overwrites loaded value pool index := by
  refine not_overwrites_of_room (fun isLdc => ?_) index
  rw [added]
  exact fits.resolve_left (absurd isLdc)

end

/-- An entry that something else than the load refers to stays, or it refers to the new text. -/
theorem replaceString_entry (bounded : file.pool.size ≤ 65535)
    (coded : instructions? file method = some ⟨front ++ i :: back, none⟩)
    (loads : IsLoadOf loaded i) (run : replaceString method loaded value file = (.ok (), after))
    {index : UInt16}
    (shared : loaded.index = index → ∀ {references},
      referenceCount file index = .ok references → 1 < references) :
    if Overwrites loaded value file.pool index then
      ∃ target, after.pool.get index = .ok (.string target) ∧
        after.pool.get target = .ok (.text (ModifiedUtf8.encode value))
    else ∀ constant, file.pool.get index = .ok constant →
      after.pool.get index = .ok constant := by
  obtain ⟨references, target, grown, counted, added, outcome⟩ :=
    replaceString_eq_ok coded loads run
  obtain ⟨grows, -, isTarget⟩ := Pool.addText_eq_ok added
  rcases outcome with ⟨-, fits, room, methods, changed, rfl, -⟩ | ⟨crowded, moved, -⟩
  · have appended : Pool.Grows grown (grown.append (.string target)) :=
      Pool.append_grows rfl trivial room
    rw [if_neg (not_overwrites_of_fits added fits index)]
    exact fun constant found => (grows.trans appended).get found
  · by_cases same : loaded.index = index
    · subst same
      -- The string has two references, so that only a lack of room is left.
      rw [if_pos (overwrites_of_crowded added (shared rfl counted) crowded)]
      have isText := (Pool.redirect_evolves moved).get (isTarget bounded) rfl
      exact ⟨target, Pool.get_redirect moved, isText⟩
    · rw [if_neg fun overwritten => same overwritten.1]
      intro constant found
      rw [Pool.get_redirect_of_ne moved (Ne.symm same)]
      exact grows.get found

/-- An entry that a bootstrap argument refers to stays, or it refers to the new text. -/
theorem replaceString_argument (bounded : file.pool.size ≤ 65535)
    (coded : instructions? file method = some ⟨front ++ i :: back, none⟩)
    (loads : IsLoadOf loaded i) (run : replaceString method loaded value file = (.ok (), after))
    {entry owner argument : Nat} {index : UInt16}
    (isArgument : argumentAt? file.attributes entry owner argument = some index) :
    if Overwrites loaded value file.pool index then
      ∃ target, after.pool.get index = .ok (.string target) ∧
        after.pool.get target = .ok (.text (ModifiedUtf8.encode value))
    else ∀ constant, file.pool.get index = .ok constant →
      after.pool.get index = .ok constant := by
  refine replaceString_entry bounded coded loads run fun same references counted => ?_
  subst same
  exact one_lt_referenceCount coded (by simp) loads.index isArgument counted

end

end Relabel.Pass
