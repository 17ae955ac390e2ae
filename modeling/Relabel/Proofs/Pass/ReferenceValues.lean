import Relabel.Proofs.Pass.BootstrapArguments
import Relabel.Proofs.Pass.RenamedMembers

/-!
# Values around a callable reference

A string that is loaded is replaced in one of two ways. If nothing else refers to it, it is
redirected; otherwise the load gets a string of its own. So nothing else sees the new text, as long
as the operand of the load can hold the index of a new entry: it can if it has two bytes, or if the
pool is small enough.
-/

namespace Relabel

namespace ClassFile.Pool

/-- A pool grows by at most one entry when a text is added. -/
theorem size_addText (value : String) (pool : Pool) :
    pool.size ≤ (addText value pool).2.size ∧ (addText value pool).2.size ≤ pool.size + 1 := by
  unfold addText
  simp only
  split
  · exact ⟨Nat.le_refl _, Nat.le_succ _⟩
  · split
    · exact ⟨Nat.le_refl _, Nat.le_succ _⟩
    · unfold push
      by_cases room : pool.size + 1 ≤ 65535
      · have grown : (pool.append (.text (ModifiedUtf8.encode value))).size = pool.size + 1 :=
          size_append rfl
        simp [Constant.isWide, room, grown]
      · simp [Constant.isWide, room]

/-- A string that is redirected to a text which has been added has this text. -/
theorem string_of_redirect {value : String} {pool grown after : Pool} {target index : UInt16}
    (bounded : pool.size ≤ 65535) (added : addText value pool = (.ok target, grown))
    (moved : redirect index target grown = (.ok (), after)) : after.string index = .ok value := by
  obtain ⟨-, -, isTarget⟩ := addText_eq_ok added
  have isText := (redirect_evolves moved).text (text_of_encode (isTarget bounded))
  exact string_eq_ok_iff.2 ⟨target, get_redirect moved, isText⟩

end ClassFile.Pool

namespace Pass

open ClassFile

/-! ## Denoting -/

/-- What an index denoted before, another one denotes afterwards: the same entry, with the same
bytes if it is a string. -/
structure SameValue (old new : Pool) (before after : UInt16) : Prop where
  entry : Kept old new before after
  bytes : ∀ {bytes}, HasBytes old before bytes → HasBytes new after bytes

theorem Kept.trans {old middle new : Pool} {before between after : UInt16}
    (first : Kept old middle before between) (second : Kept middle new between after) :
    Kept old new before after :=
  fun constant found => second constant (first constant found)

/-- The text of a string that is kept does not change either. -/
theorem Kept.sameValue {old new : Pool} (evolves : Pool.Evolves old new) {before after : UInt16}
    (kept : Kept old new before after) : SameValue old new before after where
  entry := kept
  bytes := by
    rintro bytes ⟨text, isString, isText⟩
    exact ⟨text, kept _ isString, evolves.get isText rfl⟩

/-- A site refers to the same entry as before, and the entry is as it was. -/
structure SiteKept (old new : ClassFile) (site : Site) : Prop where
  index : site.index? new = site.index? old
  entry : ∀ index, site.index? old = some index → Kept old.pool new.pool index index

theorem SiteKept.trans {old middle new : ClassFile} {site : Site}
    (first : SiteKept old middle site) (second : SiteKept middle new site) :
    SiteKept old new site where
  index := second.index.trans first.index
  entry index found :=
    (first.entry index found).trans (second.entry index (first.index.trans found))

theorem Kept.string {old new : Pool} {before after : UInt16} {value : String}
    (kept : Kept old new before after) (evolves : Pool.Evolves old new)
    (read : old.string before = .ok value) : new.string after = .ok value := by
  obtain ⟨text, isString, isText⟩ := Pool.string_eq_ok_iff.1 read
  exact Pool.string_eq_ok_iff.2 ⟨text, kept _ isString, evolves.text isText⟩

/-- What a site of a class file gives: the value of the string that it refers to. -/
def Gives (file : ClassFile) (site : Site) (value : String) : Prop :=
  ∃ index, site.index? file = some index ∧ file.pool.string index = .ok value

theorem Gives.later {old new : ClassFile} {site : Site} {value : String}
    (gives : Gives old site value) (kept : SiteKept old new site)
    (evolves : Pool.Evolves old.pool new.pool) : Gives new site value := by
  obtain ⟨index, found, read⟩ := gives
  exact ⟨index, kept.index.trans found, (kept.entry index found).string evolves read⟩

/-! ## Counting again -/

/-- Of two places in a list, the one is in front of the other or behind it. -/
theorem mem_of_getElem?_of_ne {α : Type} {front back : List α} {value other : α} {position : Nat}
    (found : (front ++ value :: back)[position]? = some other)
    (different : position ≠ front.length) : other ∈ front ∨ other ∈ back := by
  rcases Nat.lt_or_gt_of_ne different with before | behind
  · rw [List.getElem?_append_left before] at found
    exact .inl (List.mem_of_getElem? found)
  · rw [List.getElem?_append_right behind.le, List.getElem?_cons, if_neg (by omega)] at found
    exact .inr (List.mem_of_getElem? found)

/-- Two loads of one code that refer to an entry count twice. -/
theorem one_lt_loadCount {index : UInt16} {code : Code} {front back : List Instruction}
    {i other : Instruction} {position : Nat}
    (decoded : Bytecode.decode code.bytes = ⟨front ++ i :: back, none⟩)
    (isIndex : i.constantIndex? = some index)
    (found : (front ++ i :: back)[position]? = some other) (different : position ≠ front.length)
    (alsoIndex : other.constantIndex? = some index) : 1 < loadCount index code := by
  have counts (list : List Instruction) (member : other ∈ list) :
      0 < list.countP (·.constantIndex? = some index) :=
    List.countP_pos_iff.2 ⟨other, member, by simpa using alsoIndex⟩
  rw [loadCount, decoded, List.countP_append, List.countP_cons_of_pos (by simpa using isIndex)]
  rcases mem_of_getElem?_of_ne found different with inFront | inBack
  · have := counts front inFront
    omega
  · have := counts back inBack
    omega

/-- A string that is loaded and stands at another site has more than one reference. -/
theorem one_lt_referenceCount_of_site {file : ClassFile} {method : Nat}
    {front back : List Instruction} {i : Instruction} {index : UInt16} {count : Nat} {site : Site}
    (coded : instructions? file method = some ⟨front ++ i :: back, none⟩)
    (isIndex : i.constantIndex? = some index) (found : site.index? file = some index)
    (different : site ≠ .load method front.length)
    (run : referenceCount file index = .ok count) : 1 < count := by
  have counted := referenceCount_eq_ok run
  -- The load that the string is for counts once, and the other site once more.
  cases site with
  | field position =>
    obtain ⟨field, isField, isValue⟩ := Option.bind_eq_some_iff.1 found
    have inFields : 0 < file.fields.countP (fun field => field.constantValue? = some index) :=
      List.countP_pos_iff.2 ⟨field, List.mem_of_getElem? isField, by simpa using isValue⟩
    have inCode := pos_of_instructions? coded (by simp) isIndex
    omega
  | load otherMethod position =>
    simp only [Site.index?, Option.bind_eq_bind, Option.bind_eq_some_iff] at found
    obtain ⟨otherCode, ⟨other, isOther, isOtherCode⟩, j, isInstruction, found⟩ := found
    split at found
    case isFalse => cases found
    case isTrue isLoad =>
      obtain ⟨member, code, isMember, isCode, decoded⟩ := instructions?_eq_some_iff.1 coded
      obtain ⟨inside, isHere⟩ := List.getElem?_eq_some_iff.1 isMember
      -- The methods are those in front of the one that loads the string, that one, and the rest.
      have split : file.methods =
          file.methods.take method ++ member :: file.methods.drop (method + 1) := by
        rw [← isHere, List.cons_getElem_drop_succ, List.take_append_drop]
      have total : loadsIn index file.methods =
          loadsIn index (file.methods.take method) + loadCount index code +
            loadsIn index (file.methods.drop (method + 1)) := by
        conv_lhs => rw [split]
        simp [loadsIn, isCode, Nat.add_assoc]
      have many : 1 < loadsIn index file.methods := by
        by_cases sameMethod : otherMethod = method
        · subst sameMethod
          cases isMember.symm.trans isOther
          cases isCode.symm.trans isOtherCode
          have different : position ≠ front.length := fun same => different (same ▸ rfl)
          rw [decoded] at isInstruction
          have := one_lt_loadCount decoded isIndex isInstruction different found
          omega
        · have one : 0 < loadCount index code := by
            refine List.countP_pos_iff.2 ⟨i, ?_, by simpa using isIndex⟩
            simp [decoded]
          have inside : method = (file.methods.take method).length := by simp; omega
          rw [split] at isOther
          have inInstructions := List.mem_of_getElem? isInstruction
          rcases mem_of_getElem?_of_ne isOther (inside ▸ sameMethod) with inFront | inBack
          · have := pos_loadsIn inFront isOtherCode inInstructions found
            omega
          · have := pos_loadsIn inBack isOtherCode inInstructions found
            omega
      omega

/-! ## Replacing a string -/

theorem Site.index?_load (file : ClassFile) (method position : Nat) :
    Site.index? file (.load method position) =
      (instructions? file method).bind fun decoded =>
        decoded.instructions[position]?.bind fun i =>
          if i.isLoad then i.constantIndex? else none := by
  simp [Site.index?, instructions?, Option.bind_assoc]

/-- An edit of one instruction leaves the others at their positions. -/
theorem getElem?_append_cons_of_ne {α : Type} {front back : List α} {position : Nat}
    (different : position ≠ front.length) (value other : α) :
    (front ++ value :: back)[position]? = (front ++ other :: back)[position]? := by
  simp only [List.getElem?_append, List.getElem?_cons]
  split
  · rfl
  · rw [if_neg (by omega), if_neg (by omega)]

/-- The sites of two class files agree where their fields and loads do. -/
theorem index?_eq_of_instructions? {old new : ClassFile} (fields : new.fields = old.fields)
    {method : Nat} {front back : List Instruction} {before after : Instruction}
    (coded : instructions? old method = some ⟨front ++ before :: back, none⟩)
    (nowCoded : instructions? new method = some ⟨front ++ after :: back, none⟩)
    (others : ∀ other ≠ method, instructions? new other = instructions? old other) {site : Site}
    (different : site ≠ .load method front.length) : site.index? new = site.index? old := by
  cases site with
  | field position => simp only [Site.index?, fields]
  | load other position =>
    rw [Site.index?_load, Site.index?_load]
    by_cases here : other = method
    · subst here
      have elsewhere : position ≠ front.length := fun same => different (same ▸ rfl)
      rw [coded, nowCoded]
      simp only [Option.bind_some]
      rw [getElem?_append_cons_of_ne elsewhere after before]
    · rw [others other here]

section

variable {method : Nat} {loaded : LoadedString} {value : String} {file after : ClassFile}
  {front back : List Instruction} {i : Instruction}

/-- The load gives the new text. Either it keeps its string, which then is overwritten or has no other
reference, or it has a new one. -/
theorem replaceString_index (bounded : file.pool.size ≤ 65535)
    (coded : instructions? file method = some ⟨front ++ i :: back, none⟩)
    (loads : IsLoadOf loaded i) (run : replaceString method loaded value file = (.ok (), after)) :
    ∃ index, Site.index? after (.load method front.length) = some index ∧
      after.pool.string index = .ok value ∧
      ((index = loaded.index ∧ ∀ site : Site, site ≠ .load method front.length →
          site.index? file = some index → Overwrites loaded value file.pool index) ∨
        (file.pool.size ≤ index.toNat ∧ ¬ Overwrites loaded value file.pool loaded.index)) := by
  obtain ⟨references, target, grown, counted, added, outcome⟩ :=
    replaceString_eq_ok coded loads run
  obtain ⟨grows, -, isTarget⟩ := Pool.addText_eq_ok added
  rcases outcome with ⟨-, fits, notFull, methods, changed, rfl, isChanged, nowCoded, -⟩ |
    ⟨crowded, moved, afterEq⟩
  · -- The load has a new string, and it is a load still.
    have appended : Pool.Grows grown (grown.append (.string target)) :=
      Pool.append_grows rfl trivial notFull
    have isString : (grown.append (.string target)).get (UInt16.ofNat grown.size) =
        .ok (.string target) := Pool.get_append nofun notFull
    obtain ⟨member, code, isMember, isCode, decoded⟩ := instructions?_eq_some_iff.1 coded
    obtain ⟨consecutive, -⟩ := Bytecode.decode_eq_iff.1 decoded
    obtain ⟨-, -, wellFormed, -⟩ := Bytecode.consecutive_append.1 consecutive
    obtain ⟨-, -, sameOpcode, -, newIndex⟩ := wellFormed.withIndex?_eq_some isChanged
    have isLoad : changed.isLoad := by
      rw [Instruction.isLoad, sameOpcode]
      exact loads.isLoad
    have isText := appended.get (isTarget bounded)
    refine ⟨UInt16.ofNat grown.size, ?_, ?_, .inr ⟨?_, not_overwrites_of_fits added fits _⟩⟩
    · rw [Site.index?_load, nowCoded]
      simp [isLoad, newIndex]
    · exact Pool.string_eq_ok_iff.2 ⟨target, isString, Pool.text_of_encode isText⟩
    · have larger := grows.size_le
      rw [UInt16.toNat_ofNat']
      omega
  · have nowCoded : instructions? after method = some ⟨front ++ i :: back, none⟩ := by
      rw [afterEq]
      exact coded
    refine ⟨loaded.index, ?_, Pool.string_of_redirect bounded added moved, .inl ⟨rfl, ?_⟩⟩
    · rw [Site.index?_load, nowCoded]
      simp [loads.isLoad, loads.index]
    · intro site different found
      -- The load and the site are two references, so that only a lack of room is left.
      have shared := one_lt_referenceCount_of_site coded loads.index found different counted
      exact overwrites_of_crowded added shared crowded

/-- Another site refers to the same entry as before. The entry is as it was, unless it is the one
that the load refers to, and there is no room for a new string that the load can refer to. -/
theorem replaceString_site (bounded : file.pool.size ≤ 65535)
    (coded : instructions? file method = some ⟨front ++ i :: back, none⟩)
    (loads : IsLoadOf loaded i) (run : replaceString method loaded value file = (.ok (), after))
    {site : Site} (different : site ≠ .load method front.length) :
    site.index? after = site.index? file ∧ ∀ index, site.index? file = some index →
      if Overwrites loaded value file.pool index then after.pool.string index = .ok value
      else Kept file.pool after.pool index index := by
  obtain ⟨-, afterEq, differ, changed, nowCoded⟩ := replaceString_frame coded loads run
  refine ⟨?_, fun index found => ?_⟩
  · -- No instruction but the load changes its index.
    refine index?_eq_of_instructions? ?_ coded nowCoded (fun other elsewhere => ?_) different
    · rw [afterEq]
    · obtain ⟨_, _, _, _, _, -, -, methodsEq⟩ := differ
      simp only [instructions?]
      rw [methodsEq, List.getElem?_set_ne (Ne.symm elsewhere)]
  · have shared : loaded.index = index → ∀ {references},
        referenceCount file index = .ok references → 1 < references := by
      rintro rfl references counted
      exact one_lt_referenceCount_of_site coded loads.index found different counted
    have entry := replaceString_entry bounded coded loads run shared
    by_cases overwritten : Overwrites loaded value file.pool index
    · rw [if_pos overwritten] at entry ⊢
      obtain ⟨target, isString, isText⟩ := entry
      exact Pool.string_eq_ok_iff.2 ⟨target, isString, Pool.text_of_encode isText⟩
    · rw [if_neg overwritten] at entry ⊢
      exact entry

/-- The load gives the new text, and all other sites are as they were, if there is room for a new
string that the load can refer to. -/
theorem replaceString_values (bounded : file.pool.size ≤ 65535)
    (coded : instructions? file method = some ⟨front ++ i :: back, none⟩)
    (loads : IsLoadOf loaded i) (run : replaceString method loaded value file = (.ok (), after))
    (room : loaded.opcode = Opcode.ldc → (Pool.addText value file.pool).2.size ≤ 255) :
    Gives after (.load method front.length) value ∧
      ∀ site, site ≠ .load method front.length → SiteKept file after site := by
  obtain ⟨index, atLoad, givesValue, -⟩ := replaceString_index bounded coded loads run
  refine ⟨⟨index, atLoad, givesValue⟩, fun site different => ?_⟩
  obtain ⟨sameIndex, entries⟩ := replaceString_site bounded coded loads run different
  refine ⟨sameIndex, fun index found => ?_⟩
  have entry := entries index found
  rwa [if_neg (not_overwrites_of_room room index)] at entry

/-- Arguments are not overwritten either. -/
theorem replaceString_keepsArguments (bounded : file.pool.size ≤ 65535)
    (coded : instructions? file method = some ⟨front ++ i :: back, none⟩)
    (loads : IsLoadOf loaded i) (run : replaceString method loaded value file = (.ok (), after))
    (room : loaded.opcode = Opcode.ldc → (Pool.addText value file.pool).2.size ≤ 255) :
    KeepsArguments file after := by
  obtain ⟨-, afterEq, -⟩ := replaceString_frame coded loads run
  have sameAttributes : after.attributes = file.attributes := by rw [afterEq]
  intro entry owner argument
  rw [sameAttributes]
  cases isArgument : argumentAt? file.attributes entry owner argument with
  | none => exact .none
  | some index =>
    have kept := replaceString_argument bounded coded loads run isArgument
    rw [if_neg (not_overwrites_of_room room index)] at kept
    exact .some kept

/-- There are at most two more entries, a text and a string. -/
theorem size_replaceString
    (coded : instructions? file method = some ⟨front ++ i :: back, none⟩)
    (loads : IsLoadOf loaded i) (run : replaceString method loaded value file = (.ok (), after)) :
    (Pool.addText value file.pool).2.size ≤ after.pool.size ∧
      after.pool.size ≤ file.pool.size + 2 := by
  obtain ⟨references, target, grown, -, added, outcome⟩ := replaceString_eq_ok coded loads run
  have textSize := Pool.size_addText value file.pool
  rw [added] at textSize ⊢
  rcases outcome with ⟨-, -, -, methods, changed, rfl, -⟩ | ⟨-, moved, -⟩
  · have stringSize : (grown.append (.string target)).size = grown.size + 1 :=
      Pool.size_append rfl
    simp only at textSize ⊢
    omega
  · have sameSize := Pool.size_redirect moved
    simp only at textSize ⊢
    omega

end

/-! ## Replacing the name and the signature -/

/-- Whether a load can be given a string of its own: its operand has two bytes, or the pool has few
enough entries for two more texts and two more strings. -/
def HasRoom (loaded : LoadedString) (pool : Pool) : Prop :=
  loaded.opcode = Opcode.ldcW ∨ pool.size ≤ 252

/-- Two loads in a row, of a name and of a signature, give new texts, and all other sites and all
bootstrap arguments have the values that they had. -/
structure Replaces (old new : ClassFile) (method position : Nat) (callable : Callable) : Prop where
  name : Gives new (.load method position) callable.name
  signature : Gives new (.load method (position + 1)) callable.signature
  sites : ∀ site : Site, site ≠ .load method position → site ≠ .load method (position + 1) →
    site.index? new = site.index? old ∧
      ∀ index, site.index? old = some index → SameValue old.pool new.pool index index
  arguments : ∀ entry method argument, Option.Rel (SameValue old.pool new.pool)
    (argumentAt? old.attributes entry method argument)
    (argumentAt? new.attributes entry method argument)

theorem HasRoom.small {loaded : LoadedString} {pool : Pool} (room : HasRoom loaded pool)
    (isLdc : loaded.opcode = Opcode.ldc) : pool.size ≤ 252 := by
  rcases room with isWide | small
  · rw [isLdc] at isWide
    cases isWide
  · exact small

theorem Recognised.replaces {file named after : ClassFile} {superName : String}
    {operands : Operands} {front back : List Instruction}
    {owner name signature number call : Instruction} {new : Callable}
    (form : Recognised file superName operands front owner name signature number call back)
    (bounded : file.pool.size ≤ 65535)
    (nameRun : replaceString operands.constructor operands.name new.name file = (.ok (), named))
    (signatureRun : replaceString operands.constructor operands.signature new.signature named =
      (.ok (), after))
    (nameRoom : HasRoom operands.name file.pool)
    (signatureRoom : HasRoom operands.signature file.pool) :
    Replaces file after operands.constructor (front.length + 1) new := by
  obtain ⟨changed, ⟨-, nameLoads, signatureLoads, coded, codedAgain⟩⟩ := form.replacing nameRun
  obtain ⟨nameEvolves, -⟩ := replaceString_frame coded nameLoads nameRun
  obtain ⟨signatureEvolves, -⟩ := replaceString_frame codedAgain signatureLoads signatureRun
  have evolves := nameEvolves.trans signatureEvolves
  -- The name takes up to two entries, so that there are at most 254 when the signature comes.
  have nameFits : operands.name.opcode = Opcode.ldc →
      (Pool.addText new.name file.pool).2.size ≤ 255 := by
    intro isLdc
    have small := nameRoom.small isLdc
    have grown := Pool.size_addText new.name file.pool
    omega
  have signatureFits : operands.signature.opcode = Opcode.ldc →
      (Pool.addText new.signature named.pool).2.size ≤ 255 := by
    intro isLdc
    have small := signatureRoom.small isLdc
    have nameGrown := size_replaceString coded nameLoads nameRun
    have grown := Pool.size_addText new.signature named.pool
    omega
  obtain ⟨givesName, nameOthers⟩ :=
    replaceString_values bounded coded nameLoads nameRun nameFits
  obtain ⟨givesSignature, signatureOthers⟩ := replaceString_values (nameEvolves.bounded bounded)
    codedAgain signatureLoads signatureRun signatureFits
  rw [List.length_append, List.length_singleton] at givesName nameOthers
  have secondPosition : ((front ++ [owner]) ++ [changed]).length = front.length + 1 + 1 := by simp
  rw [secondPosition] at givesSignature signatureOthers
  constructor
  case name => exact givesName.later (signatureOthers _ (by simp)) signatureEvolves
  case signature => exact givesSignature
  case sites =>
    intro site notName notSignature
    have kept := (nameOthers site notName).trans (signatureOthers site notSignature)
    exact ⟨kept.index, fun index found => (kept.entry index found).sameValue evolves⟩
  case arguments =>
    intro entry method argument
    have nameKept := replaceString_keepsArguments bounded coded nameLoads nameRun nameFits
    have signatureKept := replaceString_keepsArguments (nameEvolves.bounded bounded) codedAgain
      signatureLoads signatureRun signatureFits
    exact rel_imp (fun kept => kept.sameValue evolves)
      (nameKept.trans signatureKept entry method argument)

/-- What the pass does to the values of a class: nothing, or it replaces the name and the signature
that a callable reference passes to its superclass by those that the table renames them to. All
entries but strings stay, so that an index which is kept denotes the same constant. If both loads
have room, nothing else changes its value. -/
theorem relabelReference_values {table : SymbolTable} {file after : ClassFile} {changes : Changes}
    (bounded : file.pool.size ≤ 65535)
    (run : relabelReference table file = (.ok changes, after)) :
    (changes = {} ∧ after = file) ∨
      ∃ superName kind operands front owner name signature number call back new,
        changes = ⟨1⟩ ∧ file.isNested ∧ file.superName = .ok (some superName) ∧
          ReferenceKind.ofSuperclass? superName = some kind ∧
          Recognised file superName operands front owner name signature number call back ∧
          relabelCallable? table kind operands.owner
            ⟨operands.name.value, operands.signature.value⟩ = some new ∧
          Renames table operands.owner kind ⟨operands.name.value, operands.signature.value⟩ new ∧
          Pool.Evolves file.pool after.pool ∧
          (HasRoom operands.name file.pool → HasRoom operands.signature file.pool →
            Replaces file after operands.constructor (front.length + 1) new) := by
  obtain ⟨evolves, -⟩ := relabelReference_argument bounded run
  rcases relabelReference_eq_ok run with ⟨-, unchanged⟩ |
    ⟨operands, new, named, replaced, nameRun, signatureRun, oneChange⟩
  · exact .inl unchanged
  · obtain ⟨kind, referred, relabelled⟩ := replacement?_eq_some_iff.1 replaced
    obtain ⟨superName, superRun, isKind, isNested, recognised⟩ := reference?_eq_some referred
    obtain ⟨front, owner, name, signature, number, call, back, form⟩ :=
      operands?_eq_some recognised
    refine .inr ⟨superName, kind, operands, front, owner, name, signature, number, call, back, new,
      oneChange, isNested, superRun, isKind, form, relabelled,
      renames_of_relabelCallable? relabelled, evolves, ?_⟩
    exact form.replaces bounded nameRun signatureRun

/-- A reference to the method `h` of the class `a/B`, whose name is also the constant value of a
field. -/
def sharingReference : ClassFile where
  minorVersion := 0
  majorVersion := 52
  pool := ⟨#[.unusable, .text [65, 36, 49], .classRef 1,
    .text (ModifiedUtf8.encode "kotlin/jvm/internal/FunctionReferenceImpl"), .classRef 3,
    .text (ModifiedUtf8.encode "a/B"), .classRef 5, .text [104], .string 7,
    .text (ModifiedUtf8.encode "h(ILa/B;)[La/B;"), .string 9,
    .text (ModifiedUtf8.encode "<init>"), .text [40, 41, 86], .nameAndType 11 12,
    .memberRef .method 4 13, .text (ModifiedUtf8.encode "EnclosingMethod"),
    .text (ModifiedUtf8.encode "Code"), .text (ModifiedUtf8.encode "ConstantValue")]⟩
  accessFlags := 33
  thisClass := 2
  superClass := 4
  interfaces := []
  fields := [⟨8, 7, 7, [⟨17, .constantValue 8⟩]⟩]
  methods := [⟨0, 11, 12, [⟨16, .code
    ⟨4, 1, [0x12, 6, 0x12, 8, 0x12, 10, 0x03, 0xB7, 0, 14, 0xB1], [], []⟩⟩]⟩]
  attributes := [⟨15, .enclosingMethod 6 0⟩]

/-- Renames the class `a/B` to `c/D` and its method `h` to `k`. -/
def memberTable : SymbolTable :=
  .ofNames ((∅ : Names).insert "a/B" "c/D") ∅ ((∅ : Names).insert "a/B.h(ILa/B;)[La/B;" "k")

/-- The field keeps its value when the load that shared it gets a new one. -/
theorem relabelReference_values_of_sharingReference :
    ∃ after, relabelReference memberTable sharingReference = (.ok ⟨1⟩, after) ∧
      Site.index? after (.field 0) = some 8 ∧ HasBytes after.pool 8 [104] ∧
      ∃ method position new, Replaces sharingReference after method position new := by
  have bounded : sharingReference.pool.size ≤ 65535 := by decide
  have small : sharingReference.pool.size ≤ 252 := by decide
  have changed : (relabelReference memberTable sharingReference).1 = .ok ⟨1⟩ := by decide +kernel
  obtain ⟨after, run⟩ :
      ∃ after, relabelReference memberTable sharingReference = (.ok ⟨1⟩, after) := by
    rw [← changed]
    exact ⟨_, (Prod.eta _).symm⟩
  rcases relabelReference_values bounded run with ⟨unchanged, -⟩ | replaced
  · cases unchanged
  · obtain ⟨_, _, operands, front, _, _, _, _, _, _, new, -, -, -, -, -, -, -, -,
      replaces⟩ := replaced
    have replaces := replaces (.inr small) (.inr small)
    obtain ⟨sameIndex, sameValue⟩ := replaces.sites (.field 0) nofun nofun
    have atField : Site.index? sharingReference (.field 0) = some 8 := rfl
    have before : HasBytes sharingReference.pool 8 [104] := ⟨7, rfl, rfl⟩
    exact ⟨after, run, sameIndex.trans atField, (sameValue 8 atField).bytes before, _, _, _,
      replaces⟩

end Pass

end Relabel
