import Relabel.Proofs.Pass.Replacing

/-!
# The reference pass

The pass either leaves the class file as it is, or it replaces the name and then the signature that
the constructor of a callable reference loads.
-/

namespace Relabel.Pass

open ClassFile

/-! ## Recognising the constructor -/

theorem loadedConstant?_eq_some {pool : Pool} {i : Instruction} {constant : Constant}
    (run : loadedConstant? pool i = .ok (some constant)) :
    i.isLoad ∧ ∃ index, i.constantIndex? = some index ∧ pool.get index = .ok constant := by
  unfold loadedConstant? at run
  split at run
  · next isLoad =>
    split at run
    · next index isIndex =>
      cases found : pool.get index with
      | error fault =>
        rw [found] at run
        cases run
      | ok constant =>
        rw [found] at run
        cases run
        exact ⟨isLoad, index, isIndex, found⟩
    · cases run
  · cases run

/-- A loaded string has the value that its entry has. -/
theorem loadedString?_eq_some {pool : Pool} {i : Instruction} {loaded : LoadedString}
    (run : loadedString? pool i = .ok (some loaded)) :
    IsLoadOf loaded i ∧ pool.string loaded.index = .ok loaded.value := by
  simp only [loadedString?, Editing.except_bind_eq_ok] at run
  obtain ⟨constant?, constantRun, run⟩ := run
  split at run
  · next text =>
    obtain ⟨value, read, made⟩ := Editing.except_bind_eq_ok.1 run
    cases made
    obtain ⟨isLoad, index, isIndex, found⟩ := loadedConstant?_eq_some constantRun
    have same : i.constantIndex?.getD 0 = index := by rw [isIndex, Option.getD_some]
    refine ⟨⟨rfl, rfl, isLoad, ?_⟩, Pool.string_eq_ok_iff.2 ⟨text, ?_, read⟩⟩
    · rw [same]
      exact isIndex
    · rw [same]
      exact found
  · cases run

/-- The constructor is the first method that is called like one. -/
theorem constructorFrom?_eq_some {pool : Pool} {methods : List Member} {start position : Nat}
    {code : Code} (run : constructorFrom? pool start methods = .ok (some (position, code))) :
    ∃ before member rest, methods = before ++ member :: rest ∧ position = start + before.length ∧
      pool.text member.name = .ok "<init>" ∧ member.code? = some code ∧
      ∀ other ∈ before, ∃ name, pool.text other.name = .ok name ∧ name ≠ "<init>" := by
  induction methods generalizing start with
  | nil => cases run
  | cons method rest ih =>
    rw [constructorFrom?] at run
    split at run
    · cases run
    · next name named =>
      split at run
      · next isConstructor =>
        obtain ⟨found, isCode, same⟩ := Option.map_eq_some_iff.1 (Except.ok.inj run)
        cases same
        exact ⟨[], method, rest, rfl, rfl, isConstructor ▸ named, isCode, nofun⟩
      · next isOther =>
        -- A method with another name is one more before the constructor.
        obtain ⟨before, member, after, rfl, rfl, rest⟩ := ih run
        obtain ⟨memberNamed, isCode, others⟩ := rest
        refine ⟨method :: before, member, after, rfl, ?_, memberNamed, isCode, ?_⟩
        · rw [List.length_cons]
          omega
        · rintro other (_ | ⟨_, member⟩)
          · exact ⟨name, named, isOther⟩
          · exact others other member

theorem isFirstConstructor_of_constructorFrom? {pool : Pool} {methods : List Member}
    {position : Nat} {code : Code}
    (run : constructorFrom? pool 0 methods = .ok (some (position, code))) :
    IsFirstConstructor pool methods position ∧
      ∃ member, methods[position]? = some member ∧ member.code? = some code := by
  obtain ⟨before, member, rest, rfl, positionEq, named, isCode, others⟩ :=
    constructorFrom?_eq_some run
  rw [Nat.zero_add] at positionEq
  subst positionEq
  have isMember : (before ++ member :: rest)[before.length]? = some member := by simp
  refine ⟨⟨⟨member, isMember, named⟩, ?_⟩, member, isMember, isCode⟩
  intro earlier inside other isOther
  rw [List.getElem?_append_left inside] at isOther
  exact others other (List.mem_of_getElem? isOther)

/-- The call is the first one of a constructor, and four instructions stand right before it. -/
theorem beforeCall?_eq_some {pool : Pool} {owner : String} {before rest : List Instruction}
    {a b c d : Instruction} (run : beforeCall? pool owner before rest = .ok (some (a, b, c, d))) :
    ∃ passed call back front, rest = passed ++ call :: back ∧
      before.reverse ++ passed = front ++ [a, b, c, d] ∧
      isConstructorCall pool owner call = .ok true ∧
      ∀ i ∈ passed, isConstructorCall pool owner i = .ok false := by
  induction rest generalizing before with
  | nil => cases run
  | cons i rest ih =>
    unfold beforeCall? at run
    cases called : isConstructorCall pool owner i with
    | error fault =>
      rw [called] at run
      cases run
    | ok isCall =>
      simp only [called] at run
      cases isCall with
      | true =>
        simp only at run
        -- The instructions passed so far are kept the last one first.
        split at run
        · next front =>
          cases run
          exact ⟨[], i, rest, front.reverse, rfl, by simp, called, nofun⟩
        · cases run
      | false =>
        obtain ⟨passed, call, back, front, rfl, split, isCall, others⟩ := ih run
        refine ⟨i :: passed, call, back, front, rfl, by simpa using split, isCall, ?_⟩
        rintro other (_ | ⟨_, member⟩)
        · exact called
        · exact others other member

/-- What a recognised constructor looks like: the first call of the constructor of the superclass,
and right before it the loads of the owner, the name, the signature, and a number. -/
structure Recognised (file : ClassFile) (superName : String) (operands : Operands)
    (front : List Instruction) (owner name signature number call : Instruction)
    (back : List Instruction) : Prop where
  coded : instructions? file operands.constructor =
    some ⟨front ++ owner :: name :: signature :: number :: call :: back, none⟩
  noEarlier : ∀ i ∈ front ++ [owner, name, signature, number],
    isConstructorCall file.pool superName i = .ok false
  owner : loadedClass? file.pool owner = .ok (some operands.owner)
  name : loadedString? file.pool name = .ok (some operands.name)
  signature : loadedString? file.pool signature = .ok (some operands.signature)
  number : isNumberLoad file.pool number = .ok true
  call : isConstructorCall file.pool superName call = .ok true
  isFirst : IsFirstConstructor file.pool file.methods operands.constructor

theorem operands?_eq_some {file : ClassFile} {superName : String} {operands : Operands}
    (run : operands? file superName = .ok (some operands)) :
    ∃ front owner name signature number call back,
      Recognised file superName operands front owner name signature number call back := by
  -- Each stage of the search that succeeds gives a field of the structure.
  simp only [operands?, Editing.except_bind_eq_ok] at run
  obtain ⟨constructor?, constructorRun, run⟩ := run
  split at run
  case h_2 => cases run
  case h_1 position code =>
    obtain ⟨isFirst, member, isMember, isCode⟩ :=
      isFirstConstructor_of_constructorFrom? constructorRun
    cases faulty : (Bytecode.decode code.bytes).fault with
    | some fault =>
      rw [faulty] at run
      cases run
    | none =>
      simp only [faulty, Editing.except_bind_eq_ok] at run
      obtain ⟨window?, windowRun, run⟩ := run
      split at run
      case h_2 => cases run
      case h_1 owner name signature number =>
        obtain ⟨passed, call, back, front, instructionsEq, split, isCall, others⟩ :=
          beforeCall?_eq_some windowRun
        rw [List.reverse_nil, List.nil_append] at split
        subst split
        obtain ⟨isNumber, numberRun, run⟩ := Editing.except_bind_eq_ok.1 run
        cases isNumber with
        | false => cases run
        | true =>
          simp only [if_true, Editing.except_bind_eq_ok] at run
          obtain ⟨ownerName?, ownerRun, run⟩ := run
          split at run
          case h_2 => cases run
          case h_1 ownerName =>
            simp only [Editing.except_bind_eq_ok] at run
            obtain ⟨name?, nameRun, signature?, signatureRun, run⟩ := run
            split at run
            case h_2 => cases run
            case h_1 loadedName loadedSignature =>
              cases run
              have decoded : Bytecode.decode code.bytes =
                  ⟨front ++ owner :: name :: signature :: number :: call :: back, none⟩ := by
                have sameInstructions : front ++ owner :: name :: signature :: number :: call ::
                    back = (Bytecode.decode code.bytes).instructions := by
                  simp [instructionsEq]
                rw [sameInstructions, ← faulty]
              exact ⟨front, owner, name, signature, number, call, back,
                instructions?_eq_some_iff.2 ⟨member, code, isMember, isCode, decoded⟩, others,
                ownerRun, nameRun, signatureRun, numberRun, isCall, isFirst⟩

theorem reference?_eq_some {file : ClassFile} {kind : ReferenceKind} {operands : Operands}
    (run : reference? file = .ok (some (kind, operands))) :
    ∃ superName, file.superName = .ok (some superName) ∧
      ReferenceKind.ofSuperclass? superName = some kind ∧ file.isNested ∧
      operands? file superName = .ok (some operands) := by
  simp only [reference?, Editing.except_bind_eq_ok] at run
  obtain ⟨superName?, superRun, run⟩ := run
  split at run
  case h_2 => cases run
  case h_1 superName =>
    split at run
    case h_2 => cases run
    case h_1 found isKind =>
      split at run
      case isTrue => cases run
      case isFalse isNested =>
        simp only [Editing.except_bind_eq_ok] at run
        obtain ⟨_, -, operands?, operandsRun, run⟩ := run
        split at run
        case h_2 => cases run
        case h_1 =>
          cases run
          exact ⟨superName, superRun, isKind, by simpa using isNested, operandsRun⟩

/-! ## The pass -/

/-- What the pass replaces the loaded name and signature by, if it replaces them. -/
def replacement? (table : SymbolTable) (file : ClassFile) : Option (Operands × Callable) :=
  match reference? file with
  | .ok (some (kind, operands)) =>
    (relabelCallable? table kind operands.owner
      ⟨operands.name.value, operands.signature.value⟩).map (operands, ·)
  | _ => none

theorem replacement?_eq_some_iff {table : SymbolTable} {file : ClassFile} {operands : Operands}
    {new : Callable} :
    replacement? table file = some (operands, new) ↔
      ∃ kind, reference? file = .ok (some (kind, operands)) ∧
        relabelCallable? table kind operands.owner
          ⟨operands.name.value, operands.signature.value⟩ = some new := by
  unfold replacement?
  split
  · next kind found referred =>
    simp only [referred, Option.map_eq_some_iff, Prod.mk.injEq]
    constructor
    · rintro ⟨_, relabelled, rfl, rfl⟩
      exact ⟨kind, rfl, relabelled⟩
    · rintro ⟨_, ⟨⟩, relabelled⟩
      exact ⟨new, relabelled, rfl, rfl⟩
  · next none =>
    refine ⟨nofun, ?_⟩
    rintro ⟨kind, referred, -⟩
    exact absurd referred (none kind operands)

/-- What the pass does: nothing, or two replacements that are one change. -/
theorem relabelReference_eq_ok {table : SymbolTable} {file after : ClassFile} {changes : Changes}
    (run : relabelReference table file = (.ok changes, after)) :
    (replacement? table file = none ∧ changes = {} ∧ after = file) ∨
      ∃ operands new middle, replacement? table file = some (operands, new) ∧
        replaceString operands.constructor operands.name new.name file = (.ok (), middle) ∧
        replaceString operands.constructor operands.signature new.signature middle =
          (.ok (), after) ∧
        changes = ⟨1⟩ := by
  simp only [relabelReference, Editing.bind_eq_ok, Editing.get_eq_ok] at run
  obtain ⟨_, _, ⟨rfl, rfl⟩, run⟩ := run
  unfold replacement?
  cases referred : reference? file with
  | error fault =>
    simp only [referred] at run
    exact absurd run Editing.throw_ne_ok
  | ok reference =>
    cases reference with
    | none =>
      simp only [referred] at run
      obtain ⟨rfl, rfl⟩ := Editing.pure_eq_ok.1 run
      exact .inl ⟨rfl, rfl, rfl⟩
    | some reference =>
      obtain ⟨kind, operands⟩ := reference
      simp only [referred] at run ⊢
      cases relabelled : relabelCallable? table kind operands.owner
          ⟨operands.name.value, operands.signature.value⟩ with
      | none =>
        simp only [relabelled] at run
        obtain ⟨rfl, rfl⟩ := Editing.pure_eq_ok.1 run
        exact .inl ⟨rfl, rfl, rfl⟩
      | some new =>
        simp only [relabelled, Editing.bind_eq_ok, Editing.pure_eq_ok] at run
        obtain ⟨_, middle, nameRun, _, _, signatureRun, rfl, rfl⟩ := run
        exact .inr ⟨operands, new, middle, rfl, nameRun, signatureRun, rfl⟩

/-- Without a change, the class file is as it was. -/
theorem relabelReference_unchanged {table : SymbolTable} {file after : ClassFile}
    {changes : Changes} (run : relabelReference table file = (.ok changes, after))
    (unchanged : changes.isChanged = false) : after = file := by
  rcases relabelReference_eq_ok run with ⟨-, -, same⟩ | ⟨_, _, _, -, -, -, rfl⟩
  · exact same
  · cases unchanged

/-- What the first of the two replacements leaves to the second: it may change the load of the name,
but not that of the signature. -/
structure Replacing (file named : ClassFile) (operands : Operands) (front back : List Instruction)
    (name changed signature : Instruction) : Prop where
  isFirst : IsFirstConstructor file.pool file.methods operands.constructor
  nameLoads : IsLoadOf operands.name name
  signatureLoads : IsLoadOf operands.signature signature
  coded : instructions? file operands.constructor = some ⟨front ++ name :: signature :: back, none⟩
  namedCoded : instructions? named operands.constructor =
    some ⟨(front ++ [changed]) ++ signature :: back, none⟩

theorem Recognised.replacing {file named : ClassFile} {superName value : String}
    {operands : Operands} {front back : List Instruction}
    {owner name signature number call : Instruction}
    (form : Recognised file superName operands front owner name signature number call back)
    (run : replaceString operands.constructor operands.name value file = (.ok (), named)) :
    ∃ changed, Replacing file named operands (front ++ [owner]) (number :: call :: back) name
      changed signature := by
  obtain ⟨nameLoads, -⟩ := loadedString?_eq_some form.name
  obtain ⟨signatureLoads, -⟩ := loadedString?_eq_some form.signature
  have coded : instructions? file operands.constructor =
      some ⟨(front ++ [owner]) ++ name :: signature :: number :: call :: back, none⟩ := by
    rw [form.coded]
    simp
  obtain ⟨-, -, -, changed, namedCoded⟩ := replaceString_frame coded nameLoads run
  refine ⟨changed, form.isFirst, nameLoads, signatureLoads, coded, ?_⟩
  rw [namedCoded]
  simp

theorem exists_replacing {table : SymbolTable} {file named : ClassFile} {operands : Operands}
    {new : Callable} (replaced : replacement? table file = some (operands, new))
    (run : replaceString operands.constructor operands.name new.name file = (.ok (), named)) :
    ∃ front back name changed signature,
      Replacing file named operands front back name changed signature := by
  obtain ⟨kind, referred, -⟩ := replacement?_eq_some_iff.1 replaced
  obtain ⟨superName, -, -, -, recognised⟩ := reference?_eq_some referred
  obtain ⟨front, owner, name, signature, number, call, back, form⟩ := operands?_eq_some recognised
  obtain ⟨changed, replacing⟩ := form.replacing run
  exact ⟨_, _, _, _, _, replacing⟩

theorem relabelReference_frame {table : SymbolTable} {file after : ClassFile} {changes : Changes}
    (run : relabelReference table file = (.ok changes, after)) (names : Pool) :
    Frame names file after := by
  rcases relabelReference_eq_ok run with ⟨-, -, rfl⟩ |
    ⟨operands, new, named, replaced, nameRun, signatureRun, -⟩
  · exact (MethodsKept.refl names _).toFrame
  · obtain ⟨front, back, name, changed, signature, form⟩ := exists_replacing replaced nameRun
    obtain ⟨nameEvolves, namedEq, nameDiffers, -⟩ :=
      replaceString_frame form.coded form.nameLoads nameRun
    obtain ⟨signatureEvolves, afterEq, signatureDiffers, -⟩ :=
      replaceString_frame form.namedCoded form.signatureLoads signatureRun
    -- The load of the signature, which the second edit changes, is one of the old code as well.
    have inside : ∀ member code, file.methods[operands.constructor]? = some member →
        member.code? = some code →
        ∀ i ∈ [signature], i ∈ (Bytecode.decode code.bytes).instructions := by
      intro member code isMember isCode i isSignature
      obtain rfl := List.mem_singleton.1 isSignature
      have decoded := instructions?_eq_some_iff.2 ⟨member, code, isMember, isCode, rfl⟩
      rw [form.coded] at decoded
      rw [← Option.some.inj decoded]
      simp
    have differ := nameDiffers.trans signatureDiffers inside
    refine ⟨?_, nameEvolves.trans signatureEvolves, .constructor form.isFirst ?_ differ, ?_⟩
    · rw [afterEq, namedEq]
    · simp
    · rw [afterEq, namedEq]
      exact AttributeFrame.forall₂_same _ _

/-! ## Bootstrap arguments -/

/-- The value that an entry is made to refer to although a bootstrap argument refers to it too: that
of the signature, which is replaced last, or else that of the name. -/
def overwritten? (table : SymbolTable) (file : ClassFile) (index : UInt16) : Option String := do
  let (operands, new) ← replacement? table file
  let named := (replaceString operands.constructor operands.name new.name file).2
  if Overwrites operands.signature new.signature named.pool index then some new.signature
  else if Overwrites operands.name new.name file.pool index then some new.name
  else none

/-- The pass keeps the attributes, and it changes the entry of a bootstrap argument just if it
overwrites it. -/
theorem relabelReference_argument {table : SymbolTable} {file after : ClassFile}
    {changes : Changes} (bounded : file.pool.size ≤ 65535)
    (run : relabelReference table file = (.ok changes, after)) :
    Pool.Evolves file.pool after.pool ∧ after.attributes = file.attributes ∧
      ∀ {entry owner argument : Nat} {index : UInt16} {constant : Constant},
        argumentAt? file.attributes entry owner argument = some index →
        file.pool.get index = .ok constant →
        match overwritten? table file index with
        | some value => ∃ target, after.pool.get index = .ok (.string target) ∧
            after.pool.get target = .ok (.text (ModifiedUtf8.encode value))
        | none => after.pool.get index = .ok constant := by
  unfold overwritten?
  rcases relabelReference_eq_ok run with ⟨none, rfl, rfl⟩ |
    ⟨operands, new, named, replaced, nameRun, signatureRun, rfl⟩
  · rw [none]
    exact ⟨.refl _, rfl, fun _ found => found⟩
  · obtain ⟨front, back, name, changed, signature, form⟩ := exists_replacing replaced nameRun
    obtain ⟨nameEvolves, namedEq, -⟩ := replaceString_frame form.coded form.nameLoads nameRun
    obtain ⟨signatureEvolves, afterEq, -⟩ :=
      replaceString_frame form.namedCoded form.signatureLoads signatureRun
    have namedAttributes : named.attributes = file.attributes := by
      rw [namedEq]
    refine ⟨nameEvolves.trans signatureEvolves, by rw [afterEq, namedAttributes], ?_⟩
    intro entry method argument index constant isArgument found
    have namedArgument : argumentAt? named.attributes entry method argument = some index := by
      rw [namedAttributes, isArgument]
    have afterName := replaceString_argument bounded form.coded form.nameLoads nameRun isArgument
    have afterSignature := replaceString_argument (nameEvolves.bounded bounded) form.namedCoded
      form.signatureLoads signatureRun namedArgument
    simp only [replaced, nameRun, Option.bind_eq_bind, Option.bind_some]
    -- An entry that both loads share has the text of the signature in the end.
    by_cases signatureLost : Overwrites operands.signature new.signature named.pool index
    · rw [if_pos signatureLost] at afterSignature ⊢
      exact afterSignature
    · rw [if_neg signatureLost] at afterSignature ⊢
      by_cases nameLost : Overwrites operands.name new.name file.pool index
      · rw [if_pos nameLost] at afterName ⊢
        obtain ⟨target, isString, isText⟩ := afterName
        exact ⟨target, afterSignature _ isString, signatureEvolves.get isText rfl⟩
      · rw [if_neg nameLost] at afterName ⊢
        exact afterSignature _ (afterName _ found)

end Relabel.Pass
