import Relabel.Proofs.Pass.All

/-!
# Values of bootstrap arguments

The string pass detaches the arguments whose strings it redirects, and the metadata pass redirects
nothing. The reference pass redirects a string that an argument shares with a load only if the load
cannot hold the index of a new string; it detaches no argument, and such an argument gets the text
of the load.
-/

namespace Relabel.Pass

open ClassFile

/-- The bytes of the string with an index. -/
def HasBytes (pool : Pool) (index : UInt16) (bytes : Bytes) : Prop :=
  ∃ text, pool.get index = .ok (.string text) ∧ pool.get text = .ok (.text bytes)

theorem HasBytes.unique {pool : Pool} {index : UInt16} {bytes other : Bytes}
    (first : HasBytes pool index bytes) (second : HasBytes pool index other) : bytes = other := by
  obtain ⟨text, isString, isText⟩ := first
  obtain ⟨_, alsoString, alsoText⟩ := second
  rw [isString] at alsoString
  cases alsoString
  rw [isText] at alsoText
  cases alsoText
  rfl

/-- What an argument denoted before, it denotes afterwards. -/
def Kept (old new : Pool) (before after : UInt16) : Prop :=
  ∀ constant, old.get before = .ok constant → new.get after = .ok constant

/-- All arguments denote the same constants as before, and there are no others. -/
def KeepsArguments (old new : ClassFile) : Prop :=
  ∀ entry method argument, Option.Rel (Kept old.pool new.pool)
    (argumentAt? old.attributes entry method argument)
    (argumentAt? new.attributes entry method argument)

theorem KeepsArguments.trans {old middle new : ClassFile} (first : KeepsArguments old middle)
    (second : KeepsArguments middle new) : KeepsArguments old new :=
  fun entry method argument =>
    rel_trans (fun front back constant found => back constant (front constant found))
      (first entry method argument) (second entry method argument)

/-! ## The passes -/

theorem relabelMetadata_keepsArguments {table : SymbolTable} {file after : ClassFile}
    {changes : Changes} (run : relabelMetadata table file = (.ok changes, after)) :
    KeepsArguments file after := by
  intro entry method argument
  obtain ⟨grows, -, all⟩ := relabelMetadata_eq_ok run
  refine rel_imp (fun {before now} same => ?_) (rel_argumentAt? all entry method argument)
  subst same
  exact fun _ found => grows.get found

/-- A redirected string is looked up under its copy, and all others where they were. -/
theorem relabelStrings_keepsArguments {reserve : Nat} {table : SymbolTable} {goal : Goal}
    {file after : ClassFile} {changes : Changes} (bounded : file.pool.size ≤ 65535)
    (run : relabelStrings reserve table goal file = (.ok changes, after)) :
    Pool.Evolves file.pool after.pool ∧ KeepsArguments file after := by
  obtain ⟨sites, redirected, middle, -, done, grows, -, all, -⟩ := relabelStrings_eq_ok bounded run
  refine ⟨done.evolves.trans grows.evolves, fun entry method argument => ?_⟩
  refine rel_imp (fun {before now} detached constant found => ?_)
    (rel_argumentAt? all entry method argument)
  unfold Detached at detached
  split at detached
  · next notRedirected =>
    subst detached
    have others : ∀ redirection ∈ redirected, redirection.string ≠ now := by
      simpa using notRedirected
    exact grows.get (done.others others found)
  · next redirection isRedirection =>
    have isString : redirection.string = before := by
      simpa using List.find?_some isRedirection
    have oldText := done.oldTexts redirection (List.mem_of_find?_eq_some isRedirection)
    rw [isString, found] at oldText
    cases oldText
    exact detached

/-! ## All passes -/

/-- The value that the string of an argument is overwritten with, if it is. -/
def lost? (table : SymbolTable) (goal : Goal) (file : ClassFile) (index : UInt16) : Option String :=
  match goal with
  | .developer => none
  | .production => overwritten? table file index

/-- Behind the reference pass no argument changes what it denotes, and in it only those do that are
lost. -/
theorem exists_referenced_of_relabel {reserve : Nat} {table : SymbolTable} {goal : Goal}
    {file after : ClassFile} {changes : Changes} (bounded : file.pool.size ≤ 65535)
    (run : relabel reserve table goal file = (.ok changes, after)) :
    ∃ referenced : ClassFile, Pool.Evolves file.pool referenced.pool ∧
      referenced.attributes = file.attributes ∧
      Pool.Evolves referenced.pool after.pool ∧ KeepsArguments referenced after ∧
      ∀ {entry owner argument : Nat} {index : UInt16} {constant : Constant},
        argumentAt? file.attributes entry owner argument = some index →
        file.pool.get index = .ok constant →
        match lost? table goal file index with
        | some value => ∃ target, referenced.pool.get index = .ok (.string target) ∧
            referenced.pool.get target = .ok (.text (ModifiedUtf8.encode value))
        | none => referenced.pool.get index = .ok constant := by
  obtain ⟨strings, relabelling, earlier⟩ := relabel_eq_ok run
  cases goal with
  | developer =>
    obtain ⟨evolves, keeps⟩ := relabelStrings_keepsArguments bounded relabelling
    exact ⟨file, .refl _, rfl, evolves, keeps, fun _ found => found⟩
  | production =>
    obtain ⟨references, metadata, referenced, referring, described, -⟩ := earlier
    obtain ⟨toReferenced, attributes, arguments⟩ := relabelReference_argument bounded referring
    obtain ⟨grows, -, -⟩ := relabelMetadata_eq_ok described
    obtain ⟨evolves, keeps⟩ := relabelStrings_keepsArguments
      (grows.bounded (toReferenced.bounded bounded)) relabelling
    exact ⟨referenced, toReferenced, attributes, grows.evolves.trans evolves,
      (relabelMetadata_keepsArguments described).trans keeps, arguments⟩

/-- At each place there is an argument of the same kind as before; it is the same constant unless
it is a string. A string has the same bytes as before just if it is not lost, or overwritten with
the same bytes. -/
theorem relabel_bootstrap_arguments {reserve : Nat} {table : SymbolTable} {goal : Goal}
    {file after : ClassFile} {changes : Changes} (bounded : file.pool.size ≤ 65535)
    (run : relabel reserve table goal file = (.ok changes, after)) (entry method argument : Nat) :
    Option.Rel (fun before now =>
        (∀ constant, file.pool.get before = .ok constant → constant.isString = false →
          after.pool.get now = .ok constant) ∧
        (∀ text, file.pool.get before = .ok (.string text) →
          ∃ other, after.pool.get now = .ok (.string other)) ∧
        ∀ bytes, HasBytes file.pool before bytes →
          (HasBytes after.pool now bytes ↔
            ∀ value, lost? table goal file before = some value → ModifiedUtf8.encode value = bytes))
      (argumentAt? file.attributes entry method argument)
      (argumentAt? after.attributes entry method argument) := by
  obtain ⟨referenced, toReferenced, attributes, evolves, keeps, arguments⟩ :=
    exists_referenced_of_relabel bounded run
  have places := keeps entry method argument
  rw [attributes] at places
  -- What it denotes after the reference pass, an argument denotes in the end.
  generalize isArgument : argumentAt? file.attributes entry method argument = old? at places ⊢
  generalize argumentAt? after.attributes entry method argument = new? at places ⊢
  cases places with
  | none => exact .none
  | @some before now kept =>
    have outcome {constant : Constant} (found : file.pool.get before = .ok constant) :=
      arguments isArgument found
    refine .some ⟨fun constant found notString => ?_, fun text found => ?_, fun bytes has => ?_⟩
    · exact kept _ (toReferenced.get found notString)
    · obtain ⟨slot, -⟩ := Pool.get_eq_ok_iff.1 found
      obtain ⟨other, isString⟩ := toReferenced.string slot
      exact ⟨other, kept _ (Pool.get_eq_ok_iff.2 ⟨isString, nofun⟩)⟩
    · obtain ⟨text, isString, isText⟩ := has
      have current := outcome isString
      cases lost : lost? table goal file before with
      | none =>
        rw [lost] at current
        refine ⟨fun _ => nofun, fun _ => ⟨text, kept _ current, ?_⟩⟩
        exact evolves.get (toReferenced.get isText rfl) rfl
      | some value =>
        rw [lost] at current
        obtain ⟨target, isTarget, isValue⟩ := current
        have overwritten : HasBytes after.pool now (ModifiedUtf8.encode value) :=
          ⟨target, kept _ isTarget, evolves.get isValue rfl⟩
        constructor
        · rintro same _ ⟨⟩
          exact overwritten.unique same
        · intro same
          exact same value rfl ▸ overwritten

/-- An argument that shares its string with a load keeps the instruction that the load loses. -/
theorem bootstrap_argument_detached :
    let file : ClassFile :=
      { minorVersion := 0, majorVersion := 52,
        pool := ⟨#[.unusable, .text [65], .classRef 1, .text [83, 82, 67, 40, 97, 46, 66, 41],
          .string 3]⟩,
        accessFlags := 33, thisClass := 2, superClass := 0, interfaces := [], fields := [],
        methods := [⟨0, 1, 1, [⟨1, .code ⟨1, 1, [0x12, 4], [], []⟩⟩]⟩],
        attributes := [⟨1, .bootstrapMethods [⟨1, [4]⟩]⟩] }
    let after := (relabel 0 (.ofNames ∅ ∅ ∅) .developer file).2
    (relabel 0 (.ofNames ∅ ∅ ∅) .developer file).1 = .ok ⟨1⟩ ∧
      ∃ now, argumentAt? after.attributes 0 0 0 = some now ∧
        HasBytes after.pool now [83, 82, 67, 40, 97, 46, 66, 41] := by
  intro file after
  have changes : (relabel 0 (.ofNames ∅ ∅ ∅) .developer file).1 = .ok ⟨1⟩ := by cbv
  have run : relabel 0 (.ofNames ∅ ∅ ∅) .developer file = (.ok ⟨1⟩, after) :=
    Prod.ext changes rfl
  have bounded : file.pool.size ≤ 65535 := by decide
  have before : HasBytes file.pool 4 [83, 82, 67, 40, 97, 46, 66, 41] := ⟨3, rfl, rfl⟩
  have places := relabel_bootstrap_arguments bounded run 0 0 0
  have isArgument : argumentAt? file.attributes 0 0 0 = some 4 := rfl
  rw [isArgument] at places
  generalize argumentAt? after.attributes 0 0 0 = now? at places ⊢
  cases places with
  | some kept =>
    refine ⟨changes, _, rfl, (kept.2.2 _ before).2 ?_⟩
    intro value lost
    cases lost

/-- A property reference whose name `f` is also a bootstrap argument, with more than 255 entries in
its pool. The constructor loads the name by an instruction with a one-byte operand. -/
def crowdedReference : ClassFile where
  minorVersion := 0
  majorVersion := 52
  pool := ⟨List.toArray ([.unusable, .text [65, 36, 49], .classRef 1,
    .text (ModifiedUtf8.encode "kotlin/jvm/internal/PropertyReference0Impl"), .classRef 3,
    .text [65], .classRef 5, .text [102], .string 7, .text [103, 101, 116, 70, 40, 41, 73],
    .string 9, .text [60, 105, 110, 105, 116, 62], .text [40, 41, 86], .nameAndType 11 12,
    .memberRef .method 4 13, .methodHandle 6 14, .text [120],
    .text [103, 101, 116, 88, 40, 41, 73], .text (ModifiedUtf8.encode "EnclosingMethod"),
    .text (ModifiedUtf8.encode "Code"), .text (ModifiedUtf8.encode "BootstrapMethods")] ++
    List.replicate 240 (.integer 0))⟩
  accessFlags := 33
  thisClass := 2
  superClass := 4
  interfaces := []
  fields := []
  methods := [⟨0, 11, 12, [⟨19, .code
    ⟨4, 1, [0x12, 6, 0x12, 8, 0x12, 10, 0x03, 0xB7, 0, 14, 0xB1], [], []⟩⟩]⟩]
  attributes := [⟨18, .enclosingMethod 6 0⟩, ⟨20, .bootstrapMethods [⟨15, [8]⟩]⟩]

/-- An argument that was the name `f` becomes the new name `x` when the load cannot hold the index of
a string of its own. -/
theorem shared_argument_overwritten :
    let table : SymbolTable := .ofNames ∅ ((∅ : Names).insert "A.f.I" "x") ∅
    ∃ after, relabel 0 table .production crowdedReference = (.ok ⟨1⟩, after) ∧
      argumentAt? crowdedReference.attributes 1 0 0 = some 8 ∧
      argumentAt? after.attributes 1 0 0 = some 8 ∧
      HasBytes crowdedReference.pool 8 [102] ∧ ¬ HasBytes after.pool 8 [102] := by
  intro table
  have oneChange : (relabelReference table crowdedReference).1 = .ok ⟨1⟩ := by decide +kernel
  obtain ⟨after, referring, nameString, nameText, nameValue, signatureString, signatureValue, named,
      inFields, inCode, attributes⟩ :
      ∃ after, relabelReference table crowdedReference = (.ok ⟨1⟩, after) ∧
        after.pool.get 8 = .ok (.string 16) ∧ after.pool.get 16 = .ok (.text [120]) ∧
        after.pool.text? 16 = .ok (some "x") ∧
        after.pool.get 10 = .ok (.string 17) ∧ after.pool.text? 17 = .ok (some "getX()I") ∧
        after.name = .ok "A$1" ∧
        (after.fields.filterMap (·.constantValue?)).foldlM (addStringIndex after.pool) [] =
          .ok [] ∧
        (after.methods.filterMap (·.code?)).foldlM (addLoadedStrings after.pool) [] =
          .ok [10, 8] ∧
        after.attributes = crowdedReference.attributes := by
    refine ⟨(relabelReference table crowdedReference).2, ?_, by decide +kernel⟩
    rw [← oneChange]
    exact (Prod.eta _).symm
  -- There are no annotations, and none of the new texts holds an instruction.
  have describing : relabelMetadata table after = (.ok {}, after) := by
    have edits : Edits (relabelAttribute table) (after.pool, {}) after.attributes
        (after.pool, {}) after.attributes := by
      rw [attributes]
      exact .cons rfl (.cons rfl .nil)
    exact onAttributes_eq_ok.2 ⟨_, _, edits, rfl⟩
  have collected : stringSites after = .ok [8, 10] := by
    rw [stringSites, inFields]
    refine Editing.except_bind_eq_ok.2 ⟨[], rfl, ?_⟩
    rw [inCode]
    cbv
  have relabelling : relabelStrings 0 table .production after = (.ok {}, after) := by
    refine relabelStrings_of_isSettled named collected fun index member => ?_
    simp only [List.mem_cons, List.not_mem_nil, or_false] at member
    rcases member with rfl | rfl
    · exact ⟨16, some "x", nameString, nameValue, by rintro _ ⟨⟩; rfl⟩
    · exact ⟨17, some "getX()I", signatureString, signatureValue, by rintro _ ⟨⟩; rfl⟩
  have before : HasBytes crowdedReference.pool 8 [102] :=
    ⟨7, by decide +kernel, by decide +kernel⟩
  refine ⟨after, ?_, rfl, by rw [attributes]; rfl, before, fun same => ?_⟩
  · exact Editing.bind_eq_ok.2 ⟨_, _, Edit.ofFile_eq_ok.2 referring, Editing.bind_eq_ok.2
      ⟨_, _, Edit.ofFile_eq_ok.2 describing, Editing.bind_eq_ok.2 ⟨_, _, relabelling, rfl⟩⟩⟩
  · have overwritten : HasBytes after.pool 8 [120] := ⟨16, nameString, nameText⟩
    cases same.unique overwritten

end Relabel.Pass
