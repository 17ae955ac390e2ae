import Relabel.Pass.Metadata
import Relabel.Proofs.Descriptors
import Relabel.Proofs.Pass.Detaching

/-!
# The metadata pass

Renaming in metadata puts texts behind the entries of the pool and changes the texts of annotations.
All entries stay, and so do the bootstrap methods.
-/

namespace Relabel.Pass

open ClassFile (Attribute AnnotationEntry ElementValue Pool)

/-! ## Values -/

/-- Brackets, and a name that is not empty and has no blanks between `L` and a semicolon. -/
def IsClassDescriptor (text : String) : Prop :=
  ∃ dims name, text.toList = Descriptor.arraysOf dims ('L' :: (name ++ [';'])) ∧ name ≠ [] ∧
    ∀ c ∈ name, ¬ Text.isBlank c

theorem isTypeDescriptor_iff {text : String} :
    isTypeDescriptor text = true ↔ IsClassDescriptor text := by
  unfold isTypeDescriptor
  constructor
  · intro isDescriptor
    split at isDescriptor
    · next dims name split =>
      obtain ⟨same, nonempty⟩ := Descriptor.splitObject?_eq_some_iff.1 split
      exact ⟨dims, name, same, nonempty, by simpa using isDescriptor⟩
    · cases isDescriptor
  · intro ⟨dims, name, same, nonempty, noBlanks⟩
    rw [Descriptor.splitObject?_eq_some_iff.2 ⟨same, nonempty⟩]
    simpa using noBlanks

/-- What can happen to a value that is relabelled without a fault: a text is added for it if it is
the descriptor of a class and renaming makes another one of it. -/
inductive ValueStep (table : SymbolTable) (pool : Pool) :
    ElementValue → Pool → ElementValue → Prop
  | other {value : ElementValue} (noText : ∀ index, value ≠ .const 115 index) :
    ValueStep table pool value pool value
  | undecoded {index : UInt16} (undecoded : pool.text? index = .ok none) :
    ValueStep table pool (.const 115 index) pool (.const 115 index)
  | kept {index : UInt16} {text : String} (read : pool.text index = .ok text)
    (same : IsClassDescriptor text → table.renameDescriptor text = text) :
    ValueStep table pool (.const 115 index) pool (.const 115 index)
  | renamed {before after : UInt16} {text : String} {grown : Pool}
    (read : pool.text before = .ok text) (isDescriptor : IsClassDescriptor text)
    (added : Pool.addText (table.renameDescriptor text) pool = (.ok after, grown)) :
    ValueStep table pool (.const 115 before) grown (.const 115 after)

/-- Every value comes to such a step, and each text that is added is a change. -/
theorem relabelValue_cases {table : SymbolTable} {state after : Pool × Changes}
    {value changed : ElementValue}
    (run : relabelValue table state value = ⟨after, changed, none⟩) :
    ValueStep table state.1 value after.1 changed ∧
      ((after = state ∧ changed = value) ∨ after.2 = state.2.record) := by
  unfold relabelValue at run
  split at run
  · next index =>
    obtain ⟨pool, changes⟩ := state
    cases read : pool.text? index with
    | error fault =>
      simp only [read] at run
      cases run
    | ok text? =>
      cases text? with
      | none =>
        simp only [read] at run
        cases run
        exact ⟨.undecoded read, .inl ⟨rfl, rfl⟩⟩
      | some text =>
        simp only [read] at run
        have isText := Pool.text?_eq_some_iff.1 read
        split at run
        · next renames =>
          obtain ⟨isType, -⟩ := Bool.and_eq_true_iff.1 renames
          cases added : Pool.addText (table.renameDescriptor text) pool with
          | mk result grown =>
            cases result with
            | error fault =>
              simp only [added] at run
              cases run
            | ok index =>
              simp only [added] at run
              cases run
              exact ⟨.renamed isText (isTypeDescriptor_iff.1 isType) added, .inr rfl⟩
        · next keeps =>
          cases run
          refine ⟨.kept isText fun isDescriptor => ?_, .inl ⟨rfl, rfl⟩⟩
          simpa [isTypeDescriptor_iff.2 isDescriptor] using keeps
  · next noText =>
    cases run
    exact ⟨.other noText, .inl ⟨rfl, rfl⟩⟩

theorem valueStep_of_relabelValue {table : SymbolTable} {state after : Pool × Changes}
    {value changed : ElementValue}
    (run : relabelValue table state value = ⟨after, changed, none⟩) :
    ValueStep table state.1 value after.1 changed := (relabelValue_cases run).1

theorem relabelValue_step {table : SymbolTable} {state after : Pool × Changes}
    {value changed : ElementValue}
    (run : relabelValue table state value = ⟨after, changed, none⟩) :
    Pool.Grows state.1 after.1 ∧ ValueFrame value changed := by
  have step := valueStep_of_relabelValue run
  generalize after.1 = grown at step
  cases step with
  | renamed read isDescriptor added => exact ⟨(Pool.addText_eq_ok added).1, .text ..⟩
  | _ => exact ⟨.refl _, .same _⟩

/-- Edits that let the pool grow one by one let it grow altogether, and what each of them does to
its value still holds in the last pool. -/
theorem Edits.grows {σ α : Type} {edit : Pool × σ → α → Outcome (Pool × σ) α}
    (frame : Pool → α → α → Prop)
    (later : ∀ {old new}, Pool.Evolves old new → ∀ {before after}, frame old before after →
      frame new before after)
    (step : ∀ {state after value changed}, edit state value = ⟨after, changed, none⟩ →
      Pool.Grows state.1 after.1 ∧ frame after.1 value changed)
    {state after : Pool × σ} {values edited : List α} (run : Edits edit state values after edited) :
    Pool.Grows state.1 after.1 ∧ List.Forall₂ (frame after.1) values edited :=
  (run.forall₂ (fun _ => True) (fun old new => Pool.Grows old.1 new.1) (fun state => frame state.1)
    (fun _ => .refl _) Pool.Grows.trans (fun grows => later grows.evolves)
    (fun _ head => ⟨trivial, step head⟩) trivial).2

/-! ## Elements -/

theorem isNamed_iff {pool : Pool} {name : String} {index : UInt16} :
    isNamed pool name index = true ↔ pool.text index = .ok name := by
  unfold isNamed
  split <;> simp [*]

theorem not_isNamed {pool : Pool} {elements : List (UInt16 × ElementValue)}
    (none : ∀ element ∈ elements, pool.text element.1 ≠ .ok metadataTexts) :
    ∀ element ∈ elements, (!isNamed pool metadataTexts element.1) = true := by
  intro element member
  rw [Bool.not_eq_true', Bool.eq_false_iff, Ne, isNamed_iff]
  exact none element member

/-- The first of some elements that has the name of the array of texts, whatever its value. -/
structure IsFirstNamed (pool : Pool) (elements before : List (UInt16 × ElementValue))
    (name : UInt16) (value : ElementValue) (behind : List (UInt16 × ElementValue)) : Prop where
  split : elements = before ++ (name, value) :: behind
  first : ∀ element ∈ before, pool.text element.1 ≠ .ok metadataTexts
  named : pool.text name = .ok metadataTexts

theorem noneNamed_or_exists (pool : Pool) (elements : List (UInt16 × ElementValue)) :
    (∀ element ∈ elements, pool.text element.1 ≠ .ok metadataTexts) ∨
      ∃ before name value behind, IsFirstNamed pool elements before name value behind := by
  induction elements with
  | nil => exact .inl nofun
  | cons element rest ih =>
    by_cases named : pool.text element.1 = .ok metadataTexts
    · exact .inr ⟨[], element.1, element.2, rest, rfl, nofun, named⟩
    · cases ih with
      | inl none => exact .inl (List.forall_mem_cons.2 ⟨named, none⟩)
      | inr found =>
        obtain ⟨before, name, value, behind, isFirst⟩ := found
        exact .inr ⟨element :: before, name, value, behind,
          by rw [isFirst.split, List.cons_append], List.forall_mem_cons.2 ⟨named, isFirst.first⟩,
          isFirst.named⟩

section

variable {state : Pool × Changes} {elements before behind : List (UInt16 × ElementValue)}
  {name : UInt16} {value : ElementValue}

theorem IsFirstNamed.span
    (isFirst : IsFirstNamed state.1 elements before name value behind) :
    elements.span (fun element => !isNamed state.1 metadataTexts element.1) =
      (before, (name, value) :: behind) := by
  have passed := not_isNamed isFirst.first
  have stops : isNamed state.1 metadataTexts name = true := isNamed_iff.2 isFirst.named
  rw [List.span_eq_takeWhile_dropWhile, isFirst.split, List.takeWhile_append_of_pos passed,
    List.dropWhile_append_of_pos passed]
  simp [stops]

/-- The texts in the first element with the name are renamed, if it is an array. -/
theorem IsFirstNamed.relabelElements_array {values : List ElementValue}
    (isFirst : IsFirstNamed state.1 elements before name (.array values) behind)
    (table : SymbolTable) :
    relabelElements table state elements =
      (editEach (relabelValue table) state values).map fun values =>
        before ++ (name, .array values) :: behind := by
  rw [relabelElements, isFirst.span]

theorem IsFirstNamed.relabelElements_other
    (isFirst : IsFirstNamed state.1 elements before name value behind)
    (noArray : ∀ values, value ≠ .array values) (table : SymbolTable) :
    relabelElements table state elements = { state, value := elements } := by
  rw [relabelElements, isFirst.span]
  cases value with
  | array values => exact absurd rfl (noArray values)
  | _ => rfl

theorem relabelElements_of_noneNamed
    (none : ∀ element ∈ elements, state.1.text element.1 ≠ .ok metadataTexts)
    (table : SymbolTable) :
    relabelElements table state elements = { state, value := elements } := by
  have rest : elements.dropWhile (fun element => !isNamed state.1 metadataTexts element.1) = [] :=
    List.dropWhile_eq_nil_iff.2 (not_isNamed none)
  rw [relabelElements, List.span_eq_takeWhile_dropWhile, rest]

end

theorem relabelElements_step {table : SymbolTable} {state after : Pool × Changes}
    {elements changed : List (UInt16 × ElementValue)}
    (run : relabelElements table state elements = ⟨after, changed, none⟩) :
    Pool.Grows state.1 after.1 ∧ List.Forall₂ (ElementFrame after.1) elements changed := by
  have others (elements : List (UInt16 × ElementValue)) :
      List.Forall₂ (ElementFrame after.1) elements elements :=
    List.forall₂_same.2 fun element _ => .same element
  obtain none | ⟨before, name, value, behind, isFirst⟩ := noneNamed_or_exists state.1 elements
  · rw [relabelElements_of_noneNamed none] at run
    cases run
    exact ⟨.refl _, others _⟩
  · by_cases isArray : ∃ values, value = .array values
    · obtain ⟨values, rfl⟩ := isArray
      rw [isFirst.relabelElements_array] at run
      obtain ⟨changedValues, edits, rfl⟩ := Outcome.map_eq_iff.1 run
      obtain ⟨grows, all⟩ := (editEach_eq_iff.1 edits).grows (fun _ => ValueFrame)
        (fun _ _ _ frame => frame) relabelValue_step
      rw [isFirst.split]
      refine ⟨grows, List.rel_append (others before) (.cons ?_ (others behind))⟩
      exact .texts (grows.evolves.text isFirst.named) all
    · rw [isFirst.relabelElements_other (not_exists.1 isArray)] at run
      cases run
      exact ⟨.refl _, others _⟩

/-! ## Annotations and attributes -/

theorem relabelIfMetadata_step {table : SymbolTable} {state after : Pool × Changes}
    {entry changed : AnnotationEntry}
    (run : relabelIfMetadata table state entry = ⟨after, changed, none⟩) :
    Pool.Grows state.1 after.1 ∧ AnnotationFrame after.1 entry changed := by
  unfold relabelIfMetadata at run
  split at run
  · cases run
  · next type named =>
    split at run
    · next isMetadata =>
      obtain ⟨elements, edits, rfl⟩ := Outcome.map_eq_iff.1 run
      obtain ⟨grows, all⟩ := relabelElements_step edits
      obtain ⟨index, old⟩ := entry
      subst isMetadata
      exact ⟨grows, .metadata (grows.evolves.text named) all⟩
    · cases run
      exact ⟨.refl _, .same _⟩

theorem relabelAttribute_step {table : SymbolTable} {state after : Pool × Changes}
    {entry changed : Attribute}
    (run : relabelAttribute table state entry = ⟨after, changed, none⟩) :
    Pool.Grows state.1 after.1 ∧ AttributeFrame after.1 entry changed ∧
      AttributeRelated Eq entry changed := by
  unfold relabelAttribute at run
  split at run
  · obtain ⟨annotations, edits, rfl⟩ := Outcome.map_eq_iff.1 run
    obtain ⟨grows, all⟩ := (editEach_eq_iff.1 edits).grows AnnotationFrame
      AnnotationFrame.later relabelIfMetadata_step
    exact ⟨grows, .annotations all, .none⟩
  · cases run
    exact ⟨.refl _, .same _, .refl (fun _ => rfl) entry⟩

/-- The metadata pass only adds to the pool, and it changes nothing but annotations. -/
theorem relabelMetadata_eq_ok {table : SymbolTable} {file after : ClassFile} {changes : Changes}
    (run : relabelMetadata table file = (.ok changes, after)) :
    Pool.Grows file.pool after.pool ∧
      after = { file with pool := after.pool, attributes := after.attributes } ∧
      List.Forall₂ (AttributeRelated Eq) file.attributes after.attributes := by
  obtain ⟨pool, attributes, edits, rfl⟩ := onAttributes_eq_ok.1 run
  obtain ⟨grows, all⟩ := edits.grows (fun _ => AttributeRelated Eq) (fun _ _ _ same => same)
    fun head => ⟨(relabelAttribute_step head).1, (relabelAttribute_step head).2.2⟩
  exact ⟨grows, rfl, all⟩

theorem relabelMetadata_frame {table : SymbolTable} {file after : ClassFile} {changes : Changes}
    (run : relabelMetadata table file = (.ok changes, after)) :
    MethodsKept after.pool file after := by
  obtain ⟨pool, attributes, edits, rfl⟩ := onAttributes_eq_ok.1 run
  obtain ⟨grows, all⟩ := edits.grows AttributeFrame AttributeFrame.later
    fun head => ⟨(relabelAttribute_step head).1, (relabelAttribute_step head).2.1⟩
  exact ⟨⟨rfl, grows.evolves, .same, all⟩, rfl⟩

end Relabel.Pass
