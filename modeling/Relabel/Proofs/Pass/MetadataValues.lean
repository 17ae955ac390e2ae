import Relabel.Proofs.Pass.Framing

/-!
# The texts of metadata

Renaming the classes in metadata gives other indexes to texts that are descriptors of classes, and
to nothing else. No text of the pool changes its bytes, so whoever shares a text with the metadata
still has it. The indexes in annotations are looked up in the pool as the metadata pass finds it,
with all that has been added until then: an index beyond the entries of the class may come to denote
something on the way.
-/

namespace Relabel.Pass

open ClassFile (Attribute AnnotationEntry BootstrapMethod ElementValue Pool)

/-! ## Renamed descriptors -/

/-- A renamed descriptor ends in a semicolon as well. -/
theorem getLast?_renameDescriptor {text : String} (isDescriptor : IsClassDescriptor text)
    (table : SymbolTable) : (table.renameDescriptor text).toList.getLast? = some ';' := by
  obtain ⟨dims, name, same, nonempty, -⟩ := isDescriptor
  rw [SymbolTable.renameDescriptor, String.toList_ofList, Descriptor.rename,
    Descriptor.splitObject?_eq_some_iff.2 ⟨same, nonempty⟩]
  simp only
  split
  · rw [same, Descriptor.arraysOf, ← List.cons_append, ← List.append_assoc, List.getLast?_concat]
  · exact List.getLast?_concat

theorem renameDescriptor_ne_metadataTexts {text : String} (isDescriptor : IsClassDescriptor text)
    (table : SymbolTable) : table.renameDescriptor text ≠ metadataTexts := by
  intro same
  have last := getLast?_renameDescriptor isDescriptor table
  rw [same] at last
  cases last

/-! ## Pools that get no name -/

/-- A pool that has grown, but has got no new entry with the name of the array of texts. -/
structure GrowsUnnamed (old new : Pool) : Prop extends Pool.Grows old new where
  unnamed : ∀ {index : UInt16}, new.text index = .ok metadataTexts →
    old.text index = .ok metadataTexts

theorem GrowsUnnamed.refl (pool : Pool) : GrowsUnnamed pool pool where
  toGrows := .refl pool
  unnamed named := named

theorem GrowsUnnamed.trans {old middle new : Pool} (first : GrowsUnnamed old middle)
    (second : GrowsUnnamed middle new) : GrowsUnnamed old new where
  toGrows := first.toGrows.trans second.toGrows
  unnamed named := first.unnamed (second.unnamed named)

theorem growsUnnamed_of_addText {pool after : Pool} {value : String} {index : UInt16}
    (other : value ≠ metadataTexts) (added : Pool.addText value pool = (.ok index, after)) :
    GrowsUnnamed pool after := by
  obtain ⟨grows, isNew, -⟩ := Pool.addText_eq_ok added
  refine ⟨grows, fun {index} named => ?_⟩
  obtain ⟨bytes, found, decoded⟩ := Pool.text_eq_ok_iff.1 named
  obtain ⟨here, usable⟩ := Pool.get_eq_ok_iff.1 found
  by_cases inside : index.toNat < pool.size
  · have old := Pool.get_eq_ok_iff.2 ⟨grows.old_of_lt here inside, usable⟩
    exact Pool.text_eq_ok_iff.2 ⟨bytes, old, decoded⟩
  · -- A new entry has the text that was added.
    have same := isNew (Nat.le_of_not_lt inside) here
    cases same
    rw [ModifiedUtf8.decode_encode] at decoded
    exact absurd (Option.some.inj decoded) other

/-! ## Relabelled annotations -/

section

variable (table : SymbolTable) (pool later : Pool)

/-- What becomes of a value in the array of texts: the class in the descriptor of a class is
renamed, and all other values keep their indexes. Old values are looked up in one pool and new ones
in a later one. -/
inductive RelabelledValue : ElementValue → ElementValue → Prop
  | descriptor {before after : UInt16} {text : String} (read : pool.text before = .ok text)
    (isDescriptor : IsClassDescriptor text)
    (renamed : later.text after = .ok (table.renameDescriptor text)) :
    RelabelledValue (.const 115 before) (.const 115 after)
  | text {index : UInt16} {text : String} (read : pool.text index = .ok text)
    (noDescriptor : ¬ IsClassDescriptor text) (kept : later.text index = .ok text) :
    RelabelledValue (.const 115 index) (.const 115 index)
  | undecoded {index : UInt16} (undecoded : pool.text? index = .ok none) :
    RelabelledValue (.const 115 index) (.const 115 index)
  | other {value : ElementValue} (noText : ∀ index, value ≠ .const 115 index) :
    RelabelledValue value value

/-- What becomes of the elements of an annotation with metadata: the values of the first one with
the name of the array of texts are relabelled, if it is an array. -/
inductive RelabelledElements :
    List (UInt16 × ElementValue) → List (UInt16 × ElementValue) → Prop
  | texts {elements before behind : List (UInt16 × ElementValue)} {name : UInt16}
    {values changed : List ElementValue}
    (isFirst : IsFirstNamed pool elements before name (.array values) behind)
    (all : List.Forall₂ (RelabelledValue table pool later) values changed) :
    RelabelledElements elements (before ++ (name, .array changed) :: behind)
  | noArray {elements before behind : List (UInt16 × ElementValue)} {name : UInt16}
    {value : ElementValue} (isFirst : IsFirstNamed pool elements before name value behind)
    (noArray : ∀ values, value ≠ .array values) : RelabelledElements elements elements
  | unnamed {elements : List (UInt16 × ElementValue)}
    (none : ∀ element ∈ elements, pool.text element.1 ≠ .ok metadataTexts) :
    RelabelledElements elements elements

/-- What becomes of an annotation: only those with metadata change. -/
inductive RelabelledEntry : AnnotationEntry → AnnotationEntry → Prop
  | metadata {type : UInt16} {before after : List (UInt16 × ElementValue)}
    (isMetadata : pool.text type = .ok metadataType)
    (elements : RelabelledElements table pool later before after) :
    RelabelledEntry ⟨type, before⟩ ⟨type, after⟩
  | other {entry : AnnotationEntry} {type : String} (typed : pool.text entry.type = .ok type)
    (otherType : type ≠ metadataType) : RelabelledEntry entry entry

/-- What becomes of an attribute of a class. Besides annotations only bootstrap methods change. -/
inductive RelabelledAttribute : Attribute → Attribute → Prop
  | annotations {name : UInt16} {before after : List AnnotationEntry}
    (all : List.Forall₂ (RelabelledEntry table pool later) before after) :
    RelabelledAttribute ⟨name, .annotations before⟩ ⟨name, .annotations after⟩
  | arguments {name : UInt16} {before after : List BootstrapMethod}
    (methods : List.Forall₂ MethodFrame before after) :
    RelabelledAttribute ⟨name, .bootstrapMethods before⟩ ⟨name, .bootstrapMethods after⟩
  | other {entry : Attribute}
    (noAnnotations : ∀ name annotations, entry ≠ ⟨name, .annotations annotations⟩) :
    RelabelledAttribute entry entry

end

/-! ## Later pools -/

section

variable {table : SymbolTable} {pool grown new evolved : Pool}

theorem RelabelledValue.later {before after : ElementValue} (grows : GrowsUnnamed pool grown)
    (evolves : Pool.Evolves new evolved)
    (relabelled : RelabelledValue table pool new before after) :
    RelabelledValue table grown evolved before after := by
  have reads := grows.toGrows.evolves
  cases relabelled with
  | descriptor read isDescriptor renamed =>
    exact .descriptor (reads.text read) isDescriptor (evolves.text renamed)
  | text read noDescriptor kept => exact .text (reads.text read) noDescriptor (evolves.text kept)
  | undecoded undecoded => exact .undecoded (reads.text? undecoded)
  | other noText => exact .other noText

theorem IsFirstNamed.later {elements before behind : List (UInt16 × ElementValue)} {name : UInt16}
    {value : ElementValue} (grows : GrowsUnnamed pool grown)
    (isFirst : IsFirstNamed pool elements before name value behind) :
    IsFirstNamed grown elements before name value behind where
  split := isFirst.split
  first element member named := isFirst.first element member (grows.unnamed named)
  named := grows.toGrows.evolves.text isFirst.named

theorem RelabelledElements.later {before after : List (UInt16 × ElementValue)}
    (grows : GrowsUnnamed pool grown) (evolves : Pool.Evolves new evolved)
    (relabelled : RelabelledElements table pool new before after) :
    RelabelledElements table grown evolved before after := by
  cases relabelled with
  | texts isFirst all =>
    exact .texts (isFirst.later grows) (all.imp fun _ _ => RelabelledValue.later grows evolves)
  | noArray isFirst noArray => exact .noArray (isFirst.later grows) noArray
  | unnamed none =>
    exact .unnamed fun element member named => none element member (grows.unnamed named)

theorem RelabelledEntry.later {before after : AnnotationEntry}
    (grows : GrowsUnnamed pool grown) (evolves : Pool.Evolves new evolved)
    (relabelled : RelabelledEntry table pool new before after) :
    RelabelledEntry table grown evolved before after := by
  cases relabelled with
  | metadata isMetadata elements =>
    exact .metadata (grows.toGrows.evolves.text isMetadata) (elements.later grows evolves)
  | other typed otherType => exact .other (grows.toGrows.evolves.text typed) otherType

theorem RelabelledAttribute.later {before after : Attribute}
    (grows : GrowsUnnamed pool grown) (evolves : Pool.Evolves new evolved)
    (relabelled : RelabelledAttribute table pool new before after) :
    RelabelledAttribute table grown evolved before after := by
  cases relabelled with
  | annotations all =>
    exact .annotations (all.imp fun _ _ => RelabelledEntry.later grows evolves)
  | arguments methods => exact .arguments methods
  | other noAnnotations => exact .other noAnnotations

end

/-! ## The metadata pass -/

section

variable {table : SymbolTable} {state after : Pool × Changes}

theorem relabelValue_relabelled {value changed : ElementValue} (bounded : state.1.size ≤ 65535)
    (run : relabelValue table state value = ⟨after, changed, none⟩) :
    GrowsUnnamed state.1 after.1 ∧ RelabelledValue table after.1 after.1 value changed := by
  have step := valueStep_of_relabelValue run
  generalize after.1 = grown at step
  cases step with
  | other noText => exact ⟨.refl _, .other noText⟩
  | undecoded undecoded => exact ⟨.refl _, .undecoded undecoded⟩
  | @kept index text read same =>
    by_cases isDescriptor : IsClassDescriptor text
    · exact ⟨.refl _, .descriptor read isDescriptor (by rw [same isDescriptor, read])⟩
    · exact ⟨.refl _, .text read isDescriptor read⟩
  | renamed read isDescriptor added =>
    have grows := growsUnnamed_of_addText (renameDescriptor_ne_metadataTexts isDescriptor table)
      added
    have found := (Pool.addText_eq_ok added).2.2 bounded
    exact ⟨grows, .descriptor (grows.toGrows.evolves.text read) isDescriptor
      (Pool.text_of_encode found)⟩

/-- Edits that let a bounded pool grow without a new name do so altogether, and what each of them
does to its value still holds in the last pool. -/
theorem Edits.growsUnnamed {σ α : Type} {edit : Pool × σ → α → Outcome (Pool × σ) α}
    (related : Pool → α → α → Prop)
    (later : ∀ {old new}, GrowsUnnamed old new → ∀ {before after}, related old before after →
      related new before after)
    (step : ∀ {state after value changed}, state.1.size ≤ 65535 →
      edit state value = ⟨after, changed, none⟩ →
      GrowsUnnamed state.1 after.1 ∧ related after.1 value changed)
    {state after : Pool × σ} {values edited : List α} (bounded : state.1.size ≤ 65535)
    (run : Edits edit state values after edited) :
    GrowsUnnamed state.1 after.1 ∧ List.Forall₂ (related after.1) values edited :=
  (run.forall₂ (fun state => state.1.size ≤ 65535) (fun old new => GrowsUnnamed old.1 new.1)
    (fun state => related state.1) (fun _ => .refl _) GrowsUnnamed.trans
    (fun grows => later grows)
    (fun bounded head => ⟨(step bounded head).1.bounded bounded, step bounded head⟩) bounded).2

theorem relabelElements_relabelled {elements changed : List (UInt16 × ElementValue)}
    (bounded : state.1.size ≤ 65535)
    (run : relabelElements table state elements = ⟨after, changed, none⟩) :
    GrowsUnnamed state.1 after.1 ∧ RelabelledElements table after.1 after.1 elements changed := by
  obtain none | ⟨before, name, value, behind, isFirst⟩ := noneNamed_or_exists state.1 elements
  · rw [relabelElements_of_noneNamed none] at run
    cases run
    exact ⟨.refl _, .unnamed none⟩
  · by_cases isArray : ∃ values, value = .array values
    · obtain ⟨values, rfl⟩ := isArray
      rw [isFirst.relabelElements_array] at run
      obtain ⟨changedValues, edits, rfl⟩ := Outcome.map_eq_iff.1 run
      obtain ⟨grows, all⟩ := (editEach_eq_iff.1 edits).growsUnnamed
        (fun pool => RelabelledValue table pool pool)
        (fun grows => RelabelledValue.later grows grows.toGrows.evolves) relabelValue_relabelled
        bounded
      exact ⟨grows, .texts (isFirst.later grows) all⟩
    · have noArray := not_exists.1 isArray
      rw [isFirst.relabelElements_other noArray] at run
      cases run
      exact ⟨.refl _, .noArray isFirst noArray⟩

theorem relabelIfMetadata_relabelled {entry changed : AnnotationEntry}
    (bounded : state.1.size ≤ 65535)
    (run : relabelIfMetadata table state entry = ⟨after, changed, none⟩) :
    GrowsUnnamed state.1 after.1 ∧ RelabelledEntry table after.1 after.1 entry changed := by
  unfold relabelIfMetadata at run
  split at run
  · cases run
  · next type typed =>
    split at run
    · next isMetadata =>
      obtain ⟨elements, edits, rfl⟩ := Outcome.map_eq_iff.1 run
      obtain ⟨grows, relabelled⟩ := relabelElements_relabelled bounded edits
      obtain ⟨index, old⟩ := entry
      subst isMetadata
      exact ⟨grows, .metadata (grows.toGrows.evolves.text typed) relabelled⟩
    · next otherType =>
      cases run
      exact ⟨.refl _, .other typed otherType⟩

theorem relabelAttribute_relabelled {entry changed : Attribute} (bounded : state.1.size ≤ 65535)
    (run : relabelAttribute table state entry = ⟨after, changed, none⟩) :
    GrowsUnnamed state.1 after.1 ∧ RelabelledAttribute table after.1 after.1 entry changed := by
  unfold relabelAttribute at run
  split at run
  · obtain ⟨annotations, edits, rfl⟩ := Outcome.map_eq_iff.1 run
    obtain ⟨grows, all⟩ := (editEach_eq_iff.1 edits).growsUnnamed
      (fun pool => RelabelledEntry table pool pool)
      (fun grows => RelabelledEntry.later grows grows.toGrows.evolves)
      relabelIfMetadata_relabelled bounded
    exact ⟨grows, .annotations all⟩
  · next noAnnotations =>
    cases run
    exact ⟨.refl _, .other noAnnotations⟩

end

/-- The metadata pass relabels annotations and leaves all other attributes as they are. -/
theorem relabelMetadata_relabelled {table : SymbolTable} {file after : ClassFile}
    {changes : Changes} (bounded : file.pool.size ≤ 65535)
    (run : relabelMetadata table file = (.ok changes, after)) :
    List.Forall₂ (RelabelledAttribute table after.pool after.pool) file.attributes
      after.attributes := by
  obtain ⟨pool, attributes, edits, rfl⟩ := onAttributes_eq_ok.1 run
  exact (edits.growsUnnamed (fun pool => RelabelledAttribute table pool pool)
    (fun grows => RelabelledAttribute.later grows grows.toGrows.evolves)
    relabelAttribute_relabelled bounded).2

/-! ## All passes -/

/-- Behind the metadata pass only arguments of bootstrap methods may change. -/
theorem RelabelledAttribute.detached {table : SymbolTable} {pool later : Pool}
    {old middle new : Attribute} (relabelled : RelabelledAttribute table pool later old middle)
    (frame : ArgumentsFrame middle new) : RelabelledAttribute table pool later old new := by
  cases relabelled with
  | annotations all =>
    cases frame with
    | same => exact .annotations all
  | arguments methods =>
    cases frame with
    | same => exact .arguments methods
    | arguments others => exact .arguments (forall₂_trans methods others MethodFrame.trans)
  | other noAnnotations =>
    cases frame with
    | same => exact .other noAnnotations
    | arguments methods => exact .arguments methods

/-- **Texts of metadata.** For production, each text in the array of texts of an annotation with
metadata denotes in the end the descriptor with its class renamed if it has been the descriptor of a
class, and what it has denoted otherwise; a text that encodes nothing keeps its index, and so does
all else in annotations. What types, names and values have denoted is looked up in the pool that the
metadata pass leaves, where the indexes of entries of the class still denote the same texts. No text
of the class has other bytes in the end, and its members keep their names and descriptors. -/
theorem relabel_metadataTexts {reserve : Nat} {table : SymbolTable} {file after : ClassFile}
    {changes : Changes} (bounded : file.pool.size ≤ 65535)
    (run : relabel reserve table .production file = (.ok changes, after)) :
    List.Forall₂ (RelabelledAttribute table (beforeStrings table .production file).pool after.pool)
        file.attributes after.attributes ∧
      (∀ {index : UInt16}, index.toNat < file.pool.size →
        (beforeStrings table .production file).pool.text index = file.pool.text index) ∧
      (∀ {index : UInt16} {bytes : Bytes}, file.pool.get index = .ok (.text bytes) →
        after.pool.get index = .ok (.text bytes)) ∧
      after = { file with
        pool := after.pool, methods := after.methods, attributes := after.attributes } ∧
      MethodsFrame file.pool file.methods after.methods := by
  have frame := frame_of_relabel run
  have before := (beforeStrings_frame run).pool
  obtain ⟨strings, relabelling, references, metadata, referenced, referring, described, -⟩ :=
    relabel_eq_ok run
  obtain ⟨referencedEvolves, sameAttributes, -⟩ := relabelReference_argument bounded referring
  have relabelled := relabelMetadata_relabelled (referencedEvolves.bounded bounded) described
  rw [sameAttributes] at relabelled
  have later := (relabelStrings_frame relabelling file.pool).pool
  have detached := relabelStrings_attributes (before.bounded bounded) relabelling
  refine ⟨?_, before.text_eq_of_lt, fun isText => frame.pool.get isText rfl, frame.rest,
    frame.methods⟩
  exact forall₂_trans (relabelled.imp fun _ _ => RelabelledAttribute.later (.refl _) later)
    detached RelabelledAttribute.detached

theorem relabel_metadataTexts_of_mentioningClass :
    ∃ after, relabel 0 mentionedTable .production mentioningClass = (.ok ⟨2⟩, after) ∧
      List.Forall₂ (RelabelledAttribute mentionedTable
        (beforeStrings mentionedTable .production mentioningClass).pool after.pool)
        mentioningClass.attributes after.attributes := by
  obtain ⟨after, run⟩ := relabel_mentioningClass
  exact ⟨after, run, (relabel_metadataTexts (by decide) run).1⟩

/-- An index that denotes nothing comes to denote the type of metadata by a text that is renamed
before, so that its annotation changes as well. -/
theorem dangling_annotation_relabelled :
    danglingClass.pool.text 7 = .error (.invalidIndex 7) ∧
      (relabel 0 metadataTable .production danglingClass).1 = .ok ⟨2⟩ ∧
      (relabel 0 metadataTable .production danglingClass).2.attributes =
        [⟨6, .annotations [⟨3, [(4, .array [.const 115 7])]⟩,
          ⟨7, [(4, .array [.const 115 7])]⟩]⟩] := by
  refine ⟨?_, ?_, ?_⟩ <;> decide +kernel

end Relabel.Pass
