import Relabel.Proofs.Pass.All

/-!
# What relabelling leaves as it is

Each pass stays within the frame, and only the reference pass, which comes first, changes a method.
Whether an annotation has metadata is decided in the pool that the metadata pass works on. There an
index behind the last entry of the class may denote a text that was added on the way; all other
indexes denote what they denote in the class.
-/

namespace Relabel.Pass

open ClassFile (Pool)

/-- What comes before the string pass stays within the frame. -/
theorem beforeStrings_frame {reserve : Nat} {table : SymbolTable} {goal : Goal}
    {file after : ClassFile} {changes : Changes}
    (run : relabel reserve table goal file = (.ok changes, after)) :
    Frame (beforeStrings table goal file).pool file (beforeStrings table goal file) := by
  obtain ⟨strings, -, earlier⟩ := relabel_eq_ok run
  cases goal with
  | developer => exact (MethodsKept.refl _ file).toFrame
  | production =>
    obtain ⟨references, metadata, referenced, referring, described, -⟩ := earlier
    exact (relabelReference_frame referring _).trans (relabelMetadata_frame described)

/-- All passes together stay within the frame. -/
theorem frame_of_relabel {reserve : Nat} {table : SymbolTable} {goal : Goal}
    {file after : ClassFile} {changes : Changes}
    (run : relabel reserve table goal file = (.ok changes, after)) :
    Frame (beforeStrings table goal file).pool file after := by
  obtain ⟨strings, relabelling, -⟩ := relabel_eq_ok run
  exact (beforeStrings_frame run).trans (relabelStrings_frame relabelling _)

/-- **Frame of relabelling.** Entries of the pool stay, except that strings may refer to other
texts, and only texts and strings come behind them. No byte of code changes but the operands of two
loads in the first constructor, and no attribute of the class but bootstrap arguments and the texts
of Kotlin metadata. All else is the same. The types of annotations and the names of their elements
are looked up in the pool that the metadata pass leaves, where the indexes of entries of the class
still denote the same texts. -/
theorem relabel_frame {reserve : Nat} {table : SymbolTable} {goal : Goal}
    {file after : ClassFile} {changes : Changes}
    (run : relabel reserve table goal file = (.ok changes, after)) :
    Frame (beforeStrings table goal file).pool file after ∧
      ∀ {index : UInt16}, index.toNat < file.pool.size →
        (beforeStrings table goal file).pool.text index = file.pool.text index :=
  ⟨frame_of_relabel run, (beforeStrings_frame run).pool.text_eq_of_lt⟩

/-- A class that mentions another one in its metadata, and in a string that a bootstrap argument
shares with a load. -/
def mentioningClass : ClassFile where
  minorVersion := 0
  majorVersion := 52
  pool := ⟨#[.unusable, .text [65], .classRef 1, .text [83, 82, 67, 40, 97, 46, 66, 41], .string 3,
    .text (ModifiedUtf8.encode "Lkotlin/Metadata;"), .text [100, 50], .text [76, 97, 47, 66, 59]]⟩
  accessFlags := 33
  thisClass := 2
  superClass := 0
  interfaces := []
  fields := []
  methods := [⟨0, 1, 1, [⟨1, .code ⟨1, 1, [0x12, 4], [], []⟩⟩]⟩]
  attributes := [⟨1, .annotations [⟨5, [(6, .array [.const 115 7])]⟩]⟩,
    ⟨1, .bootstrapMethods [⟨1, [4]⟩]⟩]

/-- Renames `a/B` to `x`. -/
def mentionedTable : SymbolTable := .ofNames ((∅ : Names).insert "a/B" "x") ∅ ∅

theorem relabel_mentioningClass :
    ∃ after, relabel 0 mentionedTable .production mentioningClass = (.ok ⟨2⟩, after) := by
  have changes : (relabel 0 mentionedTable .production mentioningClass).1 = .ok ⟨2⟩ := by
    decide +kernel
  rw [← changes]
  exact ⟨_, (Prod.eta _).symm⟩

theorem relabel_frame_of_mentioningClass :
    ∃ after, relabel 0 mentionedTable .production mentioningClass = (.ok ⟨2⟩, after) ∧
      Frame (beforeStrings mentionedTable .production mentioningClass).pool mentioningClass
        after := by
  obtain ⟨after, run⟩ := relabel_mentioningClass
  exact ⟨after, run, (relabel_frame run).1⟩

/-- Renames `a` to the class of the annotation. -/
def metadataTable : SymbolTable := .ofNames ((∅ : Names).insert "a" "kotlin/Metadata") ∅ ∅

/-- A class with two annotations. The type of the first one is spelled with a longer form of its
first letter than necessary, and that of the second one is the index behind the last entry. -/
def danglingClass : ClassFile where
  minorVersion := 0
  majorVersion := 52
  pool := ⟨#[.unusable, .text [65], .classRef 1,
    .text (0xC1 :: 0x8C :: ModifiedUtf8.encode "kotlin/Metadata;"), .text [100, 50],
    .text [76, 97, 59], .text (ModifiedUtf8.encode "RuntimeVisibleAnnotations")]⟩
  accessFlags := 33
  thisClass := 2
  superClass := 0
  interfaces := []
  fields := []
  methods := []
  attributes := [⟨6, .annotations [⟨3, [(4, .array [.const 115 5])]⟩,
    ⟨7, [(4, .array [.const 115 5])]⟩]⟩]

/-- By the names that the class itself has, the frame does not hold: its second annotation, which
has no type in the class, has another text in the end. -/
theorem not_frame_of_dangling_type :
    ∃ after, relabel 0 metadataTable .production danglingClass = (.ok ⟨2⟩, after) ∧
      danglingClass.pool.text 7 = .error (.invalidIndex 7) ∧
      ¬ Frame danglingClass.pool danglingClass after := by
  have changes : (relabel 0 metadataTable .production danglingClass).1 = .ok ⟨2⟩ := by
    decide +kernel
  obtain ⟨after, run, attributes⟩ :
      ∃ after, relabel 0 metadataTable .production danglingClass = (.ok ⟨2⟩, after) ∧
        after.attributes = [⟨6, .annotations [⟨3, [(4, .array [.const 115 7])]⟩,
          ⟨7, [(4, .array [.const 115 7])]⟩]⟩] := by
    refine ⟨(relabel 0 metadataTable .production danglingClass).2, ?_, by decide +kernel⟩
    rw [← changes]
    exact (Prod.eta _).symm
  have untyped : danglingClass.pool.text 7 = .error (.invalidIndex 7) := by decide +kernel
  refine ⟨after, run, untyped, fun frame => ?_⟩
  have all : List.Forall₂ (AttributeFrame danglingClass.pool)
      [⟨6, .annotations [⟨3, [(4, .array [.const 115 5])]⟩, ⟨7, [(4, .array [.const 115 5])]⟩]⟩]
      after.attributes := frame.attributes
  rw [attributes] at all
  cases all with
  | cons head _ =>
    cases head with
    | annotations entries =>
      cases entries with
      | cons _ rest =>
        cases rest with
        | cons second _ =>
          -- The second annotation is not the same, and it has no name to have changed by.
          cases second with
          | metadata named _ => cases named.symm.trans untyped

end Relabel.Pass
