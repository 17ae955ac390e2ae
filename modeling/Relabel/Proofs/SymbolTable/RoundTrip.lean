import Mathlib
import Relabel.Proofs.Json.RoundTrip
import Relabel.SymbolTable.Json

/-!
# Symbol tables that are stored

A table that is written as JSON and read again is the same table. Its three maps are found by the
names of their sections, and the owners follow from the maps, so that all queries have the answers
that they had before.
-/

namespace Relabel.SymbolTable

open Json Utf8

/-- The owners of a table follow from its maps. -/
theorem ofNames_maps (table : SymbolTable) :
    ofNames table.classes table.fields table.methods = table := by
  obtain ⟨classes, fields, methods, fieldOwners, methodOwners, rfl, rfl⟩ := table
  rfl

/-- A map is read from behind the name of its section. -/
theorem field_printNames (map : Names) (rest : Bytes) :
    field none names (encodeChars (':' :: printNames map) ++ rest) = .ok (some map, rest) := by
  rw [field, value_printed (names_printNames map rest)]
  rfl

/-- The sections of a printed table are found one after the other. -/
theorem takes_sections (classes fields methods : Names) :
    Takes Sections.member {} [("classMappings", printNames classes),
      ("fieldMappings", printNames fields), ("methodMappings", printNames methods)]
      { classes := some classes, fields := some fields, methods := some methods } := by
  have readsClasses (rest : Bytes) : Sections.member {} "classMappings"
      (encodeChars (':' :: printNames classes) ++ rest) =
        .ok ({ classes := some classes }, rest) := by
    rw [Sections.member, if_pos rfl, field_printNames]
    rfl
  have readsFields (rest : Bytes) : Sections.member { classes := some classes } "fieldMappings"
      (encodeChars (':' :: printNames fields) ++ rest) =
        .ok ({ classes := some classes, fields := some fields }, rest) := by
    rw [Sections.member, if_neg (by decide), if_pos rfl, field_printNames]
    rfl
  refine .cons readsClasses (.cons readsFields (.cons (fun rest => ?_) (.nil _)))
  rw [Sections.member, if_neg (by decide), if_neg (by decide), if_pos rfl, field_printNames]
  rfl

/-- A printed table is read back, whatever stands behind it. -/
theorem read_toJson (table : SymbolTable) (rest : Bytes) :
    read (encode table.toJson ++ rest) = .ok (table, rest) := by
  have printed : encode table.toJson = encodeChars (printObject (printMembers
      [("classMappings", printNames table.classes), ("fieldMappings", printNames table.fields),
        ("methodMappings", printNames table.methods)])) := by
    rw [encode, toJson, String.toList_ofList]
    rfl
  have sections := members_printed
    (takes_sections table.classes table.fields table.methods) rest
  have noBlank (input : Bytes) : skipBlanks (123 :: input) = 123 :: input := rfl
  rw [printed, encodeChars_printObject, read, noBlank]
  simp only [sections, bind, Except.bind, Sections.table?, Option.bind]
  exact congrArg (fun found => Except.ok (found, rest)) (ofNames_maps table)

theorem ofJson_encode (table : SymbolTable) : ofJson (encode table.toJson) = .ok table := by
  have complete := read_toJson table []
  rw [List.append_nil] at complete
  rw [ofJson, whole, complete]
  rfl

/-- Two tables have the same answer for every query. -/
structure SameAnswers (left right : SymbolTable) : Prop where
  class_eq : ∀ name, left.class? name = right.class? name
  field_eq : ∀ key, left.field? key = right.field? key
  method_eq : ∀ key, left.method? key = right.method? key
  fieldOf_eq : ∀ owner name, left.fieldOf? owner name = right.fieldOf? owner name
  methodOf_eq : ∀ owner name, left.methodOf? owner name = right.methodOf? owner name
  descriptor_eq : ∀ descriptor, left.renameDescriptor descriptor = right.renameDescriptor descriptor

theorem SameAnswers.refl (table : SymbolTable) : SameAnswers table table where
  class_eq _ := rfl
  field_eq _ := rfl
  method_eq _ := rfl
  fieldOf_eq _ _ := rfl
  methodOf_eq _ _ := rfl
  descriptor_eq _ := rfl

/-- **A stored table comes back.** Reading the JSON text of a table gives this table, and every
query has the same answer as before. -/
theorem ofJson_toJson (table : SymbolTable) :
    ∃ restored, ofJson (encode table.toJson) = .ok restored ∧ restored = table ∧
      SameAnswers restored table :=
  ⟨table, ofJson_encode table, rfl, .refl table⟩

end Relabel.SymbolTable
