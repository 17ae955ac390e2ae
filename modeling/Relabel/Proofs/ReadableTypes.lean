import Relabel.Proofs.Descriptors

/-!
# Telling readable types apart

A descriptor shows which readable type it was made from, and where it ends: a primitive letter is
that of one keyword and starts no class, the name of a class ends at its semicolon, and an array has
as many brackets in front as it has dimensions. So a run of descriptors without separators shows the
types in it one by one, and with them the list of arguments that it was made from.
-/

namespace Relabel.Descriptor

/-! ## Elements -/

/-- The keyword of a primitive type. -/
def keyword : Char → List Char
  | 'V' => "void".toList
  | 'Z' => "boolean".toList
  | 'B' => "byte".toList
  | 'C' => "char".toList
  | 'S' => "short".toList
  | 'I' => "int".toList
  | 'J' => "long".toList
  | 'F' => "float".toList
  | _ => "double".toList

theorem eq_keyword_of_primitive? {type : List Char} {letter : Char}
    (isKeyword : primitive? type = some letter) : type = keyword letter := by
  unfold primitive? at isKeyword
  repeat' split at isKeyword
  all_goals cases isKeyword
  all_goals assumption

theorem internalName_inj {name other : List Char} (noSlash : '/' ∉ name) (noSlash' : '/' ∉ other)
    (same : internalName name = internalName other) : name = other := by
  -- The dots come back when the slashes are replaced again.
  have back {text : List Char} (noSlash : '/' ∉ text) :
      Text.replaceChar '/' '.' (internalName text) = text := by
    rw [internalName, Text.replaceChar, Text.replaceChar, List.map_map]
    conv_rhs => rw [← List.map_id text]
    apply List.map_congr_left
    intro c member
    have notSlash : c ≠ '/' := ne_of_mem_of_not_mem member noSlash
    by_cases isDot : c = '.' <;> simp [isDot, notSlash]
  rw [← back noSlash, same, back noSlash']

/-- A letter of a primitive type starts no class and no array. -/
theorem ofElement_cases (type : List Char) :
    (∃ letter, ofElement type = [letter] ∧ letter ≠ 'L' ∧ letter ≠ '[' ∧ type = keyword letter) ∨
      ofElement type = 'L' :: (internalName type ++ [';']) := by
  unfold ofElement
  split
  · next letter isKeyword =>
    have isLetter := (isPrimitive_of_primitive? isKeyword).1
    have differs {other : Char} (noLetter : isPrimitive other = false) : letter ≠ other := by
      rintro rfl
      simp [noLetter] at isLetter
    exact .inl ⟨letter, rfl, differs rfl, differs rfl, eq_keyword_of_primitive? isKeyword⟩
  · exact .inr rfl

theorem dot_notMem_ofElement (type : List Char) : '.' ∉ ofElement type := by
  unfold ofElement
  split
  · next letter isKeyword =>
    intro member
    have isSymbol := (isPrimitive_of_primitive? isKeyword).2.1
    rw [← List.mem_singleton.1 member] at isSymbol
    revert isSymbol
    decide
  · simp [ofClass, dot_notMem_internalName]

theorem head?_ofElement (type back : List Char) : (ofElement type ++ back).head? ≠ some '[' := by
  obtain ⟨letter, isLetter, -, notArray, -⟩ | isClass := ofElement_cases type
  · simp [isLetter, notArray]
  · simp [isClass]

/-- An element shows its type, and where it ends. -/
theorem ofElement_append_inj {type other back back' : List Char} (isName : IsTypeName type)
    (isName' : IsTypeName other) (same : ofElement type ++ back = ofElement other ++ back') :
    type = other ∧ back = back' := by
  have noEnd {name : List Char} (isName : IsTypeName name) : ';' ∉ internalName name := by
    intro member
    cases mem_internalName member with
    | inl inName => exact isName.notMem (by decide) inName
    | inr isSlash => cases isSlash
  obtain ⟨letter, isLetter, notClass, -, isKeyword⟩ | isClass := ofElement_cases type
  · obtain ⟨letter', isLetter', -, -, isKeyword'⟩ | isClass' := ofElement_cases other
    · rw [isLetter, isLetter', List.singleton_append, List.singleton_append,
        List.cons.injEq] at same
      rw [isKeyword, isKeyword', same.1]
      exact ⟨rfl, same.2⟩
    · rw [isLetter, isClass', List.singleton_append, List.cons_append, List.cons.injEq] at same
      exact absurd same.1 notClass
  · obtain ⟨letter, isLetter, notClass, -, -⟩ | isClass' := ofElement_cases other
    · rw [isClass, isLetter, List.singleton_append, List.cons_append, List.cons.injEq] at same
      exact absurd same.1.symm notClass
    · rw [isClass, isClass', List.cons_append, List.cons_append, List.append_assoc,
        List.append_assoc, List.cons.injEq] at same
      obtain ⟨sameName, sameBack⟩ := Text.append_cons_inj (noEnd isName) (noEnd isName') same.2
      exact ⟨internalName_inj (isName.notMem (by decide)) (isName'.notMem (by decide)) sameName,
        sameBack⟩

/-! ## Types -/

/-- A readable type: a name without blanks, or a keyword, with pairs of brackets behind it. -/
def IsReadable (type : List Char) : Prop :=
  ∃ name dims, type = arrayOf name dims ∧ IsTypeName name ∧ ∀ c ∈ name, Text.isBlank c = false

namespace IsReadable

variable {type : List Char}

theorem mem_arrayOf {c : Char} {name : List Char} {dims : Nat} (member : c ∈ arrayOf name dims) :
    c ∈ name ∨ c = '[' ∨ c = ']' := by
  rw [arrayOf, List.mem_append] at member
  refine member.imp_right fun inBrackets => ?_
  obtain ⟨pair, isPair, inPair⟩ := List.mem_flatten.1 inBrackets
  rw [List.eq_of_mem_replicate isPair] at inPair
  simpa using inPair

theorem ne_nil (readable : IsReadable type) : type ≠ [] := by
  obtain ⟨name, dims, rfl, isName, -⟩ := readable
  simp [arrayOf, isName.nonempty]

theorem notMem (readable : IsReadable type) {c : Char} (isSpecial : c ∈ ['(', ')', ',']) :
    c ∉ type := by
  obtain ⟨name, dims, rfl, isName, -⟩ := readable
  have special : ∀ c ∈ ['(', ')', ','], c ∈ ['/', ';', '[', ']', '(', ')', ','] := by simp
  intro member
  obtain inName | rfl | rfl := mem_arrayOf member
  · exact isName.notMem (special c isSpecial) inName
  · simp at isSpecial
  · simp at isSpecial

theorem notMem_ofType (readable : IsReadable type) {c : Char} (isSpecial : c ∈ ['(', ')', ',']) :
    c ∉ ofType type := by
  intro member
  cases mem_ofType member with
  | inl inType => exact readable.notMem isSpecial inType
  | inr isSymbol =>
    have apart : ∀ c ∈ ['(', ')', ','], c ∉ symbols := by simp [symbols]
    exact apart c isSpecial isSymbol

/-- There are no blanks around a readable type. -/
theorem trim_eq (readable : IsReadable type) : Text.trim type = type := by
  have noBlank : ∀ c ∈ type, Text.isBlank c = false := by
    obtain ⟨name, dims, rfl, -, noBlank⟩ := readable
    intro c member
    obtain inName | rfl | rfl := mem_arrayOf member
    · exact noBlank c inName
    · decide
    · decide
  refine Text.trim_eq_iff.2 ⟨[], [], by simp, by simp, by simp, ?_, ?_⟩
  · exact fun c isFirst => noBlank c (List.mem_of_head? isFirst)
  · exact fun c isLast => noBlank c (List.mem_of_getLast? isLast)

end IsReadable

theorem ofType_ne_nil (type : List Char) : ofType type ≠ [] := by
  have nonempty (name : List Char) : ofElement name ≠ [] := by
    obtain ⟨letter, isLetter, -⟩ | isClass := ofElement_cases name
    · simp [isLetter]
    · simp [isClass]
  unfold ofType
  split
  · exact nonempty type
  · simp [nonempty]

theorem dot_notMem_ofType (type : List Char) : '.' ∉ ofType type := by
  unfold ofType
  split
  · exact dot_notMem_ofElement type
  · simp [dot_notMem_ofElement]

/-- A descriptor shows its type, and where it ends. -/
theorem ofType_append_inj {type other back back' : List Char} (readable : IsReadable type)
    (readable' : IsReadable other) (same : ofType type ++ back = ofType other ++ back') :
    type = other ∧ back = back' := by
  obtain ⟨name, dims, rfl, isName, -⟩ := readable
  obtain ⟨name', dims', rfl, isName', -⟩ := readable'
  rw [ofType_arrayOf (isName.notMem (by decide)), ofType_arrayOf (isName'.notMem (by decide)),
    List.append_assoc, List.append_assoc] at same
  -- The brackets in front are counted first.
  have counted (name back : List Char) (dims : Nat) :
      (List.replicate dims '[' ++ (ofElement name ++ back)).span (· = '[') =
        (List.replicate dims '[', ofElement name ++ back) := by
    refine Text.span_eq_iff.2 ⟨rfl, by simp, fun c isHead => ?_⟩
    rw [decide_eq_false_iff_not]
    rintro rfl
    exact head?_ofElement name back isHead
  have cut := counted name back dims
  rw [same, counted name' back' dims', Prod.mk.injEq] at cut
  obtain ⟨rfl, rfl⟩ := ofElement_append_inj isName isName' cut.2.symm
  have sameDims : dims' = dims := by simpa using congrArg List.length cut.1
  exact ⟨by rw [sameDims], rfl⟩

/-! ## Arguments -/

/-- A run of descriptors shows the types in it one by one. -/
theorem flatMap_ofType_inj {types others : List (List Char)}
    (readable : ∀ type ∈ types, IsReadable type) (readable' : ∀ type ∈ others, IsReadable type)
    (same : types.flatMap ofType = others.flatMap ofType) : types = others := by
  induction types generalizing others with
  | nil =>
    cases others with
    | nil => rfl
    | cons other others => simp [ofType_ne_nil] at same
  | cons type types ih =>
    cases others with
    | nil => simp [ofType_ne_nil] at same
    | cons other others =>
      rw [List.forall_mem_cons] at readable readable'
      rw [List.flatMap_cons, List.flatMap_cons] at same
      obtain ⟨rfl, sameBack⟩ := ofType_append_inj readable.1 readable'.1 same
      rw [ih readable.2 readable'.2 sameBack]

/-- A list of readable types with commas between them. -/
def IsArgumentList (arguments : List Char) : Prop :=
  ∃ types, arguments = [','].intercalate types ∧ ∀ type ∈ types, IsReadable type

theorem argumentTypes_intercalate {types : List (List Char)}
    (readable : ∀ type ∈ types, IsReadable type) :
    argumentTypes ([','].intercalate types) = types := by
  by_cases nonempty : types = []
  · rw [nonempty]
    rfl
  · have noComma : ∀ type ∈ types, ',' ∉ type :=
      fun type member => (readable type member).notMem (by decide)
    have whole : types.filter (!·.isEmpty) = types := by
      apply List.filter_eq_self.2
      intro type member
      simp [(readable type member).ne_nil]
    rw [argumentTypes, List.splitOn_intercalate ',' noComma nonempty, whole]
    conv_rhs => rw [← List.map_id types]
    exact List.map_congr_left fun type member => (readable type member).trim_eq

/-- The descriptors of arguments show the list of the arguments. -/
theorem ofArguments_inj {arguments others : List Char} (isList : IsArgumentList arguments)
    (isList' : IsArgumentList others) (same : ofArguments arguments = ofArguments others) :
    arguments = others := by
  obtain ⟨types, rfl, readable⟩ := isList
  obtain ⟨types', rfl, readable'⟩ := isList'
  rw [ofArguments_eq, ofArguments_eq, argumentTypes_intercalate readable,
    argumentTypes_intercalate readable'] at same
  rw [flatMap_ofType_inj readable readable' same]

theorem IsArgumentList.notMem {arguments : List Char} (isList : IsArgumentList arguments) {c : Char}
    (isSpecial : c ∈ ['(', ')']) : c ∉ arguments := by
  obtain ⟨types, rfl, readable⟩ := isList
  have notComma : c ≠ ',' := by
    rintro rfl
    simp at isSpecial
  induction types with
  | nil => simp
  | cons type types ih =>
    rw [List.forall_mem_cons] at readable
    have notInFirst := readable.1.notMem (List.mem_of_mem_take (i := 2) isSpecial)
    cases types with
    | nil => simpa using notInFirst
    | cons next types =>
      rw [List.intercalate_cons_cons]
      simp [notInFirst, notComma, ih readable.2]

theorem IsArgumentList.notMem_ofArguments {arguments : List Char}
    (isList : IsArgumentList arguments) {c : Char} (isSpecial : c ∈ ['(', ')']) :
    c ∉ ofArguments arguments := by
  obtain ⟨types, rfl, readable⟩ := isList
  rw [ofArguments_eq, argumentTypes_intercalate readable, List.mem_flatMap]
  intro ⟨type, member, inType⟩
  exact (readable type member).notMem_ofType (List.mem_of_mem_take (i := 2) isSpecial) inType

end Relabel.Descriptor
