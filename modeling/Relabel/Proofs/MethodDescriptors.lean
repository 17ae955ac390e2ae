import Relabel.Proofs.Descriptors

/-!
# Well-formed method descriptors

The parameters of a method descriptor end at the next semicolon, whatever stands before it, and what
a method returns is taken for a class if it ends in a semicolon, whatever stands before that. So
taking a method descriptor apart lets three kinds of malformed descriptors through: parameters of
classes without a name, results that are arrays of `void`, and results whose class name has a
semicolon. There are no others.
-/

namespace Relabel.Descriptor

/-! ## Arrays -/

/-- An array is well formed just if its elements are. -/
theorem isField_array_iff {element : List Char} : IsField ('[' :: element) ↔ IsField element := by
  constructor
  · intro isField
    cases isField with
    | primitive isLetter => cases isLetter
    | array isElement => exact isElement
  · exact .array

theorem isField_arraysOf_iff {dims : Nat} {element : List Char} :
    IsField (arraysOf dims element) ↔ IsField element := by
  induction dims with
  | zero => exact Iff.rfl
  | succ dims ih => rw [arraysOf_succ, isField_array_iff, ih]

theorem arraysOf_ne_singleton {dims : Nat} {element : List Char} (nonempty : element ≠ [])
    (c : Char) : arraysOf (dims + 1) element ≠ [c] := by
  intro same
  rw [arraysOf_succ, List.cons.injEq] at same
  simp [arraysOf, nonempty] at same

/-! ## Malformed descriptors -/

section

variable {descriptor : List Char}

/-- A class without a name, or an array of such. -/
def IsNamelessClass (descriptor : List Char) : Prop :=
  ∃ dims, descriptor = arraysOf dims ['L', ';']

/-- An array of `void`. -/
def IsVoidArray (descriptor : List Char) : Prop := ∃ dims, descriptor = arraysOf (dims + 1) ['V']

/-- A class whose name has a semicolon, or an array of such. -/
def HasSemicolonInName (descriptor : List Char) : Prop :=
  ∃ dims name, descriptor = arraysOf dims ('L' :: (name ++ [';'])) ∧ ';' ∈ name

theorem IsNamelessClass.not_isField (isNameless : IsNamelessClass descriptor) :
    ¬ IsField descriptor := by
  obtain ⟨dims, rfl⟩ := isNameless
  rw [isField_arraysOf_iff]
  intro isField
  generalize same : ['L', ';'] = element at isField
  cases isField with
  | primitive => cases same
  | object nonempty =>
    rw [List.cons.injEq] at same
    exact nonempty (by simpa using same.2.symm)
  | array => cases same

theorem IsVoidArray.not_isField (isVoidArray : IsVoidArray descriptor) : ¬ IsField descriptor := by
  obtain ⟨dims, rfl⟩ := isVoidArray
  rw [isField_arraysOf_iff]
  intro isField
  cases isField with
  | primitive isLetter notVoid => exact notVoid rfl

theorem HasSemicolonInName.not_isField (hasSemicolon : HasSemicolonInName descriptor) :
    ¬ IsField descriptor := by
  obtain ⟨dims, name, rfl, inName⟩ := hasSemicolon
  rw [isField_arraysOf_iff]
  intro isField
  generalize same : 'L' :: (name ++ [';']) = element at isField
  cases isField with
  | primitive => simp at same
  | object nonempty noEnd =>
    obtain ⟨-, same⟩ := List.cons.inj same
    rw [List.append_cancel_right same] at inName
    exact noEnd inName
  | array => cases same

/-! ## Parameters and results -/

/-- A parameter is the descriptor of a field, or a class without a name. -/
theorem IsParameter.isField_or_isNameless (isParameter : IsParameter descriptor) :
    IsField descriptor ∨ IsNamelessClass descriptor := by
  induction isParameter with
  | primitive isLetter notVoid => exact .inl (.primitive isLetter notVoid)
  | @object name noEnd =>
    cases name with
    | nil => exact .inr ⟨0, rfl⟩
    | cons c name => exact .inl (.object (List.cons_ne_nil c name) noEnd)
  | array isElement ih =>
    cases ih with
    | inl isField => exact .inl (.array isField)
    | inr isNameless =>
      obtain ⟨dims, rfl⟩ := isNameless
      exact .inr ⟨dims + 1, rfl⟩

/-- What a method can return: `void`, or what a field can be. -/
def IsResult (descriptor : List Char) : Prop := descriptor = ['V'] ∨ IsField descriptor

theorem IsVoidArray.not_isResult (isVoidArray : IsVoidArray descriptor) :
    ¬ IsResult descriptor := by
  intro isResult
  cases isResult with
  | inl isVoid =>
    obtain ⟨dims, rfl⟩ := isVoidArray
    exact arraysOf_ne_singleton (by decide) 'V' isVoid
  | inr isField => exact isVoidArray.not_isField isField

theorem HasSemicolonInName.not_isResult (hasSemicolon : HasSemicolonInName descriptor) :
    ¬ IsResult descriptor := by
  intro isResult
  cases isResult with
  | inl isVoid =>
    obtain ⟨dims, name, rfl, -⟩ := hasSemicolon
    cases dims with
    | zero => cases isVoid
    | succ dims => exact arraysOf_ne_singleton (by simp) 'V' isVoid
  | inr isField => exact hasSemicolon.not_isField isField

theorem isResult_or_of_ne_bracket {c : Char} {rest : List Char} (notArray : c ≠ '[')
    (returns : isReturn (c :: rest)) :
    IsResult (c :: rest) ∨ HasSemicolonInName (c :: rest) := by
  have noBrackets : element (c :: rest) = (0, c :: rest) := by simp [element, notArray]
  cases rest with
  | nil =>
    have isLetter : isPrimitive c = true := by simpa [isReturn, noBrackets] using returns
    by_cases isVoid : c = 'V'
    · exact .inl (.inl (by rw [isVoid]))
    · exact .inl (.inr (.primitive isLetter isVoid))
  | cons d rest =>
    have isClass : (className? (c :: d :: rest)).isSome := by
      simpa [isReturn, splitObject?, noBrackets] using returns
    obtain ⟨name, found⟩ := Option.isSome_iff_exists.1 isClass
    obtain ⟨same, nonempty⟩ := className?_eq_some found
    rw [same]
    by_cases inName : ';' ∈ name
    · exact .inr ⟨0, name, rfl, inName⟩
    · exact .inl (.inr (.object nonempty inName))

/-- What is taken for a result is one, an array of `void`, or a class whose name has a semicolon. -/
theorem isResult_or_of_isReturn (returns : isReturn descriptor) :
    IsResult descriptor ∨ IsVoidArray descriptor ∨ HasSemicolonInName descriptor := by
  induction descriptor with
  | nil => cases returns
  | cons c rest ih =>
    by_cases isArray : c = '['
    · subst isArray
      rw [isReturn_array] at returns
      obtain (isVoid | isField) | ⟨dims, rfl⟩ | ⟨dims, name, rfl, inName⟩ := ih returns
      · exact .inr (.inl ⟨0, by rw [isVoid, arraysOf_succ]; rfl⟩)
      · exact .inl (.inr (.array isField))
      · exact .inr (.inl ⟨dims + 1, rfl⟩)
      · exact .inr (.inr ⟨dims + 1, name, rfl, inName⟩)
    · exact (isResult_or_of_ne_bracket isArray returns).imp_right .inr

end

/-! ## Methods -/

/-- Parameters and a result that make up a method descriptor of the class file format. -/
structure IsMethod (parameters : List (List Char)) (result : List Char) : Prop where
  parameters : ∀ parameter ∈ parameters, IsField parameter
  result : IsResult result

/-- A method descriptor that can be taken apart is well formed, but for parameters of classes
without a name, and for a result that is an array of `void` or has a semicolon in the name of its
class. -/
theorem splitMethod?_wellFormed {descriptor result : List Char} {parameters : List (List Char)}
    (split : splitMethod? descriptor = some (parameters, result)) :
    (∀ parameter ∈ parameters, IsField parameter ∨ IsNamelessClass parameter) ∧
      (IsResult result ∨ IsVoidArray result ∨ HasSemicolonInName result) ∧
      (IsMethod parameters result ↔
        (∀ parameter ∈ parameters, ¬ IsNamelessClass parameter) ∧
          ¬ IsVoidArray result ∧ ¬ HasSemicolonInName result) := by
  obtain ⟨-, areParameters, returns⟩ := splitMethod?_eq_some split
  have kinds : ∀ parameter ∈ parameters, IsField parameter ∨ IsNamelessClass parameter :=
    fun parameter member => (areParameters parameter member).1.isField_or_isNameless
  have resultKinds := isResult_or_of_isReturn returns
  refine ⟨kinds, resultKinds, fun isMethod => ⟨?_, ?_, ?_⟩, fun noSlip => ⟨?_, ?_⟩⟩
  · exact fun parameter member isNameless =>
      isNameless.not_isField (isMethod.parameters parameter member)
  · exact fun isVoidArray => isVoidArray.not_isResult isMethod.result
  · exact fun hasSemicolon => hasSemicolon.not_isResult isMethod.result
  · exact fun parameter member => (kinds parameter member).resolve_right (noSlip.1 parameter member)
  · exact resultKinds.resolve_right (not_or.2 noSlip.2)

theorem splitMethod?_wellFormed_of_array :
    splitMethod? "([La/B;)V".toList = some (["[La/B;".toList], ['V']) ∧
      IsMethod ["[La/B;".toList] ['V'] := by
  have split : splitMethod? "([La/B;)V".toList = some (["[La/B;".toList], ['V']) := by
    decide +kernel
  obtain ⟨-, -, wellFormed⟩ := splitMethod?_wellFormed split
  have named : ¬ IsNamelessClass "[La/B;".toList := by
    intro ⟨dims, same⟩
    match dims with
    | 0 => cases same
    | 1 => cases same
    | dims + 2 => cases same
  have notArray : ¬ IsVoidArray ['V'] := fun ⟨dims, same⟩ => by cases same
  have noClass : ¬ HasSemicolonInName ['V'] := by
    intro ⟨dims, name, same, _⟩
    cases dims with
    | zero => cases same
    | succ dims => cases same
  exact ⟨split, wellFormed.2 ⟨by simpa using named, notArray, noClass⟩⟩

/-- A class without a name, an array of `void` and a name with a semicolon are let through. -/
theorem malformed_methods_accepted :
    (splitMethod? "(L;)V".toList = some ([['L', ';']], ['V']) ∧ ¬ IsMethod [['L', ';']] ['V']) ∧
      (splitMethod? "()[V".toList = some ([], ['[', 'V']) ∧ ¬ IsMethod [] ['[', 'V']) ∧
      (splitMethod? "()La;b;".toList = some ([], "La;b;".toList) ∧
        ¬ IsMethod [] "La;b;".toList) := by
  have nameless : IsNamelessClass ['L', ';'] := ⟨0, rfl⟩
  have voidArray : IsVoidArray ['[', 'V'] := ⟨0, rfl⟩
  have semicolonName : HasSemicolonInName "La;b;".toList := ⟨0, "a;b".toList, rfl, by decide⟩
  refine ⟨⟨by decide +kernel, fun isMethod => ?_⟩, ⟨by decide +kernel, fun isMethod => ?_⟩,
    ⟨by decide +kernel, fun isMethod => ?_⟩⟩
  · exact nameless.not_isField (isMethod.parameters _ (List.mem_singleton_self _))
  · exact voidArray.not_isResult isMethod.result
  · exact semicolonName.not_isResult isMethod.result

end Relabel.Descriptor
