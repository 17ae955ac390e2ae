import Relabel.Descriptor
import Relabel.Proofs.Text.Splitting

/-!
# Descriptors of readable types

The descriptors of parameters follow one another without separators. Still they can be told apart,
since a descriptor shows where it ends: a primitive type is one letter, a class ends in the only
semicolon, and an array ends where its elements do. So taking a method descriptor apart gives back
the descriptors that it was put together from.
-/

namespace Relabel

namespace Descriptor

/-! ## Characters -/

/-- The characters that descriptors are made of besides those of names. -/
def symbols : List Char := ['V', 'Z', 'B', 'C', 'S', 'I', 'J', 'F', 'D', 'L', ';', '/', '[']

theorem mem_internalName {c : Char} {name : List Char} (member : c ∈ internalName name) :
    c ∈ name ∨ c = '/' := by
  obtain ⟨old, isOld, same⟩ := List.mem_map.1 member
  split at same
  · exact .inr same.symm
  · exact .inl (same ▸ isOld)

theorem dot_notMem_internalName (name : List Char) : '.' ∉ internalName name := by
  intro member
  obtain ⟨old, -, same⟩ := List.mem_map.1 member
  split at same
  · cases same
  · next notDot => exact notDot same

theorem internalName_ne_nil {name : List Char} (nonempty : name ≠ []) : internalName name ≠ [] := by
  simpa [internalName, Text.replaceChar] using nonempty

theorem isPrimitive_of_primitive? {type : List Char} {letter : Char}
    (isKeyword : primitive? type = some letter) :
    isPrimitive letter = true ∧ letter ∈ symbols ∧ (letter = 'V' → type = "void".toList) := by
  unfold primitive? at isKeyword
  repeat' split at isKeyword
  all_goals cases isKeyword
  all_goals simp_all [isPrimitive, symbols]

theorem mem_ofElement {c : Char} {type : List Char} (member : c ∈ ofElement type) :
    c ∈ type ∨ c ∈ symbols := by
  unfold ofElement at member
  split at member
  · next letter isKeyword =>
    rw [List.mem_singleton.1 member]
    exact .inr (isPrimitive_of_primitive? isKeyword).2.1
  · rw [ofClass, List.cons_append, List.mem_cons, List.mem_append, List.mem_singleton] at member
    rcases member with rfl | inName | rfl
    · exact .inr (by decide)
    · rcases mem_internalName inName with inType | rfl
      · exact .inl inType
      · exact .inr (by decide)
    · exact .inr (by decide)

theorem mem_ofType {c : Char} {type : List Char} (member : c ∈ ofType type) :
    c ∈ type ∨ c ∈ symbols := by
  unfold ofType at member
  split at member
  · exact mem_ofElement member
  · rcases List.mem_append.1 member with isBracket | inElement
    · rw [List.eq_of_mem_replicate isBracket]
      exact .inr (by decide)
    · rcases mem_ofElement inElement with inName | isSymbol
      · exact .inl ((List.takeWhile_sublist _).mem inName)
      · exact .inr isSymbol

/-- The types in a list of arguments. -/
def argumentTypes (arguments : List Char) : List (List Char) :=
  ((arguments.splitOn ',').filter (!·.isEmpty)).map Text.trim

theorem ofArguments_eq (arguments : List Char) :
    ofArguments arguments = (argumentTypes arguments).flatMap ofType := by
  rw [ofArguments, argumentTypes, List.flatMap_map]

theorem mem_ofArguments {c : Char} {arguments : List Char} (member : c ∈ ofArguments arguments) :
    c ∈ arguments ∨ c ∈ symbols := by
  obtain ⟨part, isPart, member⟩ := List.mem_flatMap.1 member
  rcases mem_ofType member with inType | isSymbol
  · have inPart := Text.mem_of_mem_trim inType
    exact .inl (Text.mem_of_mem_splitOn (List.mem_of_mem_filter isPart) inPart)
  · exact .inr isSymbol

/-! ## Readable types -/

/-- A name without the characters that have a meaning in descriptors and argument lists. Primitive
keywords are among these names. -/
structure IsTypeName (name : List Char) : Prop where
  nonempty : name ≠ []
  isPlain : ∀ c ∈ name, c ∉ ['/', ';', '[', ']', '(', ')', ',']

/-- A type name with pairs of brackets behind it. -/
def arrayOf (name : List Char) (dims : Nat) : List Char :=
  name ++ (List.replicate dims ['[', ']']).flatten

/-- A readable type of a field or an argument. -/
def IsJavaType (type : List Char) : Prop :=
  ∃ name dims, type = arrayOf name dims ∧ IsTypeName name ∧ name ≠ "void".toList

/-- A readable type that a method can return. -/
def IsReturnType (type : List Char) : Prop := type = "void".toList ∨ IsJavaType type

theorem IsTypeName.notMem {name : List Char} (isName : IsTypeName name) {c : Char}
    (isSpecial : c ∈ ['/', ';', '[', ']', '(', ')', ',']) : c ∉ name :=
  fun member => isName.isPlain c member isSpecial

theorem dimensions_arrayOf {name : List Char} (noBracket : '[' ∉ name) (dims : Nat) :
    dimensions (arrayOf name dims) = dims := by
  induction name with
  | nil =>
    rw [arrayOf, List.nil_append]
    induction dims with
    | zero => rfl
    | succ dims ih => rw [List.replicate_succ, List.flatten_cons]; simp [dimensions, ih]
  | cons c name ih =>
    rw [List.mem_cons, not_or] at noBracket
    rw [arrayOf, List.cons_append, dimensions]
    · exact ih noBracket.2
    · intro rest same
      exact absurd same (Ne.symm noBracket.1)

theorem takeWhile_arrayOf {name : List Char} (noBracket : '[' ∉ name) (dims : Nat) :
    (arrayOf name dims).takeWhile (· ≠ '[') = name := by
  rw [arrayOf, List.takeWhile_append_of_pos (Text.differs_of_notMem noBracket)]
  cases dims <;> simp [List.replicate_succ]

theorem ofType_arrayOf {name : List Char} (noBracket : '[' ∉ name) (dims : Nat) :
    ofType (arrayOf name dims) = List.replicate dims '[' ++ ofElement name := by
  rw [ofType, dimensions_arrayOf noBracket]
  cases dims with
  | zero => simp [arrayOf]
  | succ dims => simp only [takeWhile_arrayOf noBracket]

/-! ## Telling descriptors apart -/

/-- The descriptor of a field or a parameter. -/
inductive IsField : List Char → Prop
  | primitive {letter : Char} (isLetter : isPrimitive letter = true) (notVoid : letter ≠ 'V') :
      IsField [letter]
  | object {name : List Char} (nonempty : name ≠ []) (noEnd : ';' ∉ name) :
      IsField ('L' :: (name ++ [';']))
  | array {element : List Char} (isElement : IsField element) : IsField ('[' :: element)

theorem IsJavaType.isField {type : List Char} (isType : IsJavaType type) :
    IsField (ofType type) := by
  obtain ⟨name, dims, rfl, isName, notVoid⟩ := isType
  have isElement : IsField (ofElement name) := by
    unfold ofElement
    split
    · next letter isKeyword =>
      obtain ⟨isLetter, -, ofVoid⟩ := isPrimitive_of_primitive? isKeyword
      exact .primitive isLetter fun isVoid => notVoid (ofVoid isVoid)
    · refine .object ?_ ?_
      · simpa [internalName, Text.replaceChar] using isName.nonempty
      · intro member
        rcases mem_internalName member with inName | isSlash
        · exact isName.notMem (by decide) inName
        · cases isSlash
  rw [ofType_arrayOf (isName.notMem (by decide))]
  induction dims with
  | zero => exact isElement
  | succ dims ih => exact .array ih

/-- What a parameter is taken for: the descriptor of a field, or of a class without a name. -/
inductive IsParameter : List Char → Prop
  | primitive {letter : Char} (isLetter : isPrimitive letter = true) (notVoid : letter ≠ 'V') :
      IsParameter [letter]
  | object {name : List Char} (noEnd : ';' ∉ name) : IsParameter ('L' :: (name ++ [';']))
  | array {element : List Char} (isElement : IsParameter element) : IsParameter ('[' :: element)

theorem IsField.isParameter {descriptor : List Char} (isField : IsField descriptor) :
    IsParameter descriptor := by
  induction isField with
  | primitive isLetter notVoid => exact .primitive isLetter notVoid
  | object nonempty noEnd => exact .object noEnd
  | array isElement ih => exact .array ih

/-- Inside a class the next semicolon ends the parameter. -/
theorem parametersFrom_class {name : List Char} (noEnd : ';' ∉ name) (current : List Char)
    (found : List (List Char)) (rest : List Char) :
    parametersFrom true current found (name ++ ';' :: rest) =
      parametersFrom false [] ((current.reverse ++ (name ++ [';'])) :: found) rest := by
  induction name generalizing current with
  | nil => simp [parametersFrom]
  | cons c name ih =>
    rw [List.mem_cons, not_or] at noEnd
    rw [List.cons_append, parametersFrom, if_pos rfl, if_neg (Ne.symm noEnd.1), ih noEnd.2]
    simp

theorem parametersFrom_of_isParameter {descriptor : List Char}
    (isParameter : IsParameter descriptor) (current : List Char) (found : List (List Char))
    (rest : List Char) :
    parametersFrom false current found (descriptor ++ rest) =
      parametersFrom false [] ((current.reverse ++ descriptor) :: found) rest := by
  -- Brackets go into the parameter that is being read, so it is left open.
  induction isParameter generalizing current with
  | @primitive letter isLetter notVoid =>
    have notClass : letter ≠ 'L' := by
      rintro rfl
      cases isLetter
    have notArray : letter ≠ '[' := by
      rintro rfl
      cases isLetter
    simp [parametersFrom, notClass, notArray, isLetter, notVoid]
  | object noEnd =>
    rw [List.cons_append, List.append_assoc, parametersFrom]
    simp only [Bool.false_eq_true, if_false, if_true]
    rw [List.singleton_append, parametersFrom_class noEnd]
    simp
  | array isElement ih =>
    rw [List.cons_append, parametersFrom]
    simp only [Bool.false_eq_true, if_false, if_true, Char.reduceEq]
    rw [ih]
    simp

/-- Parameters put one after the other are found again. -/
theorem parametersFrom_flatten {parameters : List (List Char)}
    (areParameters : ∀ parameter ∈ parameters, IsParameter parameter) (found : List (List Char)) :
    parametersFrom false [] found parameters.flatten = some (found.reverse ++ parameters) := by
  induction parameters generalizing found with
  | nil => simp [parametersFrom]
  | cons parameter rest ih =>
    rw [List.forall_mem_cons] at areParameters
    rw [List.flatten_cons, parametersFrom_of_isParameter areParameters.1, ih areParameters.2]
    simp

/-- Characters, last one first, that a parameter can start with: brackets of an array, or an open
class. -/
def IsBegun : Bool → List Char → Prop
  | false, current => ∀ element, IsParameter element → IsParameter (current.reverse ++ element)
  | true, current => ∀ name, ';' ∉ name → IsParameter (current.reverse ++ (name ++ [';']))

theorem isBegun_nil : IsBegun false [] := fun _ isElement => isElement

/-- The parameters that are found in a text follow one another there, and nothing else does. -/
theorem parametersFrom_eq_some {inClass : Bool} {current text : List Char}
    {found parameters : List (List Char)} (begun : IsBegun inClass current)
    (read : parametersFrom inClass current found text = some parameters) :
    ∃ rest, parameters = found.reverse ++ rest ∧ current.reverse ++ text = rest.flatten ∧
      ∀ parameter ∈ rest, IsParameter parameter := by
  induction text generalizing inClass current found with
  | nil =>
    rw [parametersFrom] at read
    split at read
    · next isEmpty =>
      cases read
      exact ⟨[], by simp, by simpa using isEmpty, List.forall_mem_nil _⟩
    · cases read
  | cons c text ih =>
    -- A parameter ends here, or it goes on.
    have ended (isParameter : IsParameter (c :: current).reverse)
        (read : parametersFrom false [] ((c :: current).reverse :: found) text = some parameters) :
        ∃ rest, parameters = found.reverse ++ rest ∧
          current.reverse ++ c :: text = rest.flatten ∧
          ∀ parameter ∈ rest, IsParameter parameter := by
      obtain ⟨rest, parametersEq, textEq, areParameters⟩ := ih isBegun_nil read
      refine ⟨(c :: current).reverse :: rest, by simp [parametersEq], ?_,
        List.forall_mem_cons.2 ⟨isParameter, areParameters⟩⟩
      rw [List.flatten_cons, ← textEq]
      simp
    have goesOn {inClass : Bool} (begun : IsBegun inClass (c :: current))
        (read : parametersFrom inClass (c :: current) found text = some parameters) :
        ∃ rest, parameters = found.reverse ++ rest ∧
          current.reverse ++ c :: text = rest.flatten ∧
          ∀ parameter ∈ rest, IsParameter parameter := by
      obtain ⟨rest, parametersEq, textEq, areParameters⟩ := ih begun read
      exact ⟨rest, parametersEq, by simpa using textEq, areParameters⟩
    rw [parametersFrom] at read
    cases inClass with
    | true =>
      rw [if_pos rfl] at read
      split at read
      · next isEnd =>
        subst isEnd
        exact ended (by simpa using begun [] List.not_mem_nil) read
      · next notEnd =>
        refine goesOn (fun name noEnd => ?_) read
        simpa using begun (c :: name) (by simp [noEnd, Ne.symm notEnd])
    | false =>
      rw [if_neg Bool.false_ne_true] at read
      split at read
      · next isClass =>
        subst isClass
        exact goesOn (fun name noEnd => by simpa using begun _ (.object noEnd)) read
      · split at read
        · next isArray =>
          subst isArray
          exact goesOn (fun element isElement => by simpa using begun _ (.array isElement)) read
        · split at read
          · next isLetter =>
            obtain ⟨isLetter, notVoid⟩ : isPrimitive c = true ∧ c ≠ 'V' := by simpa using isLetter
            exact ended (by simpa using begun _ (.primitive isLetter notVoid)) read
          · cases read

theorem splitObject?_ofClass {name : List Char} (nonempty : name ≠ []) :
    splitObject? ('L' :: (name ++ [';'])) = some (0, name) := by
  simp [splitObject?, element, className?, nonempty]

/-- A descriptor behind the brackets of an array. -/
def arraysOf (dims : Nat) (element : List Char) : List Char := List.replicate dims '[' ++ element

theorem arraysOf_succ (dims : Nat) (element : List Char) :
    arraysOf (dims + 1) element = '[' :: arraysOf dims element := rfl

theorem className?_eq_some {element name : List Char} (found : className? element = some name) :
    element = 'L' :: (name ++ [';']) ∧ name ≠ [] := by
  unfold className? at found
  split at found
  · next rest =>
    split at found
    · next reversed ends =>
      cases reversed with
      | nil => cases found
      | cons c reversed =>
        cases found
        have restEq := congrArg List.reverse ends
        rw [List.reverse_reverse, List.reverse_cons] at restEq
        exact ⟨congrArg _ restEq, by simp⟩
    · cases found
  · cases found

theorem splitObject?_array (descriptor : List Char) :
    splitObject? ('[' :: descriptor) =
      (splitObject? descriptor).map fun parts => (parts.1 + 1, parts.2) := by
  simp only [splitObject?, element, List.takeWhile_cons, List.dropWhile_cons, decide_true, if_true,
    List.length_cons, Option.map_map]
  rfl

/-- The class in a descriptor stands behind the brackets, between `L` and a semicolon. -/
theorem splitObject?_eq_some_iff {descriptor name : List Char} {dims : Nat} :
    splitObject? descriptor = some (dims, name) ↔
      descriptor = arraysOf dims ('L' :: (name ++ [';'])) ∧ name ≠ [] := by
  constructor
  · intro split
    induction descriptor generalizing dims with
    | nil => cases split
    | cons c rest ih =>
      by_cases isArray : c = '['
      · subst isArray
        rw [splitObject?_array, Option.map_eq_some_iff] at split
        obtain ⟨⟨inner, found⟩, splitRest, same⟩ := split
        cases same
        obtain ⟨restEq, nonempty⟩ := ih splitRest
        exact ⟨by rw [arraysOf_succ, restEq], nonempty⟩
      · have noBrackets : element (c :: rest) = (0, c :: rest) := by simp [element, isArray]
        rw [splitObject?, noBrackets, Option.map_eq_some_iff] at split
        obtain ⟨found, isClass, same⟩ := split
        cases same
        exact className?_eq_some isClass
  · intro ⟨same, nonempty⟩
    subst same
    induction dims with
    | zero => exact splitObject?_ofClass nonempty
    | succ dims ih =>
      rw [arraysOf_succ, splitObject?_array, ih]
      rfl

theorem isReturn_array (descriptor : List Char) :
    isReturn ('[' :: descriptor) = isReturn descriptor := by
  simp [isReturn, splitObject?, element]

theorem IsField.isReturn {descriptor : List Char} (isField : IsField descriptor) :
    isReturn descriptor = true := by
  induction isField with
  | @primitive letter isLetter notVoid =>
    have notArray : letter ≠ '[' := by
      rintro rfl
      cases isLetter
    simp [Descriptor.isReturn, element, notArray, isLetter]
  | object nonempty noEnd =>
    simp [Descriptor.isReturn, element, splitObject?_ofClass nonempty]
  | array isElement ih => rw [isReturn_array, ih]

/-- A method descriptor is taken apart into what it was put together from. -/
theorem splitMethod?_join {parameters : List (List Char)} {result : List Char}
    (areParameters : ∀ parameter ∈ parameters, IsParameter parameter)
    (noParenthesis : ∀ parameter ∈ parameters, ')' ∉ parameter) (returns : isReturn result) :
    splitMethod? ('(' :: (parameters.flatten ++ ')' :: result)) = some (parameters, result) := by
  have absent : ')' ∉ parameters.flatten := by
    intro member
    obtain ⟨parameter, isParameter, inParameter⟩ := List.mem_flatten.1 member
    exact noParenthesis parameter isParameter inParameter
  simp [splitMethod?, Text.splitFirst?_append absent, returns, parametersFrom_flatten areParameters]

/-- What a method descriptor is taken apart into makes it up. -/
theorem splitMethod?_eq_some {descriptor result : List Char} {parameters : List (List Char)}
    (split : splitMethod? descriptor = some (parameters, result)) :
    descriptor = '(' :: (parameters.flatten ++ ')' :: result) ∧
      (∀ parameter ∈ parameters, IsParameter parameter ∧ ')' ∉ parameter) ∧ isReturn result := by
  unfold splitMethod? at split
  cases descriptor with
  | nil => cases split
  | cons c rest =>
    split at split
    · next rest same =>
      cases same
      simp only [Option.bind_eq_bind, Option.bind_eq_some_iff, Prod.exists] at split
      obtain ⟨front, back, cut, split⟩ := split
      obtain ⟨rfl, noParenthesis⟩ := Text.splitFirst?_eq_some_iff.1 cut
      split at split
      · next returns =>
        obtain ⟨found, read, same⟩ := Option.bind_eq_some_iff.1 split
        cases same
        obtain ⟨_, rfl, frontEq, areParameters⟩ := parametersFrom_eq_some isBegun_nil read
        rw [List.reverse_nil, List.nil_append] at frontEq
        subst frontEq
        refine ⟨rfl, fun parameter member => ⟨areParameters parameter member, ?_⟩, returns⟩
        exact fun inside => noParenthesis (List.mem_flatten_of_mem member inside)
      · cases split
    · cases split

end Descriptor

end Relabel
