import Relabel.Proofs.Pass.Detaching
import Relabel.Proofs.Pass.StringSites

/-!
# The string pass

Each string is redirected by itself: nothing else that refers to its old text changes, and the text
itself stays. So what a site loads when its turn comes is what it loaded at the start, and once it
has been relabelled it stays as it is.
-/

namespace Relabel

variable {reserve : Nat}

/-- A text is processed to nothing new just if it holds no instruction. -/
theorem Lookup.process_isSome {table : SymbolTable} {goal : Goal} {text : String}
    {result : Option String} (run : process reserve table goal text = .ok result) :
    result.isSome = (find text.toList).isSome := by
  unfold process processChars at run
  cases found : find text.toList with
  | none =>
    simp [found, Except.map] at run
    simp [← run]
  | some occurrence =>
    simp only [found, Option.isSome_some, if_true] at run
    cases settled : settle table goal (text.toList.count '(' + reserve) text.toList with
    | error error =>
      rw [settled] at run
      cases run
    | ok chars =>
      rw [settled] at run
      cases run
      rfl

theorem Lookup.find_of_settle {table : SymbolTable} {goal : Goal} {budget : Nat}
    {text result : List Char} (run : settle table goal budget text = .ok result) :
    find result = none := by
  -- Processing ends only with a text that has no instruction left.
  induction budget generalizing text with
  | zero =>
    unfold settle at run
    split at run
    · next settled =>
      cases run
      simpa [step] using settled
    · cases run
    · cases run
  | succ budget ih =>
    unfold settle at run
    split at run
    · next settled =>
      cases run
      simpa [step] using settled
    · cases run
    · exact ih run

/-- A processed text holds no instruction any more. -/
theorem Lookup.find_of_process {table : SymbolTable} {goal : Goal} {text result : String}
    (run : process reserve table goal text = .ok (some result)) : find result.toList = none := by
  unfold process processChars at run
  split at run
  · cases settled : settle table goal (text.toList.count '(' + reserve) text.toList with
    | error error =>
      rw [settled] at run
      cases run
    | ok chars =>
      rw [settled] at run
      cases run
      rw [String.toList_ofList]
      exact find_of_settle settled
  · cases run

namespace Pass

open ClassFile (Fault Pool Constant)

/-- Whether the string with an index holds an instruction. -/
def holdsInstruction (pool : Pool) (index : UInt16) : Bool :=
  match pool.string index with
  | .ok value => (Lookup.find value.toList).isSome
  | .error _ => false

/-- What has become of the string with an index that referred to a text: the processed text if it
was one, and the same bytes otherwise. -/
structure Relabelled (reserve : Nat) (table : SymbolTable) (goal : Goal) (old new : Pool)
    (index text : UInt16) : Prop where
  decoded : ∀ {value}, old.text text = .ok value → ∃ result,
    Lookup.process reserve table goal value = .ok result ∧
      new.string index = .ok (result.getD value)
  undecoded : ∀ {bytes}, old.get text = .ok (.text bytes) → ModifiedUtf8.decode bytes = none →
    ∃ target, new.get index = .ok (.string target) ∧ new.get target = .ok (.text bytes)

/-! ## One string -/

/-- A string is passed over, or it is redirected to the processed text. -/
theorem relabelString_eq_ok {table : SymbolTable} {goal : Goal} {owner : String}
    {redirected result : List Redirection} {index : UInt16} {file after : ClassFile}
    (run : relabelString reserve table goal owner redirected index file = (.ok result, after)) :
    (after = file ∧ result = redirected ∧ ∀ text, file.pool.get index = .ok (.string text) →
        file.pool.text? text = .ok none ∨
          ∃ value, file.pool.text text = .ok value ∧
            Lookup.process reserve table goal value = .ok none) ∨
      ∃ text value relabelled target grown, file.pool.get index = .ok (.string text) ∧
        file.pool.text text = .ok value ∧
        Lookup.process reserve table goal value = .ok (some relabelled) ∧
        Pool.addText relabelled file.pool = (.ok target, grown) ∧
        Pool.redirect index target grown = (.ok (), after.pool) ∧
        after = { file with pool := after.pool } ∧
        result = { string := index, oldText := text } :: redirected := by
  -- Every lookup on the way either ends the run with a fault or goes on; what is no string, does
  -- not decode or holds no instruction is passed over.
  simp only [relabelString, Editing.bind_eq_ok, Editing.get_eq_ok] at run
  obtain ⟨_, _, ⟨rfl, rfl⟩, run⟩ := run
  cases found : file.pool.get index with
  | error fault =>
    rw [found] at run
    exact absurd run Editing.throw_ne_ok
  | ok constant =>
    cases constant with
    | string text =>
      simp only [found] at run
      cases decoded : file.pool.text? text with
      | error fault =>
        rw [decoded] at run
        exact absurd run Editing.throw_ne_ok
      | ok value? =>
        cases value? with
        | none =>
          rw [decoded] at run
          obtain ⟨rfl, rfl⟩ := Editing.pure_eq_ok.1 run
          refine .inl ⟨rfl, rfl, fun other isOther => .inl ?_⟩
          cases isOther
          exact decoded
        | some value =>
          have read := Pool.text?_eq_some_iff.1 decoded
          simp only [decoded] at run
          cases processed : Lookup.process reserve table goal value with
          | error cause =>
            rw [processed] at run
            exact absurd run Editing.throw_ne_ok
          | ok relabelled? =>
            cases relabelled? with
            | none =>
              rw [processed] at run
              obtain ⟨rfl, rfl⟩ := Editing.pure_eq_ok.1 run
              refine .inl ⟨rfl, rfl, fun other isOther => .inr ⟨value, ?_, processed⟩⟩
              cases isOther
              exact read
            | some relabelled =>
              simp only [processed, Editing.bind_eq_ok, Edit.ofFile_eq_ok,
                ClassFile.onPool_eq_ok, Editing.pure_eq_ok] at run
              obtain ⟨_, _, ⟨pool, ⟨target, grown, added, moved⟩, rfl⟩, rfl, rfl⟩ := run
              exact .inr ⟨text, value, relabelled, target, grown, rfl, read, processed, added,
                moved, rfl, rfl⟩
    | _ =>
      simp only [found] at run
      obtain ⟨rfl, rfl⟩ := Editing.pure_eq_ok.1 run
      exact .inl ⟨rfl, rfl, nofun⟩

/-- Whether there is nothing to relabel in the string with an index. -/
def IsSettled (pool : Pool) (index : UInt16) : Prop :=
  ∃ text value?, pool.get index = .ok (.string text) ∧ pool.text? text = .ok value? ∧
    ∀ value, value? = some value → Lookup.find value.toList = none

/-- A settled string stays so if neither the string nor any text changes. -/
theorem IsSettled.later {old new : Pool} {index : UInt16} (settled : IsSettled old index)
    (evolves : Pool.Evolves old new)
    (stays : ∀ {constant}, old.get index = .ok constant → new.get index = .ok constant) :
    IsSettled new index := by
  obtain ⟨text, value?, isString, read, holdsNone⟩ := settled
  exact ⟨text, value?, stays isString, evolves.text? read, holdsNone⟩

theorem relabelString_of_isSettled {table : SymbolTable} {goal : Goal} {owner : String}
    {redirected : List Redirection} {index : UInt16} {file : ClassFile}
    (settled : IsSettled file.pool index) :
    relabelString reserve table goal owner redirected index file = (.ok redirected, file) := by
  obtain ⟨text, value?, isString, read, holdsNone⟩ := settled
  refine Editing.bind_eq_ok.2 ⟨file, file, rfl, ?_⟩
  simp only [isString, read]
  cases value? with
  | none => rfl
  | some value =>
    have processed : Lookup.process reserve table goal value = .ok none := by
      simp [Lookup.process, Lookup.processChars, holdsNone value rfl, Except.map]
    simp only [processed]
    rfl

theorem holdsInstruction_iff {pool : Pool} {index : UInt16} :
    holdsInstruction pool index ↔ ∃ text value, pool.get index = .ok (.string text) ∧
      pool.text text = .ok value ∧ (Lookup.find value.toList).isSome := by
  unfold holdsInstruction
  cases read : pool.string index with
  | ok value =>
    obtain ⟨text, isString, decoded⟩ := Pool.string_eq_ok_iff.1 read
    constructor
    · exact fun holds => ⟨text, value, isString, decoded, holds⟩
    · rintro ⟨other, value', isOther, decoded', holds⟩
      rw [isString] at isOther
      cases isOther
      rw [decoded] at decoded'
      cases decoded'
      exact holds
  | error fault =>
    refine ⟨nofun, ?_⟩
    rintro ⟨text, value, isString, decoded, -⟩
    rw [Pool.string_eq_ok_iff.2 ⟨text, isString, decoded⟩] at read
    cases read

/-! ## All strings -/

/-- What a pool has become when some of its strings have been relabelled. -/
structure StringsDone (reserve : Nat) (table : SymbolTable) (goal : Goal)
    (sites : List UInt16) (old new : Pool)
    (redirected : List Redirection) : Prop where
  evolves : Pool.Evolves old new
  /-- New texts hold no instruction. -/
  texts : ∀ {index value}, new.text index = .ok value →
    old.text index = .ok value ∨ Lookup.find value.toList = none
  /-- Entries that have not been redirected stay. -/
  others : ∀ {index constant}, (∀ redirection ∈ redirected, redirection.string ≠ index) →
    old.get index = .ok constant → new.get index = .ok constant
  relabelled : ∀ {index text}, index ∈ sites → old.get index = .ok (.string text) →
    Relabelled reserve table goal old new index text
  settled : ∀ {index text}, index ∈ sites → old.get index = .ok (.string text) →
    IsSettled new index
  /-- The strings that hold an instruction are redirected, and no others. -/
  strings : redirected.map (·.string) = (sites.filter (holdsInstruction old)).reverse
  oldTexts : ∀ redirection ∈ redirected,
    old.get redirection.string = .ok (.string redirection.oldText)

theorem StringsDone.nil (reserve : Nat) (table : SymbolTable) (goal : Goal) (pool : Pool) :
    StringsDone reserve table goal [] pool pool [] where
  evolves := Pool.Evolves.refl pool
  texts read := .inl read
  others _ found := found
  relabelled member := by cases member
  settled member := by cases member
  strings := rfl
  oldTexts := nofun

/-- A string that is passed over has nothing to be relabelled. -/
theorem StringsDone.of_passed {table : SymbolTable} {goal : Goal} {pool : Pool} {index : UInt16}
    (passed : ∀ text, pool.get index = .ok (.string text) → pool.text? text = .ok none ∨
      ∃ value, pool.text text = .ok value ∧ Lookup.process reserve table goal value = .ok none) :
    StringsDone reserve table goal [index] pool pool [] := by
  constructor
  case evolves => exact Pool.Evolves.refl _
  case texts => exact fun read => .inl read
  case others => exact fun _ found => found
  case oldTexts => nofun
  case relabelled =>
    intro other text member isString
    obtain rfl := List.mem_singleton.1 member
    rcases passed text isString with undecoded | ⟨value, decoded, processed⟩
    · obtain ⟨bytes, isText, none⟩ := Pool.text?_eq_none_iff.1 undecoded
      refine ⟨fun {value} read => ?_, fun isBytes _ => ⟨text, isString, isBytes⟩⟩
      rw [Pool.text?_eq_some_iff.2 read] at undecoded
      cases undecoded
    · refine ⟨fun {value'} read => ⟨none, ?_, ?_⟩, fun isBytes _ => ⟨text, isString, isBytes⟩⟩
      · rw [decoded] at read
        cases read
        exact processed
      · exact Pool.string_eq_ok_iff.2 ⟨text, isString, read⟩
  case settled =>
    intro other text member isString
    obtain rfl := List.mem_singleton.1 member
    rcases passed text isString with undecoded | ⟨value, decoded, processed⟩
    · exact ⟨text, none, isString, undecoded, nofun⟩
    · refine ⟨text, some value, isString, Pool.text?_eq_some_iff.2 decoded, ?_⟩
      rintro _ ⟨⟩
      simpa using Lookup.process_isSome processed
  case strings =>
    have holdsNone : holdsInstruction pool index = false := by
      rw [Bool.eq_false_iff, ne_eq, holdsInstruction_iff]
      rintro ⟨text, value, isString, decoded, holds⟩
      rcases passed text isString with undecoded | ⟨value', decoded', processed⟩
      · rw [Pool.text?_eq_some_iff.2 decoded] at undecoded
        cases undecoded
      · rw [decoded] at decoded'
        cases decoded'
        rw [← Lookup.process_isSome processed] at holds
        cases holds
    simp [holdsNone]

/-- Redirecting a string to its processed text relabels it, and changes no other entry. -/
theorem StringsDone.of_redirected {table : SymbolTable} {goal : Goal} {pool grown new : Pool}
    {index text target : UInt16} {value relabelled : String} (bounded : pool.size ≤ 65535)
    (isString : pool.get index = .ok (.string text)) (decoded : pool.text text = .ok value)
    (processed : Lookup.process reserve table goal value = .ok (some relabelled))
    (added : Pool.addText relabelled pool = (.ok target, grown))
    (moved : Pool.redirect index target grown = (.ok (), new)) :
    StringsDone reserve table goal [index] pool new [{ string := index, oldText := text }] := by
  obtain ⟨grows, news, isTarget⟩ := Pool.addText_eq_ok added
  have later := Pool.redirect_evolves moved
  have newText : new.text target = .ok relabelled :=
    later.text (Pool.text_of_encode (isTarget bounded))
  have newString := Pool.get_redirect moved
  constructor
  case evolves => exact grows.evolves.trans later
  case oldTexts => simpa using isString
  case texts =>
    intro position value read
    obtain ⟨bytes, isText, decodes⟩ := Pool.text_eq_ok_iff.1 read
    obtain ⟨slot, -⟩ := Pool.get_eq_ok_iff.1 isText
    rw [Pool.getElem?_redirect moved] at slot
    split at slot
    · cases slot
    -- The only entry behind the old ones is the processed text, and that holds no instruction.
    by_cases inside : position.toNat < pool.size
    · exact .inl (Pool.text_eq_ok_iff.2
        ⟨bytes, Pool.get_eq_ok_iff.2 ⟨grows.old_of_lt slot inside, nofun⟩, decodes⟩)
    · cases news (by omega) slot
      rw [ModifiedUtf8.decode_encode] at decodes
      cases decodes
      exact .inr (Lookup.find_of_process processed)
  case others =>
    intro position constant notRedirected found
    have elsewhere : position ≠ index := by simpa [eq_comm] using notRedirected
    rw [Pool.get_redirect_of_ne moved elsewhere]
    exact grows.get found
  case relabelled =>
    intro position text' member isString'
    obtain rfl := List.mem_singleton.1 member
    rw [isString] at isString'
    cases isString'
    refine ⟨fun {value'} read => ⟨some relabelled, ?_, ?_⟩, fun {bytes} isBytes undecoded => ?_⟩
    · rw [decoded] at read
      cases read
      exact processed
    · exact Pool.string_eq_ok_iff.2 ⟨target, newString, newText⟩
    · obtain ⟨bytes', isText, decodes⟩ := Pool.text_eq_ok_iff.1 decoded
      rw [isBytes] at isText
      cases isText
      rw [undecoded] at decodes
      cases decodes
  case settled =>
    intro position text' member _
    obtain rfl := List.mem_singleton.1 member
    refine ⟨target, some relabelled, newString, Pool.text?_eq_some_iff.2 newText, ?_⟩
    rintro _ ⟨⟩
    exact Lookup.find_of_process processed
  case strings =>
    have holds : holdsInstruction pool index := by
      refine holdsInstruction_iff.2 ⟨text, value, isString, decoded, ?_⟩
      rw [← Lookup.process_isSome processed]
      rfl
    simp [holds]

/-- Relabelling one string does all that is to be done for it. -/
theorem relabelString_done {table : SymbolTable} {goal : Goal} {owner : String}
    {redirected result : List Redirection} {index : UInt16} {file after : ClassFile}
    (bounded : file.pool.size ≤ 65535)
    (run : relabelString reserve table goal owner redirected index file = (.ok result, after)) :
    after = { file with pool := after.pool } ∧ ∃ added, result = added ++ redirected ∧
      StringsDone reserve table goal [index] file.pool after.pool added := by
  rcases relabelString_eq_ok run with ⟨rfl, rfl, passed⟩ |
    ⟨text, value, relabelled, target, grown, isString, decoded, processed, added, moved, afterEq,
      rfl⟩
  · exact ⟨rfl, [], rfl, .of_passed passed⟩
  · exact ⟨afterEq, [_], rfl, .of_redirected bounded isString decoded processed added moved⟩

/-- What has become of a string is still so if neither the string nor any text changes. -/
theorem Relabelled.later {table : SymbolTable} {goal : Goal} {old middle new : Pool}
    {index text : UInt16} (done : Relabelled reserve table goal old middle index text)
    (evolves : Pool.Evolves middle new)
    (stays : ∀ {constant}, middle.get index = .ok constant → new.get index = .ok constant) :
    Relabelled reserve table goal old new index text := by
  constructor
  · intro value read
    obtain ⟨result, processed, string⟩ := done.decoded read
    obtain ⟨target, isString, isText⟩ := Pool.string_eq_ok_iff.1 string
    exact ⟨result, processed, Pool.string_eq_ok_iff.2 ⟨target, stays isString, evolves.text isText⟩⟩
  · intro bytes isBytes undecoded
    obtain ⟨target, isString, isText⟩ := done.undecoded isBytes undecoded
    exact ⟨target, stays isString, evolves.get isText rfl⟩

/-- What becomes of a string is the same if its relabelling starts later. -/
theorem Relabelled.earlier {table : SymbolTable} {goal : Goal} {old middle new : Pool}
    {index text : UInt16} (evolves : Pool.Evolves old middle)
    (done : Relabelled reserve table goal middle new index text) :
    Relabelled reserve table goal old new index text :=
  ⟨fun read => done.decoded (evolves.text read),
    fun isBytes undecoded => done.undecoded (evolves.get isBytes rfl) undecoded⟩

theorem StringsDone.mem_sites {table : SymbolTable} {goal : Goal} {sites : List UInt16}
    {old new : Pool} {redirected : List Redirection}
    (done : StringsDone reserve table goal sites old new redirected) {redirection : Redirection}
    (member : redirection ∈ redirected) : redirection.string ∈ sites := by
  have inStrings := List.mem_map_of_mem (f := (·.string)) member
  rw [done.strings, List.mem_reverse, List.mem_filter] at inStrings
  exact inStrings.1

/-- Entries that are not relabelled stay. -/
theorem StringsDone.get_of_notMem {table : SymbolTable} {goal : Goal} {sites : List UInt16}
    {old new : Pool} {redirected : List Redirection}
    (done : StringsDone reserve table goal sites old new redirected) {index : UInt16}
    {constant : Constant} (other : index ∉ sites) (found : old.get index = .ok constant) :
    new.get index = .ok constant :=
  done.others (fun _ member same => other (same ▸ done.mem_sites member)) found

/-- A string that is not relabelled holds an instruction later just if it did before. -/
theorem StringsDone.holdsInstruction_eq {table : SymbolTable} {goal : Goal} {sites : List UInt16}
    {old new : Pool} {redirected : List Redirection}
    (done : StringsDone reserve table goal sites old new redirected) {index : UInt16}
    (isString : IsStringIndex old index) (other : index ∉ sites) :
    holdsInstruction new index = holdsInstruction old index := by
  obtain ⟨text, found⟩ := isString
  have later := done.get_of_notMem other found
  rw [Bool.eq_iff_iff, holdsInstruction_iff, holdsInstruction_iff]
  constructor
  · rintro ⟨text', value, isString, decoded, holds⟩
    rw [later] at isString
    cases isString
    rcases done.texts decoded with before | none
    · exact ⟨text, value, found, before, holds⟩
    · rw [none] at holds
      cases holds
  · rintro ⟨text', value, isString, decoded, holds⟩
    rw [found] at isString
    cases isString
    exact ⟨text, value, later, done.evolves.text decoded, holds⟩

theorem StringsDone.append {table : SymbolTable} {goal : Goal} {front back : List UInt16}
    {old middle new : Pool} {first second : List Redirection}
    (frontDone : StringsDone reserve table goal front old middle first)
    (backDone : StringsDone reserve table goal back middle new second)
    (strings : ∀ index ∈ back, IsStringIndex old index) (disjoint : ∀ index ∈ back, index ∉ front) :
    StringsDone reserve table goal (front ++ back) old new (second ++ first) := by
  constructor
  case evolves => exact frontDone.evolves.trans backDone.evolves
  case texts =>
    intro index value read
    rcases backDone.texts read with before | none
    · exact frontDone.texts before
    · exact .inr none
  case others =>
    intro index constant notRedirected found
    rw [List.forall_mem_append] at notRedirected
    exact backDone.others notRedirected.1 (frontDone.others notRedirected.2 found)
  case relabelled =>
    intro index text member isString
    rcases List.mem_append.1 member with inFront | inBack
    · exact (frontDone.relabelled inFront isString).later backDone.evolves
        (backDone.get_of_notMem fun inBack => disjoint index inBack inFront)
    · have middleString := frontDone.get_of_notMem (disjoint index inBack) isString
      exact (backDone.relabelled inBack middleString).earlier frontDone.evolves
  case settled =>
    intro index text member isString
    rcases List.mem_append.1 member with inFront | inBack
    · exact (frontDone.settled inFront isString).later backDone.evolves
        (backDone.get_of_notMem fun inBack => disjoint index inBack inFront)
    · exact backDone.settled inBack
        (frontDone.get_of_notMem (disjoint index inBack) isString)
  case strings =>
    -- The strings behind are the same ones as at the start, since no site comes twice.
    have same : back.filter (holdsInstruction middle) = back.filter (holdsInstruction old) :=
      List.filter_congr fun index inBack =>
        frontDone.holdsInstruction_eq (strings index inBack) (disjoint index inBack)
    rw [List.map_append, backDone.strings, frontDone.strings, same, List.filter_append,
      List.reverse_append]
  case oldTexts =>
    rw [List.forall_mem_append]
    refine ⟨fun redirection member => ?_, frontDone.oldTexts⟩
    have inBack := backDone.mem_sites member
    obtain ⟨text, isString⟩ := strings _ inBack
    have middleString := frontDone.get_of_notMem (disjoint _ inBack) isString
    rw [backDone.oldTexts redirection member] at middleString
    cases middleString
    exact isString

/-- Relabelling strings one after the other does all that is to be done for each of them. -/
theorem foldlM_relabelString {table : SymbolTable} {goal : Goal} {owner : String}
    {sites : List UInt16} {redirected result : List Redirection} {file after : ClassFile}
    (bounded : file.pool.size ≤ 65535) (strings : ∀ index ∈ sites, IsStringIndex file.pool index)
    (distinct : sites.Nodup)
    (run : sites.foldlM (relabelString reserve table goal owner) redirected file =
      (.ok result, after)) :
    after = { file with pool := after.pool } ∧ ∃ added, result = added ++ redirected ∧
      StringsDone reserve table goal sites file.pool after.pool added := by
  induction sites generalizing redirected file with
  | nil =>
    rw [List.foldlM_nil, Editing.pure_eq_ok] at run
    obtain ⟨rfl, rfl⟩ := run
    exact ⟨rfl, [], rfl, .nil reserve table goal file.pool⟩
  | cons index rest ih =>
    rw [List.foldlM_cons, Editing.bind_eq_ok] at run
    obtain ⟨found, middle, head, tail⟩ := run
    obtain ⟨restStrings, restDistinct⟩ :
        (∀ index ∈ rest, IsStringIndex file.pool index) ∧ rest.Nodup :=
      ⟨(List.forall_mem_cons.1 strings).2, (List.nodup_cons.1 distinct).2⟩
    have others : ∀ other ∈ rest, other ∉ [index] := by
      intro other inRest isIndex
      obtain rfl := List.mem_singleton.1 isIndex
      exact (List.nodup_cons.1 distinct).1 inRest
    obtain ⟨middleEq, first, rfl, headDone⟩ := relabelString_done bounded head
    -- No index comes twice, so the strings behind are what they were.
    have middleStrings : ∀ other ∈ rest, IsStringIndex middle.pool other := by
      intro other inRest
      obtain ⟨text, isString⟩ := restStrings other inRest
      exact ⟨text, headDone.get_of_notMem (others other inRest) isString⟩
    obtain ⟨afterEq, second, rfl, tailDone⟩ :=
      ih (headDone.evolves.bounded bounded) middleStrings restDistinct tail
    refine ⟨?_, second ++ first, by simp, headDone.append tailDone restStrings others⟩
    rw [afterEq, middleEq]

/-! ## The pass -/

/-- The parts of a run: the strings at the sites are relabelled one after the other, and then the
arguments are detached if any string was redirected. -/
structure StringsRun (reserve : Nat) (table : SymbolTable) (goal : Goal)
    (file middle after : ClassFile) (owner : String) (sites : List UInt16)
    (redirected : List Redirection) : Prop where
  named : file.name = .ok owner
  collected : stringSites file = .ok sites
  relabelling :
    sites.foldlM (relabelString reserve table goal owner) [] file = (.ok redirected, middle)
  detaching : (redirected = [] ∧ after = middle) ∨
    ∃ copies, onAttributes [] (detachAttribute redirected) middle = (.ok copies, after)

theorem exists_stringsRun {table : SymbolTable} {goal : Goal} {file after : ClassFile}
    {changes : Changes} (run : relabelStrings reserve table goal file = (.ok changes, after)) :
    ∃ middle owner sites redirected,
      StringsRun reserve table goal file middle after owner sites redirected ∧
        changes.count = redirected.length := by
  simp only [relabelStrings, Editing.bind_eq_ok, Editing.get_eq_ok] at run
  obtain ⟨_, _, ⟨rfl, rfl⟩, run⟩ := run
  cases named : file.name with
  | error fault =>
    simp only [named] at run
    exact absurd run Editing.throw_ne_ok
  | ok owner =>
    cases collected : stringSites file with
    | error fault =>
      simp only [named, collected] at run
      exact absurd run Editing.throw_ne_ok
    | ok sites =>
      simp only [named, collected, Editing.bind_eq_ok] at run
      obtain ⟨redirected, middle, relabelling, run⟩ := run
      -- Arguments are looked at only if a string was redirected.
      cases isEmpty : redirected.isEmpty with
      | true =>
        simp only [isEmpty, if_true] at run
        obtain ⟨rfl, rfl⟩ := Editing.pure_eq_ok.1 run
        obtain rfl := List.isEmpty_iff.1 isEmpty
        exact ⟨middle, owner, sites, [], ⟨named, collected, relabelling, .inl ⟨rfl, rfl⟩⟩, rfl⟩
      | false =>
        simp only [isEmpty, Bool.false_eq_true, if_false, Editing.bind_eq_ok, Edit.ofFile_eq_ok,
          Editing.pure_eq_ok] at run
        obtain ⟨copies, _, detaching, rfl, rfl⟩ := run
        exact ⟨middle, owner, sites, redirected,
          ⟨named, collected, relabelling, .inr ⟨copies, detaching⟩⟩, rfl⟩

/-- The string pass relabels the strings at the sites and then detaches arguments, which adds to the
pool and changes nothing but bootstrap methods. Its changes are the redirected strings. -/
theorem relabelStrings_eq_ok {table : SymbolTable} {goal : Goal} {file after : ClassFile}
    {changes : Changes} (bounded : file.pool.size ≤ 65535)
    (run : relabelStrings reserve table goal file = (.ok changes, after)) :
    ∃ sites redirected pool, stringSites file = .ok sites ∧
      StringsDone reserve table goal sites file.pool pool redirected ∧ Pool.Grows pool after.pool ∧
      after = { file with pool := after.pool, attributes := after.attributes } ∧
      List.Forall₂ (AttributeRelated (Detached redirected after.pool)) file.attributes
        after.attributes ∧
      changes.count = redirected.length := by
  obtain ⟨middle, owner, sites, redirected, parts, counted⟩ := exists_stringsRun run
  obtain ⟨distinct, members⟩ := stringSites_eq_ok parts.collected
  obtain ⟨middleEq, added, addedEq, done⟩ := foldlM_relabelString bounded
    (fun index member => ((members index).1 member).2) distinct parts.relabelling
  rw [List.append_nil] at addedEq
  subst addedEq
  refine ⟨sites, redirected, middle.pool, parts.collected, done, ?_⟩
  rcases parts.detaching with ⟨rfl, rfl⟩ | ⟨copies, detaching⟩
  · refine ⟨.refl _, ?_, ?_, counted⟩
    · rw [middleEq]
    · rw [middleEq]
      have nothing (index : UInt16) : Detached [] after.pool index index := rfl
      exact List.forall₂_same.2 fun entry _ => .refl nothing entry
  · obtain ⟨grows, afterEq, all⟩ := detach_eq_ok detaching
    refine ⟨grows, ?_, ?_, counted⟩
    · rw [afterEq, middleEq]
    · rw [middleEq] at all
      exact all

/-! ## The frame -/

theorem relabelString_frame {table : SymbolTable} {goal : Goal} {owner : String}
    {redirected result : List Redirection} {index : UInt16} {file after : ClassFile}
    (run : relabelString reserve table goal owner redirected index file = (.ok result, after))
    (names : Pool) : MethodsKept names file after := by
  rcases relabelString_eq_ok run with ⟨rfl, -, -⟩ |
    ⟨text, value, relabelled, target, grown, -, -, -, added, moved, afterEq, -⟩
  · exact .refl names _
  · obtain ⟨grows, -, -⟩ := Pool.addText_eq_ok added
    have evolves := grows.evolves.trans (Pool.redirect_evolves moved)
    rw [afterEq]
    exact ⟨⟨rfl, evolves, .same, AttributeFrame.forall₂_same _ _⟩, rfl⟩

theorem foldlM_relabelString_frame {table : SymbolTable} {goal : Goal} {owner : String}
    {sites : List UInt16} {redirected result : List Redirection} {file after : ClassFile}
    (run : sites.foldlM (relabelString reserve table goal owner) redirected file =
      (.ok result, after)) (names : Pool) : MethodsKept names file after := by
  induction sites generalizing redirected file with
  | nil =>
    rw [List.foldlM_nil, Editing.pure_eq_ok] at run
    obtain ⟨rfl, rfl⟩ := run
    exact .refl names _
  | cons index rest ih =>
    rw [List.foldlM_cons, Editing.bind_eq_ok] at run
    obtain ⟨found, middle, head, tail⟩ := run
    exact (relabelString_frame head names).trans (ih tail)

theorem relabelStrings_frame {table : SymbolTable} {goal : Goal} {file after : ClassFile}
    {changes : Changes} (run : relabelStrings reserve table goal file = (.ok changes, after))
    (names : Pool) : MethodsKept names file after := by
  obtain ⟨middle, owner, sites, redirected, parts, -⟩ := exists_stringsRun run
  have relabelled := foldlM_relabelString_frame parts.relabelling names
  rcases parts.detaching with ⟨-, rfl⟩ | ⟨copies, detaching⟩
  · exact relabelled
  · exact relabelled.trans (detach_frame detaching names)

/-- Of the attributes, the string pass changes arguments of bootstrap methods only. -/
theorem relabelStrings_attributes {table : SymbolTable} {goal : Goal} {file after : ClassFile}
    {changes : Changes} (bounded : file.pool.size ≤ 65535)
    (run : relabelStrings reserve table goal file = (.ok changes, after)) :
    List.Forall₂ ArgumentsFrame file.attributes after.attributes := by
  obtain ⟨middle, owner, sites, redirected, parts, -⟩ := exists_stringsRun run
  obtain ⟨distinct, members⟩ := stringSites_eq_ok parts.collected
  obtain ⟨middleEq, -⟩ := foldlM_relabelString bounded
    (fun index member => ((members index).1 member).2) distinct parts.relabelling
  have sameAttributes : middle.attributes = file.attributes := by
    rw [middleEq]
  rw [← sameAttributes]
  rcases parts.detaching with ⟨-, rfl⟩ | ⟨copies, detaching⟩
  · exact List.forall₂_same.2 fun entry _ => .same entry
  · exact detach_attributes detaching

/-! ## Nothing to relabel -/

theorem foldlM_of_isSettled {table : SymbolTable} {goal : Goal} {owner : String}
    {sites : List UInt16} {redirected : List Redirection} {file : ClassFile}
    (settled : ∀ index ∈ sites, IsSettled file.pool index) :
    sites.foldlM (relabelString reserve table goal owner) redirected file =
      (.ok redirected, file) := by
  induction sites with
  | nil => rfl
  | cons index rest ih =>
    obtain ⟨here, others⟩ := List.forall_mem_cons.1 settled
    rw [List.foldlM_cons]
    exact Editing.bind_eq_ok.2 ⟨_, file, relabelString_of_isSettled here, ih others⟩

/-- If no string is redirected, nothing else is done. -/
theorem relabelStrings_of_noneRedirected {table : SymbolTable} {goal : Goal} {owner : String}
    {sites : List UInt16} {file middle : ClassFile} (named : file.name = .ok owner)
    (collected : stringSites file = .ok sites)
    (relabelling : sites.foldlM (relabelString reserve table goal owner) [] file =
      (.ok [], middle)) :
    relabelStrings reserve table goal file = (.ok {}, middle) := by
  refine Editing.bind_eq_ok.2 ⟨file, file, rfl, ?_⟩
  simp only [named, collected]
  exact Editing.bind_eq_ok.2 ⟨[], middle, relabelling, rfl⟩

/-- Without an instruction at any site, there is nothing to do. -/
theorem relabelStrings_of_isSettled {table : SymbolTable} {goal : Goal} {owner : String}
    {sites : List UInt16} {file : ClassFile} (named : file.name = .ok owner)
    (collected : stringSites file = .ok sites)
    (settled : ∀ index ∈ sites, IsSettled file.pool index) :
    relabelStrings reserve table goal file = (.ok {}, file) :=
  relabelStrings_of_noneRedirected named collected (foldlM_of_isSettled settled)

end Pass

end Relabel
