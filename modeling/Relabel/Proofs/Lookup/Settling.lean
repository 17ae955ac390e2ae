import Mathlib
import Relabel.Proofs.Lookup.Identity
import Relabel.Proofs.Lookup.Scan

/-!
# Texts that settle

Each replacement takes the parenthesis of an opener out of the text. What comes in for it has no
more parentheses than the body: for developers it is a part of the body, and for production it is a
name of the symbol table, where names have none as a rule. So the number of opening parentheses of a
text goes down with every replacement, although the text itself may grow and results may join with
what stands around them, and the text settles after at most that many replacements. With other
tables a text may settle later or never. If it settles, its outcome is the same with every reserve
that is large enough for it.
-/

namespace Relabel

/-! ## Counting parentheses -/

theorem Text.count_replaceChar {old new c : Char} (notOld : c ≠ old) (notNew : c ≠ new)
    (text : List Char) : (replaceChar old new text).count c = text.count c := by
  induction text with
  | nil => rfl
  | cons first rest ih =>
    rw [replaceChar, List.map_cons, ← replaceChar]
    by_cases same : first = old
    · rw [if_pos same, List.count_cons_of_ne notNew.symm, ih,
        List.count_cons_of_ne (same ▸ notOld.symm)]
    · rw [if_neg same, List.count_cons, List.count_cons, ih]

namespace Lookup

variable {table : SymbolTable} {goal : Goal} {i : Instruction}

theorem count_className (i : Instruction) : i.className.count '(' = i.body.count '(' := by
  unfold Instruction.className
  split
  · exact Text.count_replaceChar (by decide) (by decide) i.body
  · rfl

/-- The name of a member is a part of the body. -/
theorem sublist_of_member? {owner name : List Char} (split : i.member? = some (owner, name)) :
    name.Sublist i.body := by
  unfold Instruction.member? at split
  split at split
  · unfold splitSimple? at split
    split at split
    · next first second rest parts =>
      split at split
      · cases split
      · cases split
        have isPart : name ∈ i.body.splitOn ' ' := by simp [parts]
        exact Text.sublist_of_mem_splitOn isPart
    · cases split
  · simp only [splitAdvanced?, Option.bind_eq_bind, Option.bind_eq_some_iff, Prod.exists] at split
    obtain ⟨first, rest, cut, split⟩ := split
    split at split
    · cases split
    · cases split
      exact (List.takeWhile_sublist _).trans (Text.sublist_of_splitFirst? cut)

theorem count_le_of_readable {name : List Char} (read : i.readable = .ok name) :
    name.count '(' ≤ i.body.count '(' := by
  unfold Instruction.readable at read
  repeat' split at read
  all_goals cases read
  · exact (count_className i).le
  all_goals
    next split => exact (sublist_of_member? split).count_le '('

/-- No name that a symbol table leads to has an opening parenthesis. -/
structure HasPlainNames (table : SymbolTable) : Prop where
  classes : ∀ (key name : String), table.classes[key]? = some name → '(' ∉ name.toList
  fields : ∀ (key name : String), table.fields[key]? = some name → '(' ∉ name.toList
  methods : ∀ (key name : String), table.methods[key]? = some name → '(' ∉ name.toList

/-- The owners of a table lead to the same names as its members. -/
theorem notMem_of_byOwner {names : Names} {separator : Char}
    (plain : ∀ (key name : String), names[key]? = some name → '(' ∉ name.toList)
    {owner name : String} (found : (names.byOwner separator)[owner]? = some name) :
    '(' ∉ name.toList := by
  obtain ⟨key, -, inMap, -⟩ := Names.exists_of_byOwner found
  exact plain key name inMap

theorem notMem_of_found {mapped? : Option String} {query name : List Char}
    (plain : ∀ mapped, mapped? = some mapped → '(' ∉ mapped.toList)
    (looked : Instruction.lookup.found i query mapped? = .ok name) : '(' ∉ name := by
  obtain ⟨mapped, isMapped, rfl⟩ := Instruction.lookup.found_eq_ok looked
  exact plain mapped isMapped

theorem notMem_of_member {query? : String → String → Option String} {name : List Char}
    (plain : ∀ owner member mapped, query? owner member = some mapped → '(' ∉ mapped.toList)
    (looked : Instruction.lookup.member i query? = .ok name) : '(' ∉ name := by
  unfold Instruction.lookup.member at looked
  split at looked
  · exact notMem_of_found (plain _ _) looked
  · cases looked

theorem notMem_of_lookup (plain : HasPlainNames table) {name : List Char}
    (looked : i.lookup table = .ok name) : '(' ∉ name := by
  unfold Instruction.lookup at looked
  split at looked
  · exact notMem_of_found (fun mapped => plain.classes _ mapped) looked
  · refine notMem_of_member (fun owner member mapped found => ?_) looked
    split at found
    · rw [SymbolTable.methodOf?, table.methodOwners_eq] at found
      exact notMem_of_byOwner plain.methods found
    · exact plain.methods _ mapped found
  · refine notMem_of_member (fun owner member mapped found => ?_) looked
    split at found
    · rw [SymbolTable.fieldOf?, table.fieldOwners_eq] at found
      exact notMem_of_byOwner plain.fields found
    · exact plain.fields _ mapped found

/-- What comes in for an instruction has no more parentheses than its body. -/
theorem count_le_of_resolve (plain : goal = .production → HasPlainNames table) {name : List Char}
    (resolved : i.resolve table goal = .ok name) : name.count '(' ≤ i.body.count '(' := by
  have kept (slashes : Bool) (text : List Char) :
      (if slashes then text else Text.replaceChar '/' '.' text).count '(' = text.count '(' := by
    cases slashes
    · exact Text.count_replaceChar (by decide) (by decide) text
    · rfl
  cases goal with
  | developer =>
    cases read : i.readable with
    | error error =>
      simp only [Instruction.resolve, read] at resolved
      cases resolved
    | ok text =>
      simp only [Instruction.resolve, read] at resolved
      cases resolved
      rw [kept]
      exact count_le_of_readable read
  | production =>
    cases looked : i.lookup table with
    | error error =>
      simp only [Instruction.resolve, looked] at resolved
      cases resolved
    | ok text =>
      simp only [Instruction.resolve, looked] at resolved
      cases resolved
      rw [kept, List.count_eq_zero.2 (notMem_of_lookup (plain rfl) looked)]
      exact Nat.zero_le _

/-- A replacement takes a parenthesis out of the text. -/
theorem count_lt_of_step (plain : goal = .production → HasPlainNames table)
    {text next : List Char} (moved : step table goal text = some (.ok next)) :
    next.count '(' < text.count '(' := by
  unfold step at moved
  obtain ⟨result, found, moved⟩ := Option.map_eq_some_iff.1 moved
  cases result with
  | error start => cases moved
  | ok o =>
    cases resolved : o.instruction.resolve table goal with
    | error error =>
      simp only [resolved] at moved
      cases moved
    | ok name =>
      simp only [resolved] at moved
      cases moved
      have fewer := count_le_of_resolve plain resolved
      have opener : 0 < (opening o.instruction.kind o.instruction.slashes).count '(' :=
        List.count_pos_iff.2 (parenthesis_mem_opening _ _)
      rw [(find_eq_ok found).1, Instruction.spell_eq]
      simp only [List.count_append]
      omega

/-! ## Runs -/

/-- The outcome of a text after exactly this many replacements: a text without instructions, or the
error of an instruction that cannot be replaced. -/
inductive SettlesIn (table : SymbolTable) (goal : Goal) :
    Nat → List Char → Except Error (List Char) → Prop
  | settled {text : List Char} (nothing : step table goal text = none) :
    SettlesIn table goal 0 text (.ok text)
  | failed {text : List Char} {error : Error} (fails : step table goal text = some (.error error)) :
    SettlesIn table goal 0 text (.error error)
  | replaced {count : Nat} {text next : List Char} {result : Except Error (List Char)}
    (moved : step table goal text = some (.ok next))
    (settles : SettlesIn table goal count next result) :
    SettlesIn table goal (count + 1) text result

/-- A text has one outcome, which comes after one number of replacements. -/
theorem SettlesIn.unique {count other : Nat} {text : List Char}
    {result otherResult : Except Error (List Char)} (first : SettlesIn table goal count text result)
    (second : SettlesIn table goal other text otherResult) :
    other = count ∧ otherResult = result := by
  induction first generalizing other with
  | settled nothing =>
    cases second with
    | settled => exact ⟨rfl, rfl⟩
    | failed fails => cases nothing.symm.trans fails
    | replaced moved => cases nothing.symm.trans moved
  | failed fails =>
    cases second with
    | settled nothing => cases nothing.symm.trans fails
    | failed again =>
      cases fails.symm.trans again
      exact ⟨rfl, rfl⟩
    | replaced moved => cases fails.symm.trans moved
  | replaced moved _ ih =>
    cases second with
    | settled nothing => cases nothing.symm.trans moved
    | failed fails => cases fails.symm.trans moved
    | replaced again settles =>
      cases moved.symm.trans again
      obtain ⟨rfl, rfl⟩ := ih settles
      exact ⟨rfl, rfl⟩

/-- A text whose replacements take out parentheses has an outcome. -/
theorem exists_settlesIn (plain : goal = .production → HasPlainNames table) (text : List Char) :
    ∃ count result, SettlesIn table goal count text result ∧ count ≤ text.count '(' := by
  induction parentheses : text.count '(' using Nat.strong_induction_on generalizing text with
  | h _ ih =>
    cases moved : step table goal text with
    | none => exact ⟨0, .ok text, .settled moved, Nat.zero_le _⟩
    | some result =>
      cases result with
      | error error => exact ⟨0, .error error, .failed moved, Nat.zero_le _⟩
      | ok next =>
        have fewer := count_lt_of_step plain moved
        obtain ⟨count, result, settles, bound⟩ := ih _ (parentheses ▸ fewer) next rfl
        exact ⟨count + 1, result, .replaced moved settles, by omega⟩

/-- A budget that is not used up does not change the outcome. -/
theorem SettlesIn.settle_eq {count budget : Nat} {text : List Char}
    {result : Except Error (List Char)} (settles : SettlesIn table goal count text result)
    (enough : count ≤ budget) : settle table goal budget text = result := by
  induction settles generalizing budget with
  | settled nothing => rw [settle, nothing]
  | failed fails => rw [settle, fails]
  | replaced moved _ ih =>
    obtain ⟨budget, rfl⟩ := Nat.exists_eq_add_one_of_ne_zero (show budget ≠ 0 by omega)
    rw [settle, moved]
    exact ih (Nat.le_of_succ_le_succ enough)

/-- What comes out before the budget is used up is the outcome of the text. -/
theorem settlesIn_of_settle {budget : Nat} {text : List Char} {result : Except Error (List Char)}
    (run : settle table goal budget text = result) (settled : result ≠ .error .unsettled) :
    ∃ count ≤ budget, SettlesIn table goal count text result := by
  fun_induction settle table goal budget text with
  | case1 budget text nothing => exact ⟨0, Nat.zero_le _, run ▸ .settled nothing⟩
  | case2 budget text error fails => exact ⟨0, Nat.zero_le _, run ▸ .failed fails⟩
  | case3 => exact absurd run.symm settled
  | case4 text next moved budget ih =>
    obtain ⟨count, enough, settles⟩ := ih run
    exact ⟨count + 1, Nat.succ_le_succ enough, .replaced moved settles⟩

/-- A text that settles within the budget is processed to its outcome. -/
theorem SettlesIn.process_eq {reserve count : Nat} {value : String}
    {result : Except Error (List Char)} (settles : SettlesIn table goal count value.toList result)
    (enough : count ≤ value.toList.count '(' + reserve) :
    process reserve table goal value =
      if (find value.toList).isSome then result.map fun text => some (String.ofList text)
      else .ok none := by
  rw [process, processChars, settles.settle_eq enough]
  split
  · cases result <;> rfl
  · rfl

/-- **A greater reserve changes no outcome.** What processing gives is the outcome of the text,
unless the budget has been used up, and with every greater reserve it is the same. -/
theorem process_of_le {fewer more : Nat} (le : fewer ≤ more) {value : String}
    (settled : process fewer table goal value ≠ .error .unsettled) :
    process more table goal value = process fewer table goal value := by
  by_cases holds : (find value.toList).isSome
  · have inTime :
        settle table goal (value.toList.count '(' + fewer) value.toList ≠ .error .unsettled := by
      intro unsettled
      refine settled ?_
      rw [process, processChars, if_pos holds, unsettled]
      rfl
    obtain ⟨count, enough, settles⟩ := settlesIn_of_settle rfl inTime
    rw [settles.process_eq (enough.trans (Nat.add_le_add_left le _)), settles.process_eq enough]
  · rw [process, processChars, process, processChars, if_neg holds, if_neg holds]

theorem map_ne_unsettled {α β : Type} {result : Except Error α}
    (settled : result ≠ .error .unsettled) (change : α → β) :
    result.map change ≠ .error .unsettled := by
  cases result with
  | error error =>
    rintro ⟨⟩
    exact settled rfl
  | ok value => nofun

theorem resolve_ne_unsettled (table : SymbolTable) (goal : Goal) (i : Instruction) :
    i.resolve table goal ≠ .error .unsettled := by
  have ofFound (query : List Char) (mapped? : Option String) :
      Instruction.lookup.found i query mapped? ≠ .error .unsettled := by
    cases mapped? <;> nofun
  have ofMember (query? : String → String → Option String) :
      Instruction.lookup.member i query? ≠ .error .unsettled := by
    unfold Instruction.lookup.member
    split
    · exact ofFound _ _
    · nofun
  have ofReadable : i.readable ≠ .error .unsettled := by
    unfold Instruction.readable
    repeat' split
    all_goals nofun
  have ofLookup : i.lookup table ≠ .error .unsettled := by
    unfold Instruction.lookup
    split
    · exact ofFound _ _
    · exact ofMember _
    · exact ofMember _
  cases goal with
  | developer => exact map_ne_unsettled ofReadable _
  | production => exact map_ne_unsettled ofLookup _

/-- No outcome is that the text is still unsettled. -/
theorem SettlesIn.ne_unsettled {count : Nat} {text : List Char}
    {result : Except Error (List Char)} (settles : SettlesIn table goal count text result) :
    result ≠ .error .unsettled := by
  induction settles with
  | settled => nofun
  | @failed text error fails =>
    rintro ⟨⟩
    obtain ⟨found, -, fails⟩ := Option.map_eq_some_iff.1 fails
    cases found with
    | error start => cases fails
    | ok o => exact map_ne_unsettled (resolve_ne_unsettled table goal o.instruction) _ fails
  | replaced _ _ ih => exact ih

/-- **Processing terminates.** For developers, and for production if no name of the symbol table
has an opening parenthesis, every text comes to its outcome after at most as many replacements as it
has opening parentheses, and what processing gives is this outcome, without any reserve. -/
theorem process_terminates (plain : goal = .production → HasPlainNames table) (value : String) :
    ∃ count result, SettlesIn table goal count value.toList result ∧
      count ≤ value.toList.count '(' ∧
      (∀ other otherResult, SettlesIn table goal other value.toList otherResult →
        other = count ∧ otherResult = result) ∧
      ∀ reserve,
        process reserve table goal value =
          (if (find value.toList).isSome then result.map fun text => some (String.ofList text)
          else .ok none) ∧
        process reserve table goal value ≠ .error .unsettled := by
  obtain ⟨count, result, settles, bound⟩ := exists_settlesIn plain value.toList
  have run (reserve : Nat) : process reserve table goal value =
      (if (find value.toList).isSome then result.map fun text => some (String.ofList text)
      else .ok none) :=
    settles.process_eq (Nat.le_add_right_of_le bound)
  refine ⟨count, result, settles, bound, fun _ _ => settles.unique,
    fun reserve => ⟨run reserve, ?_⟩⟩
  rw [run]
  split
  · exact map_ne_unsettled settles.ne_unsettled _
  · intro unsettled
    cases unsettled

/-- Renames the class `a` to the start of an opener. -/
def joiningTable : SymbolTable := .ofNames ((∅ : Names).insert "a" "SR") ∅ ∅

/-- A result that makes up a new instruction with the text behind it takes one replacement more. -/
theorem process_terminates_of_joined_opener :
    SettlesIn joiningTable .production 2 "SRC(a)C(a)".toList (.ok "SR".toList) ∧
      process 0 joiningTable .production "SRC(a)C(a)" = .ok (some "SR") := by
  have plain : HasPlainNames joiningTable := by
    constructor <;>
      simp +contextual [joiningTable, SymbolTable.ofNames, Std.ExtTreeMap.getElem?_insert]
  have first : step joiningTable .production "SRC(a)C(a)".toList = some (.ok "SRC(a)".toList) := by
    decide +kernel
  have second : step joiningTable .production "SRC(a)".toList = some (.ok "SR".toList) := by
    decide +kernel
  have third : step joiningTable .production "SR".toList = none := by decide +kernel
  have settles : SettlesIn joiningTable .production 2 "SRC(a)C(a)".toList (.ok "SR".toList) :=
    .replaced first (.replaced second (.settled third))
  obtain ⟨count, result, -, -, only, run⟩ := process_terminates (fun _ => plain) "SRC(a)C(a)"
  obtain ⟨-, rfl⟩ := only 2 _ settles
  exact ⟨settles, (run 0).1⟩

end Lookup

end Relabel
