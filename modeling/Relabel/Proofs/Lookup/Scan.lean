import Mathlib
import Relabel.Lookup.Process
import Relabel.Proofs.Lookup.Finding

/-!
# Processing as a single scan

Processing starts over at the front of the text after each replacement. When all results are sealed,
it does what a single scan from left to right does, which never looks at a result again: the text
that the scan is done with is inert, so the next instruction of the whole text is the next one of
the rest. Every instruction opens with a parenthesis that no result brings back, so the number of
parentheses bounds the number of replacements.
-/

namespace Relabel.Lookup

variable {table : SymbolTable} {goal : Goal}

/-! ## The scan -/

/-- A scan of the text behind `done`, which goes on behind each instruction. -/
def scanFrom (table : SymbolTable) (goal : Goal) (done text : List Char) :
    Except Error (List Char) :=
  match _found : find text with
  | none => .ok (done ++ text)
  | some (.error start) => .error (.unterminated (Utf8.size done + start))
  | some (.ok o) =>
    match o.instruction.resolve table goal with
    | .error error => .error error
    | .ok name => scanFrom table goal (done ++ (o.before ++ name)) o.after
termination_by text.count '('
decreasing_by exact count_after_lt _found

def scan (table : SymbolTable) (goal : Goal) (text : List Char) : Except Error (List Char) :=
  scanFrom table goal [] text

theorem scanFrom_of_nothing {done text : List Char} (nothing : find text = none) :
    scanFrom table goal done text = .ok (done ++ text) := by
  unfold scanFrom
  split
  · rfl
  · next found => simp [nothing] at found
  · next found => simp [nothing] at found

theorem scanFrom_of_found {done text name : List Char} {o : Occurrence}
    (found : find text = some (.ok o)) (resolved : o.instruction.resolve table goal = .ok name) :
    scanFrom table goal done text = scanFrom table goal (done ++ (o.before ++ name)) o.after := by
  rw [scanFrom]
  split
  · next nothing => simp [found] at nothing
  · next again => simp [found] at again
  · next again =>
    rw [found] at again
    cases again
    rw [resolved]

/-! ## What a scan meets -/

/-- Whether a scan of the text meets an instruction. -/
inductive Meets (table : SymbolTable) (goal : Goal) : List Char → Instruction → Prop
  | first {text : List Char} {o : Occurrence} (found : find text = some (.ok o)) :
    Meets table goal text o.instruction
  | later {text name : List Char} {o : Occurrence} {i : Instruction}
    (found : find text = some (.ok o)) (resolved : o.instruction.resolve table goal = .ok name)
    (meets : Meets table goal o.after i) : Meets table goal text i

/-- Whether all that a scan of the text replaces instructions by is sealed. -/
def IsSealing (table : SymbolTable) (goal : Goal) (text : List Char) : Prop :=
  ∀ i name, Meets table goal text i → i.resolve table goal = .ok name → IsSealed name

theorem IsSealing.of_nothing {text : List Char} (nothing : find text = none) :
    IsSealing table goal text := by
  intro i name meets _
  cases meets with
  | first found => simp [nothing] at found
  | later found => simp [nothing] at found

theorem IsSealing.of_found {text name : List Char} {o : Occurrence}
    (found : find text = some (.ok o)) (resolved : o.instruction.resolve table goal = .ok name)
    (isSealed : IsSealed name) (rest : IsSealing table goal o.after) :
    IsSealing table goal text := by
  intro i other meets resolvedOther
  cases meets with
  | first again =>
    rw [found] at again
    cases again
    rw [resolved] at resolvedOther
    cases resolvedOther
    exact isSealed
  | later again _ meets =>
    rw [found] at again
    cases again
    exact rest i other meets resolvedOther

/-- A text and the same text with its instructions replaced, from left to right. -/
inductive Substitutes (table : SymbolTable) (goal : Goal) : List Char → List Char → Prop
  | rest {text : List Char} (nothing : find text = none) : Substitutes table goal text text
  | instruction {before after name result : List Char} {i : Instruction}
    (found : find (before ++ (i.spell ++ after)) =
      some (.ok { before := before, instruction := i, after := after }))
    (resolved : i.resolve table goal = .ok name)
    (substitutes : Substitutes table goal after result) :
    Substitutes table goal (before ++ (i.spell ++ after)) (before ++ (name ++ result))

theorem substitutes_of_scanFrom {done text result : List Char}
    (run : scanFrom table goal done text = .ok result) :
    ∃ replaced, result = done ++ replaced ∧ Substitutes table goal text replaced := by
  fun_induction scanFrom table goal done text with
  | case1 done text nothing =>
    cases run
    exact ⟨text, rfl, .rest nothing⟩
  | case2 => cases run
  | case3 => cases run
  | case4 done text o found name resolved ih =>
    obtain ⟨replaced, rfl, substitutes⟩ := ih run
    have textEq := (find_eq_ok found).1
    refine ⟨o.before ++ (name ++ replaced), by simp, ?_⟩
    rw [textEq] at found ⊢
    exact .instruction found resolved substitutes

/-! ## Starting over -/

/-- Starting over behind an inert text does what the scan does from there. -/
theorem settle_eq_scanFrom {done text : List Char} {budget : Nat} (inert : Inert done)
    (sealing : IsSealing table goal text) (enough : text.count '(' ≤ budget) :
    settle table goal budget (done ++ text) = scanFrom table goal done text := by
  fun_induction scanFrom table goal done text generalizing budget with
  | case1 done text nothing =>
    have here : step table goal (done ++ text) = none := by
      rw [step, inert.find, nothing]
      rfl
    rw [settle, here]
  | case2 done text start found =>
    have here : step table goal (done ++ text) =
        some (.error (.unterminated (Utf8.size done + start))) := by
      rw [step, inert.find, found]
      rfl
    rw [settle, here]
  | case3 done text o found error failed =>
    have here : step table goal (done ++ text) = some (.error error) := by
      rw [step, inert.find, found]
      simp [behind, failed, Except.map]
    rw [settle, here]
  | case4 done text o found name resolved ih =>
    have here : step table goal (done ++ text) =
        some (.ok (done ++ (o.before ++ name) ++ o.after)) := by
      rw [step, inert.find, found]
      simp [behind, resolved, Except.map]
    have isSealed := sealing o.instruction name (.first found) resolved
    -- One replacement is paid for by the parenthesis of the opener, which is gone for good.
    have fewer := count_after_lt found
    obtain ⟨left, rfl⟩ := Nat.exists_eq_add_one_of_ne_zero (show budget ≠ 0 by omega)
    rw [settle, here]
    apply ih
    · exact inert.append (isSealed.inert (find_eq_ok found).2)
    · intro i other meets
      exact sealing i other (.later found resolved meets)
    · omega

/-- **Processing is a scan.** A text without instructions is left alone. Any other text becomes what
the scan makes of it, which has the text outside of the instructions as it was, and processing fails
just when the scan fails, with the same error. No reserve is needed for that. -/
theorem process_eq_scan {value : String} {reserve : Nat}
    (sealing : IsSealing table goal value.toList) :
    process reserve table goal value =
        (if (find value.toList).isSome then
          (scan table goal value.toList).map fun text => some (String.ofList text)
        else .ok none) ∧
      ∀ text, process reserve table goal value = .ok (some text) →
        Substitutes table goal value.toList text.toList := by
  have settled : settle table goal (value.toList.count '(' + reserve) value.toList =
      scan table goal value.toList :=
    settle_eq_scanFrom .nil sealing (Nat.le_add_right ..)
  have run : process reserve table goal value =
      (if (find value.toList).isSome then
        (scan table goal value.toList).map fun text => some (String.ofList text)
      else .ok none) := by
    rw [process, processChars, settled]
    split
    · cases scan table goal value.toList <;> rfl
    · rfl
  refine ⟨run, ?_⟩
  -- A text that comes out has been scanned, and the scan copies what it does not replace.
  intro text processed
  rw [run] at processed
  split at processed
  · cases scanned : scan table goal value.toList with
    | error error =>
      rw [scanned] at processed
      cases processed
    | ok replaced =>
      rw [scanned] at processed
      cases processed
      obtain ⟨result, rfl, substitutes⟩ := substitutes_of_scanFrom scanned
      rw [String.toList_ofList]
      exact substitutes
  · cases processed

/-- What a result leaves of an opener in front of it does not join with the text behind it. -/
theorem process_of_split_opener :
    process 0 (.ofNames ∅ ∅ ∅) .developer "SRSRC(a)C(b)ASRF/(c.d.I)" = .ok (some "SRaC(b)d") := by
  have foundFirst : find "SRSRC(a)C(b)ASRF/(c.d.I)".toList =
      some (.ok ⟨['S', 'R'], ⟨.simple, .type, false, ['a']⟩, "C(b)ASRF/(c.d.I)".toList⟩) := by
    decide +kernel
  have foundSecond : find "C(b)ASRF/(c.d.I)".toList =
      some (.ok ⟨"C(b)".toList, ⟨.advanced, .field, true, "c.d.I".toList⟩, []⟩) := by
    decide +kernel
  have resolvedFirst : (⟨.simple, .type, false, ['a']⟩ : Instruction).resolve (.ofNames ∅ ∅ ∅)
      .developer = .ok ['a'] := by
    decide +kernel
  have resolvedSecond : (⟨.advanced, .field, true, "c.d.I".toList⟩ : Instruction).resolve
      (.ofNames ∅ ∅ ∅) .developer = .ok ['d'] := by
    decide +kernel
  have sealing :
      IsSealing (.ofNames ∅ ∅ ∅) .developer "SRSRC(a)C(b)ASRF/(c.d.I)".toList := by
    apply IsSealing.of_found foundFirst resolvedFirst ⟨by decide, by decide, by simp⟩
    apply IsSealing.of_found foundSecond resolvedSecond ⟨by decide, by decide, by simp⟩
    exact .of_nothing rfl
  have scanned : scan (.ofNames ∅ ∅ ∅) .developer "SRSRC(a)C(b)ASRF/(c.d.I)".toList =
      .ok "SRaC(b)d".toList := by
    rw [scan, scanFrom_of_found foundFirst resolvedFirst,
      scanFrom_of_found foundSecond resolvedSecond, scanFrom_of_nothing rfl]
    rfl
  rw [(process_eq_scan sealing).1, foundFirst, scanned]
  rfl

end Relabel.Lookup
