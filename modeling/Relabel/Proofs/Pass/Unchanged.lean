import Relabel.Proofs.Pass.Settled

/-!
# Class files without a change

Whatever a pass does to a class file it counts. So each pass ends with more changes than it began
with, or it has left the class file alone; and a class file that is left alone by all passes is the
one that there was.
-/

namespace Relabel.Pass

open ClassFile

/-! ## Metadata -/

/-- An edit does nothing, or it counts a change. -/
def Counted {α : Type} (state : Pool × Changes) (value : α) (after : Pool × Changes)
    (changed : α) : Prop :=
  (after = state ∧ changed = value) ∨ state.2.count < after.2.count

/-- If each edit is counted, then all of them are together. -/
theorem Edits.counted {α : Type} {edit : Pool × Changes → α → Outcome (Pool × Changes) α}
    (step : ∀ {state after value changed}, edit state value = ⟨after, changed, none⟩ →
      Counted state value after changed)
    {state after : Pool × Changes} {values edited : List α}
    (run : Edits edit state values after edited) : Counted state values after edited := by
  induction run with
  | nil => exact .inl ⟨rfl, rfl⟩
  | cons head tail ih =>
    obtain ⟨rfl, rfl⟩ | counted := step head
    · obtain ⟨rfl, rfl⟩ | counted := ih
      · exact .inl ⟨rfl, rfl⟩
      · exact .inr counted
    · obtain ⟨rfl, -⟩ | further := ih
      · exact .inr counted
      · exact .inr (Nat.lt_trans counted further)

section

variable {table : SymbolTable} {state after : Pool × Changes}

theorem relabelValue_counted {value changed : ElementValue}
    (run : relabelValue table state value = ⟨after, changed, none⟩) :
    Counted state value after changed := by
  obtain ⟨-, same | recorded⟩ := relabelValue_cases run
  · exact .inl same
  · exact .inr (by simp [recorded, Changes.record])

theorem relabelElements_counted {elements changed : List (UInt16 × ElementValue)}
    (run : relabelElements table state elements = ⟨after, changed, none⟩) :
    Counted state elements after changed := by
  obtain none | ⟨before, name, value, behind, isFirst⟩ := noneNamed_or_exists state.1 elements
  · rw [relabelElements_of_noneNamed none] at run
    cases run
    exact .inl ⟨rfl, rfl⟩
  · by_cases isArray : ∃ values, value = .array values
    · obtain ⟨values, rfl⟩ := isArray
      rw [isFirst.relabelElements_array] at run
      obtain ⟨changedValues, edits, rfl⟩ := Outcome.map_eq_iff.1 run
      obtain ⟨same, rfl⟩ | counted := (editEach_eq_iff.1 edits).counted relabelValue_counted
      · exact .inl ⟨same, isFirst.split.symm⟩
      · exact .inr counted
    · rw [isFirst.relabelElements_other (not_exists.1 isArray)] at run
      cases run
      exact .inl ⟨rfl, rfl⟩

theorem relabelIfMetadata_counted {entry changed : AnnotationEntry}
    (run : relabelIfMetadata table state entry = ⟨after, changed, none⟩) :
    Counted state entry after changed := by
  obtain ⟨type, old⟩ := entry
  unfold relabelIfMetadata at run
  split at run
  · cases run
  · split at run
    · obtain ⟨elements, edits, rfl⟩ := Outcome.map_eq_iff.1 run
      obtain ⟨same, rfl⟩ | counted := relabelElements_counted edits
      · exact .inl ⟨same, rfl⟩
      · exact .inr counted
    · cases run
      exact .inl ⟨rfl, rfl⟩

theorem relabelAttribute_counted {entry changed : Attribute}
    (run : relabelAttribute table state entry = ⟨after, changed, none⟩) :
    Counted state entry after changed := by
  unfold relabelAttribute at run
  split at run
  · obtain ⟨annotations, edits, rfl⟩ := Outcome.map_eq_iff.1 run
    obtain ⟨same, rfl⟩ | counted := (editEach_eq_iff.1 edits).counted relabelIfMetadata_counted
    · exact .inl ⟨same, rfl⟩
    · exact .inr counted
  · cases run
    exact .inl ⟨rfl, rfl⟩

end

theorem relabelMetadata_unchanged {table : SymbolTable} {file after : ClassFile}
    {changes : Changes} (run : relabelMetadata table file = (.ok changes, after))
    (unchanged : changes.count = 0) : after = file := by
  obtain ⟨pool, attributes, edits, rfl⟩ := onAttributes_eq_ok.1 run
  obtain ⟨same, rfl⟩ | counted := edits.counted relabelAttribute_counted
  · cases same
    rfl
  · simp [unchanged] at counted

/-! ## Strings -/

theorem foldlM_relabelString_counted {reserve : Nat} {table : SymbolTable} {goal : Goal}
    {owner : String} {sites : List UInt16} {redirected result : List Redirection}
    {file after : ClassFile}
    (run : sites.foldlM (relabelString reserve table goal owner) redirected file =
      (.ok result, after)) :
    (result = redirected ∧ after = file) ∨ redirected.length < result.length := by
  induction sites generalizing redirected file with
  | nil =>
    rw [List.foldlM_nil, Editing.pure_eq_ok] at run
    exact .inl ⟨run.1.symm, run.2.symm⟩
  | cons index rest ih =>
    rw [List.foldlM_cons, Editing.bind_eq_ok] at run
    obtain ⟨found, middle, head, tail⟩ := run
    obtain ⟨rfl, rfl, -⟩ | ⟨text, _, _, _, _, -, -, -, -, -, -, rfl⟩ := relabelString_eq_ok head
    · exact ih tail
    · -- This string is redirected, and the strings behind it take nothing away.
      obtain ⟨rfl, -⟩ | more := ih tail
      · exact .inr (Nat.lt_succ_self redirected.length)
      · exact .inr (Nat.lt_of_succ_lt more)

theorem relabelStrings_unchanged {reserve : Nat} {table : SymbolTable} {goal : Goal}
    {file after : ClassFile} {changes : Changes}
    (run : relabelStrings reserve table goal file = (.ok changes, after))
    (unchanged : changes.count = 0) : after = file := by
  obtain ⟨middle, owner, sites, redirected, parts, counted⟩ := exists_stringsRun run
  obtain rfl : redirected = [] := List.length_eq_zero_iff.1 (counted.symm.trans unchanged)
  -- Without a redirected string the arguments are not looked at.
  have nothing := relabelStrings_of_noneRedirected parts.named parts.collected parts.relabelling
  rw [nothing] at run
  cases run
  obtain ⟨-, same⟩ | more := foldlM_relabelString_counted parts.relabelling
  · exact same
  · cases more

/-! ## All passes -/

theorem relabel_unchanged {reserve : Nat} {table : SymbolTable} {goal : Goal}
    {file after : ClassFile} {changes : Changes}
    (run : relabel reserve table goal file = (.ok changes, after))
    (unchanged : changes.count = 0) : after = file := by
  obtain ⟨strings, relabelling, counted⟩ := relabel_eq_ok run
  cases goal with
  | developer => exact relabelStrings_unchanged relabelling (counted ▸ unchanged)
  | production =>
    obtain ⟨references, metadata, referenced, referring, described, rfl⟩ := counted
    simp only [Changes.merge, Nat.add_eq_zero_iff] at unchanged
    obtain ⟨⟨noReference, noMetadata⟩, noString⟩ := unchanged
    have sameReferenced := relabelReference_unchanged referring
      (by simp [Changes.isChanged, noReference])
    rw [relabelStrings_unchanged relabelling noString, relabelMetadata_unchanged described noMetadata,
      sameReferenced]

/-- **Nothing is changed without being counted.** If relabelling counts no change, the class file is
what it was, and this is so whenever no bytes are given. The bytes that are given for developers are
other ones than before. -/
theorem relabel_counts (reserve : Nat) (table : SymbolTable) :
    (∀ goal file changes after, relabel reserve table goal file = (.ok changes, after) →
        changes.count = 0 → after = file) ∧
      (∀ goal bytes, relabelBytes reserve table goal bytes = .ok none →
        ∃ file, parse bytes = .ok file ∧ relabel reserve table goal file = (.ok {}, file)) ∧
      ∀ bytes written, relabelBytes reserve table .developer bytes = .ok (some written) →
        written ≠ bytes := by
  refine ⟨fun _ _ _ _ => relabel_unchanged, fun goal bytes run => ?_, ?_⟩
  · obtain ⟨file, changes, after, parsed, relabelled, ⟨unchanged, -⟩ | ⟨-, _, some, -⟩⟩ :=
      relabelBytes_eq_ok run
    · have none : changes.count = 0 := by simpa [Changes.isChanged] using unchanged
      have same : changes = {} := congrArg Changes.mk none
      rw [relabel_unchanged relabelled none, same] at relabelled
      exact ⟨file, parsed, relabelled⟩
    · cases some
  · rintro bytes _ run rfl
    obtain ⟨file, changes, after, parsed, relabelled, ⟨-, none⟩ | ⟨changed, _, some, isWritten⟩⟩ :=
      relabelBytes_eq_ok run
    · cases none
    · cases some
      -- What was written is parsed as the class file before and as the one after the string pass,
      -- which has nothing left to do.
      obtain ⟨_, isOther, reparsed⟩ := (relabelStrings_frame relabelled file.pool).reparse parsed
      rw [isWritten] at isOther
      cases isOther
      rw [parsed] at reparsed
      cases reparsed
      have again := relabelStrings_again (size_pool_of_parse parsed) relabelled reserve
      have twice := relabelled.symm.trans again
      cases twice
      cases changed

/-- The class with two constant values, before and after its first one has been relabelled. -/
theorem relabel_counts_of_doubledClass :
    doubledClassWritten ≠ doubledClassBytes ∧
      ∃ file, parse doubledClassWritten = .ok file ∧
        ∃ after, relabel 0 (.ofNames ∅ ∅ ∅) .developer file = (.ok {}, after) ∧ after = file := by
  obtain ⟨unchanged, given, differs⟩ := relabel_counts 0 (.ofNames ∅ ∅ ∅)
  have again : relabelBytes 0 (.ofNames ∅ ∅ ∅) .developer doubledClassWritten = .ok none := by
    decide +kernel
  obtain ⟨file, parsed, relabelled⟩ := given .developer doubledClassWritten again
  exact ⟨differs doubledClassBytes doubledClassWritten relabelBytes_doubledClass, file, parsed, file,
    relabelled, unchanged .developer file {} file relabelled rfl⟩

end Relabel.Pass
