import Relabel.Pass.All
import Relabel.Proofs.ClassFile.Editing
import Relabel.Proofs.Lookup.Settling

/-!
# Greater reserves

The reserve limits how often the lookups of a string are replaced and does nothing else. So a class
file comes out the same with every reserve that is enough for its strings, and it fails for the same
reason if it fails.
-/

namespace Relabel.Pass

/-- No lookup has used up its budget. -/
def WithinBudget {α : Type} (result : Except Error α) : Prop :=
  ∀ owner value, result ≠ .error (.lookup owner value .unsettled)

theorem withinBudget_ok {α : Type} (value : α) : WithinBudget (.ok value) := by
  intro _ _ unsettled
  cases unsettled

theorem WithinBudget.of_error {α β : Type} {error : Error}
    (within : WithinBudget (.error error : Except Error α)) :
    WithinBudget (.error error : Except Error β) := by
  intro owner value unsettled
  cases unsettled
  exact within owner value rfl

/-- An edit that does what another one does whenever this one keeps within its budget. -/
def Continues {α : Type} (more fewer : Edit α) : Prop :=
  ∀ file, WithinBudget (fewer file).1 → more file = fewer file

theorem Continues.refl {α : Type} (edit : Edit α) : Continues edit edit := fun _ _ => rfl

theorem Continues.bind {α β : Type} {more fewer : Edit α} {moreNext fewerNext : α → Edit β}
    (first : Continues more fewer)
    (next : ∀ value, Continues (moreNext value) (fewerNext value)) :
    Continues (more >>= moreNext) (fewer >>= fewerNext) := by
  intro file within
  rw [Editing.bind_eq] at within ⊢
  rw [Editing.bind_eq]
  have continues := first file
  generalize fewer file = run at within continues ⊢
  obtain ⟨result, middle⟩ := run
  cases result with
  | error error => rw [continues within.of_error]
  | ok value =>
    rw [continues (withinBudget_ok value)]
    exact next value middle within

section

variable {fewer more : Nat} (le : fewer ≤ more) (table : SymbolTable) (goal : Goal)

include le

theorem relabelString_of_le (owner : String) (redirected : List Redirection) (index : UInt16) :
    Continues (relabelString more table goal owner redirected index)
      (relabelString fewer table goal owner redirected index) := by
  refine .bind (.refl get) fun file => ?_
  simp only
  -- Only a string that encodes a text is processed at all.
  cases file.pool.get index with
  | error fault => exact .refl _
  | ok constant =>
    cases constant with
    | string text =>
      simp only
      cases file.pool.text? text with
      | error fault => exact .refl _
      | ok value? =>
        cases value? with
        | none => exact .refl _
        | some value =>
          intro after within
          have settled : Lookup.process fewer table goal value ≠ .error .unsettled := by
            intro unsettled
            simp only [unsettled] at within
            exact within owner value rfl
          simp only [Lookup.process_of_le le settled]
    | _ => exact .refl _

theorem foldlM_relabelString_of_le (owner : String) (sites : List UInt16)
    (redirected : List Redirection) :
    Continues (sites.foldlM (relabelString more table goal owner) redirected)
      (sites.foldlM (relabelString fewer table goal owner) redirected) := by
  induction sites generalizing redirected with
  | nil => exact .refl _
  | cons index rest ih =>
    rw [List.foldlM_cons, List.foldlM_cons]
    exact (relabelString_of_le le table goal owner redirected index).bind ih

theorem relabelStrings_of_le :
    Continues (relabelStrings more table goal) (relabelStrings fewer table goal) := by
  refine .bind (.refl get) fun file => ?_
  cases file.name with
  | error fault => exact .refl _
  | ok owner =>
    cases stringSites file with
    | error fault => exact .refl _
    | ok sites =>
      exact (foldlM_relabelString_of_le le table goal owner sites []).bind fun _ => .refl _

theorem relabel_of_le : Continues (relabel more table goal) (relabel fewer table goal) := by
  cases goal with
  | developer => exact relabelStrings_of_le le table .developer
  | production =>
    refine .bind (.refl _) fun references => .bind (.refl _) fun metadata => ?_
    exact (relabelStrings_of_le le table .production).bind fun strings => .refl _

/-- **A greater reserve changes nothing.** What becomes of a class file within the budget is what
becomes of it with every greater reserve. -/
theorem relabelBytes_of_le {bytes : Bytes}
    (within : WithinBudget (relabelBytes fewer table goal bytes)) :
    relabelBytes more table goal bytes = relabelBytes fewer table goal bytes := by
  unfold relabelBytes at within ⊢
  generalize ClassFile.parse bytes = parsed at within ⊢
  cases parsed with
  | error fault => rfl
  | ok file =>
    simp only at within ⊢
    have continues := relabel_of_le le table goal file
    generalize relabel fewer table goal file = run at within continues ⊢
    obtain ⟨result, after⟩ := run
    cases result with
    | error error => rw [continues within.of_error]
    | ok changes => rw [continues (withinBudget_ok changes)]

end

/-- All reserves that are enough lead to the same. -/
theorem relabelBytes_unique {reserve other : Nat} {table : SymbolTable} {goal : Goal}
    {bytes : Bytes} (within : WithinBudget (relabelBytes reserve table goal bytes))
    (otherWithin : WithinBudget (relabelBytes other table goal bytes)) :
    relabelBytes reserve table goal bytes = relabelBytes other table goal bytes := by
  rcases Nat.le_total reserve other with le | le
  · exact (relabelBytes_of_le le table goal within).symm
  · exact relabelBytes_of_le le table goal otherWithin

end Relabel.Pass
