import Mathlib
import Relabel.ClassFile.Basic

/-!
# Runs of edits

An edit gives its result together with the state that it leaves, whether it fails or not. The run of
an edit that is made of several ones decomposes into the runs of its parts.
-/

namespace Relabel

namespace Editing

variable {ε σ α β : Type} {state after : σ}

theorem except_bind_eq_ok {first : Except ε α} {next : α → Except ε β} {value : β} :
    (first >>= next) = .ok value ↔ ∃ found, first = .ok found ∧ next found = .ok value := by
  cases first with
  | error error => simp [bind, Except.bind]
  | ok found => simp [bind, Except.bind]

theorem bind_eq (first : ExceptT ε (StateM σ) α) (next : α → ExceptT ε (StateM σ) β) (state : σ) :
    (first >>= next) state =
      match first state with
      | (.ok found, middle) => next found middle
      | (.error error, middle) => (.error error, middle) := by
  show (StateT.bind first (ExceptT.bindCont next) : StateM σ (Except ε β)) state = _
  rw [StateT.bind]
  obtain ⟨result, middle⟩ := first state
  cases result <;> rfl

theorem bind_eq_ok {first : ExceptT ε (StateM σ) α} {next : α → ExceptT ε (StateM σ) β}
    {value : β} :
    (first >>= next) state = (.ok value, after) ↔
      ∃ found middle, first state = (.ok found, middle) ∧ next found middle = (.ok value, after) := by
  rw [bind_eq]
  obtain ⟨result, middle⟩ := first state
  constructor
  · cases result with
    | error error => exact nofun
    | ok found => exact fun run => ⟨found, middle, rfl, run⟩
  · rintro ⟨found, middle, ⟨⟩, run⟩
    exact run

theorem pure_eq_ok {found value : α} :
    (pure found : ExceptT ε (StateM σ) α) state = (.ok value, after) ↔
      found = value ∧ state = after := by
  constructor
  · rintro ⟨⟩
    exact ⟨rfl, rfl⟩
  · rintro ⟨rfl, rfl⟩
    rfl

theorem throw_ne_ok {error : ε} {value : α} :
    (throw error : ExceptT ε (StateM σ) α) state ≠ (.ok value, after) := nofun

theorem get_eq_ok {value : σ} :
    (get : ExceptT ε (StateM σ) σ) state = (.ok value, after) ↔ state = value ∧ state = after := by
  constructor
  · rintro ⟨⟩
    exact ⟨rfl, rfl⟩
  · rintro ⟨rfl, rfl⟩
    rfl

end Editing

namespace ClassFile

/-- An edit of the pool leaves all else of a class file as it is. -/
theorem onPool_eq {α : Type} (edit : Pool.Edit α) (file : ClassFile) :
    onPool edit file = ((edit file.pool).1, { file with pool := (edit file.pool).2 }) := rfl

theorem onPool_eq_ok {α : Type} {edit : Pool.Edit α} {file after : ClassFile} {value : α} :
    onPool edit file = (.ok value, after) ↔
      ∃ pool, edit file.pool = (.ok value, pool) ∧ after = { file with pool } := by
  rw [onPool_eq]
  obtain ⟨result, pool⟩ := edit file.pool
  constructor
  · rintro ⟨⟩
    exact ⟨pool, rfl, rfl⟩
  · rintro ⟨pool, ⟨⟩, rfl⟩
    rfl

end ClassFile

end Relabel
