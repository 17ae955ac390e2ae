import Relabel.Pass.Basic
import Relabel.Proofs.ClassFile.Editing

/-!
# Runs of passes

Editing values from left to right comes to its end just if each value can be edited in the state
that the values before it have left. What holds of each single edit, as long as it still holds in
later states, then holds of all values in the last state.
-/

namespace Relabel

/-- What stands at a place of the one list is related to what stands there in the other. -/
theorem rel_getElem? {α β : Type} {related : α → β → Prop} {old : List α} {new : List β}
    (all : List.Forall₂ related old new) (position : Nat) :
    Option.Rel related old[position]? new[position]? := by
  induction all generalizing position with
  | nil => exact .none
  | cons head tail ih =>
    cases position with
    | zero => exact .some head
    | succ position => exact ih position

theorem rel_bind {α β γ δ : Type} {related : α → β → Prop} {result : γ → δ → Prop}
    {old : Option α} {new : Option β} {f : α → Option γ} {g : β → Option δ}
    (first : Option.Rel related old new)
    (next : ∀ {a b}, related a b → Option.Rel result (f a) (g b)) :
    Option.Rel result (old.bind f) (new.bind g) := by
  cases first with
  | none => exact .none
  | some values => exact next values

theorem rel_imp {α β : Type} {related other : α → β → Prop} {old : Option α} {new : Option β}
    (imp : ∀ {a b}, related a b → other a b) (all : Option.Rel related old new) :
    Option.Rel other old new := by
  cases all with
  | none => exact .none
  | some values => exact .some (imp values)

theorem rel_trans {α β γ : Type} {first : α → β → Prop} {second : β → γ → Prop}
    {both : α → γ → Prop} (trans : ∀ {a b c}, first a b → second b c → both a c)
    {old : Option α} {middle : Option β} {new : Option γ} (front : Option.Rel first old middle)
    (back : Option.Rel second middle new) : Option.Rel both old new := by
  cases front with
  | none =>
    cases back
    exact .none
  | some values =>
    cases back with
    | some others => exact .some (trans values others)

namespace Pass

open ClassFile (Fault Pool Attribute)

theorem Edit.ofFile_eq_ok {α : Type} {edit : ClassFile.Edit α} {file after : ClassFile} {value : α} :
    Edit.ofFile edit file = (.ok value, after) ↔ edit file = (.ok value, after) := by
  unfold Edit.ofFile
  split
  · next found middle run =>
    rw [run]
    constructor <;> rintro ⟨⟩ <;> rfl
  · next fault middle run =>
    rw [run]
    constructor <;> rintro ⟨⟩

/-- A run of an edit over values, from a state to another one, without a fault. -/
inductive Edits {σ α : Type} (edit : σ → α → Outcome σ α) : σ → List α → σ → List α → Prop
  | nil {state : σ} : Edits edit state [] state []
  | cons {state middle after : σ} {value changed : α} {rest edited : List α}
      (head : edit state value = ⟨middle, changed, none⟩)
      (tail : Edits edit middle rest after edited) :
      Edits edit state (value :: rest) after (changed :: edited)

theorem editFrom_eq_iff {σ α : Type} {edit : σ → α → Outcome σ α} {before : List α} {state after : σ}
    {values edited : List α} :
    editFrom edit before state values = ⟨after, edited, none⟩ ↔
      ∃ moved, edited = before.reverse ++ moved ∧ Edits edit state values after moved := by
  -- The edited values are kept in reverse; `moved` are those that are edited from here on.
  induction values generalizing before state with
  | nil =>
    rw [editFrom]
    constructor
    · rintro ⟨⟩
      exact ⟨[], by simp, .nil⟩
    · rintro ⟨moved, rfl, run⟩
      cases run
      simp
  | cons value rest ih =>
    rw [editFrom]
    cases head : edit state value with
    | mk middle changed fault =>
      cases fault with
      | none =>
        rw [ih]
        constructor
        · rintro ⟨moved, rfl, tail⟩
          exact ⟨changed :: moved, by simp, .cons head tail⟩
        · rintro ⟨_, rfl, run⟩
          cases run with
          | cons other tail =>
            rw [head] at other
            cases other
            exact ⟨_, by simp, tail⟩
      | some fault =>
        refine ⟨nofun, ?_⟩
        rintro ⟨_, -, run⟩
        cases run with
        | cons other tail =>
          rw [head] at other
          cases other

theorem editEach_eq_iff {σ α : Type} {edit : σ → α → Outcome σ α} {state after : σ}
    {values edited : List α} :
    editEach edit state values = ⟨after, edited, none⟩ ↔ Edits edit state values after edited := by
  simp [editEach, editFrom_eq_iff]

/-- A relation of states that is kept by steps, and what each step does to its value. -/
theorem Edits.forall₂ {σ α : Type} {edit : σ → α → Outcome σ α} (invariant : σ → Prop)
    (later : σ → σ → Prop) (edited : σ → α → α → Prop) (refl : ∀ state, later state state)
    (trans : ∀ {state middle after}, later state middle → later middle after → later state after)
    (stays : ∀ {state after value changed}, later state after → edited state value changed →
      edited after value changed)
    (step : ∀ {state after value changed}, invariant state →
      edit state value = ⟨after, changed, none⟩ →
      invariant after ∧ later state after ∧ edited after value changed)
    {state after : σ} {values results : List α} (run : Edits edit state values after results)
    (start : invariant state) :
    invariant after ∧ later state after ∧ List.Forall₂ (edited after) values results := by
  induction run with
  | nil => exact ⟨start, refl _, .nil⟩
  | cons head tail ih =>
    obtain ⟨middleInvariant, first, changed⟩ := step start head
    obtain ⟨afterInvariant, second, others⟩ := ih middleInvariant
    exact ⟨afterInvariant, trans first second, .cons (stays second changed) others⟩

/-- What each step does to its value, whatever the states. -/
theorem Edits.rel {σ α : Type} {edit : σ → α → Outcome σ α} (related : α → α → Prop)
    (step : ∀ {state after value changed}, edit state value = ⟨after, changed, none⟩ →
      related value changed)
    {state after : σ} {values edited : List α} (run : Edits edit state values after edited) :
    List.Forall₂ related values edited := by
  induction run with
  | nil => exact .nil
  | cons head tail ih => exact .cons (step head) ih

theorem Outcome.map_eq_iff {σ α β : Type} {f : α → β} {outcome : Outcome σ α} {after : σ}
    {changed : β} :
    outcome.map f = ⟨after, changed, none⟩ ↔
      ∃ value, outcome = ⟨after, value, none⟩ ∧ changed = f value := by
  obtain ⟨state, value, fault⟩ := outcome
  constructor
  · rintro ⟨⟩
    exact ⟨value, rfl, rfl⟩
  · rintro ⟨_, ⟨⟩, rfl⟩
    rfl

/-- An edit of the attributes leaves all else of a class file as it is, the pool apart. -/
theorem onAttributes_eq_ok {σ : Type} {start state : σ}
    {edit : Pool × σ → Attribute → Outcome (Pool × σ) Attribute} {file after : ClassFile} :
    onAttributes start edit file = (.ok state, after) ↔
      ∃ pool attributes, Edits edit (file.pool, start) file.attributes (pool, state) attributes ∧
        after = { file with pool, attributes } := by
  unfold onAttributes
  simp only [← editEach_eq_iff]
  split
  · next pool found attributes run =>
    rw [run]
    constructor
    · rintro ⟨⟩
      exact ⟨pool, attributes, rfl, rfl⟩
    · rintro ⟨_, _, ⟨⟩, rfl⟩
      rfl
  · next pool found attributes fault run =>
    rw [run]
    constructor
    · rintro ⟨⟩
    · rintro ⟨_, _, ⟨⟩, -⟩

end Pass

end Relabel
