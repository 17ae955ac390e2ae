import Relabel.Pass.Strings
import Relabel.Proofs.Pass.Frame

/-!
# Detaching bootstrap arguments

An argument whose string was redirected gets a string of its own for the old text; arguments that
shared the entry share the copy. All other arguments stay, and so does every entry of the pool.
-/

namespace Relabel.Pass

open ClassFile (Attribute BootstrapMethod Pool)

/-! ## Places of arguments -/

/-- The bootstrap methods in an attribute. -/
def bootstrapMethods? : Attribute → Option (List BootstrapMethod)
  | ⟨_, .bootstrapMethods methods⟩ => some methods
  | _ => none

/-- The static argument at a place of a bootstrap method in an attribute of a class. -/
def argumentAt? (attributes : List Attribute) (entry method argument : Nat) : Option UInt16 := do
  let entry ← attributes[entry]?
  let methods ← bootstrapMethods? entry
  let method ← methods[method]?
  method.arguments[argument]?

/-- The arguments of two bootstrap methods, place by place, and all else the same. -/
def MethodRelated (related : UInt16 → UInt16 → Prop) (old new : BootstrapMethod) : Prop :=
  new.method = old.method ∧ List.Forall₂ related old.arguments new.arguments

/-- The arguments in two attributes, place by place. -/
def AttributeRelated (related : UInt16 → UInt16 → Prop) (old new : Attribute) : Prop :=
  Option.Rel (List.Forall₂ (MethodRelated related)) (bootstrapMethods? old) (bootstrapMethods? new)

theorem AttributeRelated.refl {related : UInt16 → UInt16 → Prop}
    (same : ∀ index, related index index) (entry : Attribute) :
    AttributeRelated related entry entry := by
  unfold AttributeRelated
  cases bootstrapMethods? entry with
  | none => exact .none
  | some methods =>
    exact .some (List.forall₂_same.2 fun method _ =>
      ⟨rfl, List.forall₂_same.2 fun argument _ => same argument⟩)

/-- Related attributes have arguments at the same places, and these are related. -/
theorem rel_argumentAt? {related : UInt16 → UInt16 → Prop} {old new : List Attribute}
    (all : List.Forall₂ (AttributeRelated related) old new) (entry method argument : Nat) :
    Option.Rel related (argumentAt? old entry method argument)
      (argumentAt? new entry method argument) := by
  refine rel_bind (rel_getElem? all entry) fun entryRelated => ?_
  refine rel_bind entryRelated fun methodsRelated => ?_
  refine rel_bind (rel_getElem? methodsRelated method) fun methodRelated => ?_
  exact rel_getElem? methodRelated.2 argument

/-! ## Detaching -/

/-- What has become of an argument: a string for the old text if its string was redirected. -/
def Detached (redirected : List Redirection) (pool : Pool) (before after : UInt16) : Prop :=
  match redirected.find? (·.string = before) with
  | none => after = before
  | some redirection => pool.get after = .ok (.string redirection.oldText)

theorem Detached.later {redirected : List Redirection} {old new : Pool} {before after : UInt16}
    (grows : Pool.Grows old new) (detached : Detached redirected old before after) :
    Detached redirected new before after := by
  unfold Detached at detached ⊢
  split at detached
  · exact detached
  · exact grows.get detached

/-- The copies made so far are strings for the old texts. -/
def CopiesSound (redirected : List Redirection) (state : Pool × Copies) : Prop :=
  ∀ {argument copy}, state.2.lookup argument = some copy →
    Detached redirected state.1 argument copy

theorem detachArgument_step {redirected : List Redirection} {state after : Pool × Copies}
    {before changed : UInt16} (sound : CopiesSound redirected state)
    (run : detachArgument redirected state before = ⟨after, changed, none⟩) :
    CopiesSound redirected after ∧ Pool.Grows state.1 after.1 ∧
      Detached redirected after.1 before changed := by
  unfold detachArgument at run
  cases found : redirected.find? (·.string = before) with
  | none =>
    rw [found] at run
    cases run
    exact ⟨sound, .refl _, by simp [Detached, found]⟩
  | some redirection =>
    simp only [found] at run
    cases copied : state.2.lookup before with
    | some copy =>
      simp only [copied] at run
      cases run
      exact ⟨sound, .refl _, sound copied⟩
    | none =>
      simp only [copied] at run
      obtain ⟨pool, copies⟩ := state
      cases pushed : Pool.push (.string redirection.oldText) pool with
      | mk result grown =>
        cases result with
        | error fault =>
          rw [pushed] at run
          cases run
        | ok copy =>
          rw [pushed] at run
          cases run
          obtain ⟨room, rfl, rfl⟩ := (Pool.push_eq_ok_iff rfl).1 pushed
          have grows : Pool.Grows pool (pool.append (.string redirection.oldText)) :=
            Pool.append_grows rfl trivial room
          have here : Detached redirected (pool.append (.string redirection.oldText)) before
              (UInt16.ofNat pool.size) := by
            rw [Detached, found]
            exact Pool.get_append nofun room
          -- The new copy is looked up first, and all others are found in the larger pool.
          refine ⟨fun {argument copy} isCopy => ?_, grows, here⟩
          rw [List.lookup_cons] at isCopy
          split at isCopy
          · next same =>
            cases isCopy
            rw [eq_of_beq same]
            exact here
          · exact (sound isCopy).later grows

theorem detachMethod_step {redirected : List Redirection} {state after : Pool × Copies}
    {before changed : BootstrapMethod} (sound : CopiesSound redirected state)
    (run : detachMethod redirected state before = ⟨after, changed, none⟩) :
    CopiesSound redirected after ∧ Pool.Grows state.1 after.1 ∧
      MethodRelated (Detached redirected after.1) before changed := by
  obtain ⟨arguments, edits, rfl⟩ := Outcome.map_eq_iff.1 run
  obtain ⟨afterSound, grows, all⟩ := (editEach_eq_iff.1 edits).forall₂
    (CopiesSound redirected) (fun old new => Pool.Grows old.1 new.1)
    (fun state => Detached redirected state.1) (fun _ => .refl _) Pool.Grows.trans
    Detached.later detachArgument_step sound
  exact ⟨afterSound, grows, rfl, all⟩

theorem MethodRelated.later {redirected : List Redirection} {old new : Pool}
    {before after : BootstrapMethod} (grows : Pool.Grows old new)
    (all : MethodRelated (Detached redirected old) before after) :
    MethodRelated (Detached redirected new) before after :=
  ⟨all.1, all.2.imp fun _ _ => Detached.later grows⟩

theorem detachAttribute_step {redirected : List Redirection} {state after : Pool × Copies}
    {before changed : Attribute} (sound : CopiesSound redirected state)
    (run : detachAttribute redirected state before = ⟨after, changed, none⟩) :
    CopiesSound redirected after ∧ Pool.Grows state.1 after.1 ∧
      AttributeRelated (Detached redirected after.1) before changed := by
  unfold detachAttribute at run
  split at run
  · next name methods =>
    obtain ⟨changedMethods, edits, rfl⟩ := Outcome.map_eq_iff.1 run
    obtain ⟨afterSound, grows, all⟩ := (editEach_eq_iff.1 edits).forall₂
      (CopiesSound redirected) (fun old new => Pool.Grows old.1 new.1)
      (fun state => MethodRelated (Detached redirected state.1)) (fun _ => .refl _)
      Pool.Grows.trans MethodRelated.later detachMethod_step sound
    exact ⟨afterSound, grows, .some all⟩
  · next notMethods =>
    cases run
    have none : bootstrapMethods? before = none := by
      unfold bootstrapMethods?
      split
      · exact absurd rfl (notMethods _ _)
      · rfl
    exact ⟨sound, .refl _, by rw [AttributeRelated, none]; exact .none⟩

theorem AttributeRelated.later {redirected : List Redirection} {old new : Pool}
    {before after : Attribute} (grows : Pool.Grows old new)
    (all : AttributeRelated (Detached redirected old) before after) :
    AttributeRelated (Detached redirected new) before after :=
  rel_imp (fun methods => methods.imp fun _ _ => MethodRelated.later grows) all

/-- Detaching only adds copies to the pool, and it leaves all arguments that were not redirected. -/
theorem detach_eq_ok {redirected : List Redirection} {file after : ClassFile} {copies : Copies}
    (run : onAttributes [] (detachAttribute redirected) file = (.ok copies, after)) :
    Pool.Grows file.pool after.pool ∧
      after = { file with pool := after.pool, attributes := after.attributes } ∧
      List.Forall₂ (AttributeRelated (Detached redirected after.pool)) file.attributes
        after.attributes := by
  obtain ⟨pool, attributes, edits, rfl⟩ := onAttributes_eq_ok.1 run
  have sound : CopiesSound redirected (file.pool, []) := nofun
  obtain ⟨-, grows, all⟩ := edits.forall₂ (CopiesSound redirected)
    (fun old new => Pool.Grows old.1 new.1)
    (fun state => AttributeRelated (Detached redirected state.1)) (fun _ => .refl _)
    Pool.Grows.trans AttributeRelated.later detachAttribute_step sound
  exact ⟨grows, rfl, all⟩

/-! ## The frame -/

theorem detachMethod_frame {redirected : List Redirection} {state after : Pool × Copies}
    {before changed : BootstrapMethod}
    (run : detachMethod redirected state before = ⟨after, changed, none⟩) :
    MethodFrame before changed := by
  obtain ⟨arguments, edits, rfl⟩ := Outcome.map_eq_iff.1 run
  have places : List.Forall₂ (fun _ _ => True) before.arguments arguments :=
    (editEach_eq_iff.1 edits).rel _ fun _ => trivial
  exact ⟨rfl, places.length_eq.symm⟩

/-- Attributes that differ in the arguments of bootstrap methods only. -/
inductive ArgumentsFrame : Attribute → Attribute → Prop
  | same (entry : Attribute) : ArgumentsFrame entry entry
  | arguments {name : UInt16} {before after : List BootstrapMethod}
    (methods : List.Forall₂ MethodFrame before after) :
    ArgumentsFrame ⟨name, .bootstrapMethods before⟩ ⟨name, .bootstrapMethods after⟩

theorem ArgumentsFrame.attributeFrame {before after : Attribute}
    (frame : ArgumentsFrame before after) (pool : Pool) : AttributeFrame pool before after := by
  cases frame with
  | same => exact .same _
  | arguments methods => exact .arguments methods

theorem detachAttribute_frame {redirected : List Redirection} {state after : Pool × Copies}
    {before changed : Attribute}
    (run : detachAttribute redirected state before = ⟨after, changed, none⟩) :
    ArgumentsFrame before changed := by
  unfold detachAttribute at run
  split at run
  · obtain ⟨methods, edits, rfl⟩ := Outcome.map_eq_iff.1 run
    exact .arguments ((editEach_eq_iff.1 edits).rel MethodFrame detachMethod_frame)
  · cases run
    exact .same _

theorem detach_attributes {redirected : List Redirection} {file after : ClassFile}
    {copies : Copies}
    (run : onAttributes [] (detachAttribute redirected) file = (.ok copies, after)) :
    List.Forall₂ ArgumentsFrame file.attributes after.attributes := by
  obtain ⟨pool, attributes, edits, rfl⟩ := onAttributes_eq_ok.1 run
  exact edits.rel ArgumentsFrame detachAttribute_frame

theorem detach_frame {redirected : List Redirection} {file after : ClassFile} {copies : Copies}
    (run : onAttributes [] (detachAttribute redirected) file = (.ok copies, after))
    (names : Pool) : MethodsKept names file after := by
  obtain ⟨grows, afterEq, -⟩ := detach_eq_ok run
  have attributes := (detach_attributes run).imp fun _ _ frame => frame.attributeFrame names
  have methodsEq : after.methods = file.methods := by
    rw [afterEq]
  refine ⟨⟨?_, grows.evolves, methodsEq ▸ .same, attributes⟩, methodsEq⟩
  rw [methodsEq]
  exact afterEq

end Relabel.Pass
