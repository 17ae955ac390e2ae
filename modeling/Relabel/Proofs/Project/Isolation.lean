import Mathlib
import Relabel.Proofs.Project.Reverting
import Relabel.Proofs.Project.Walking

/-!
# Isolated class files

Where no input and no output lies in another one, no class file is written to the place of another.
What a run leaves at the target of a class file then depends on what this one file held at first,
and neither on the other files nor on the order in which the walks come to them.
-/

namespace Relabel

/-! ## Separate folders -/

/-- Folders of which neither lies in the other one. -/
def Path.Apart (folder other : Path) : Prop :=
  ¬folder.place <+: other.place ∧ ¬other.place <+: folder.place

instance (folder other : Path) : Decidable (folder.Apart other) :=
  inferInstanceAs (Decidable (¬_ ∧ ¬_))

theorem Path.Apart.symm {folder other : Path} (apart : folder.Apart other) : other.Apart folder :=
  And.symm apart

/-- Nothing stands in both of two folders that are apart. -/
theorem Path.Apart.ne {folder other : Path} (apart : folder.Apart other) {location : Location}
    (isBelow : folder.place <+: location) : ¬other.place <+: location := by
  intro isBelowOther
  rcases List.prefix_or_prefix_of_prefix isBelow isBelowOther with isPrefix | isPrefix
  · exact apart.1 isPrefix
  · exact apart.2 isPrefix

namespace Options

/-- The inputs are apart from one another; so are the outputs, if there are any, also from the
inputs. -/
structure Separate (options : Options) : Prop where
  inputs : options.inputs.Pairwise Path.Apart
  outputs : options.outputs.Pairwise Path.Apart
  between : ∀ input ∈ options.inputs, ∀ output ∈ options.outputs, input.Apart output

/-- Two inputs with their outputs that have nothing in common. -/
structure Unrelated (target other : Path × Path) : Prop where
  inputs : target.1.Apart other.1
  outputs : target.2.Apart other.2
  before : target.1.Apart other.2
  after : target.2.Apart other.1

instance : Std.Symm Unrelated where
  symm _ _ unrelated :=
    ⟨unrelated.inputs.symm, unrelated.outputs.symm, unrelated.after.symm, unrelated.before.symm⟩

theorem mem_targets {options : Options} {target : Path × Path}
    (isTarget : target ∈ options.targets) :
    target.1 ∈ options.inputs ∧ (target.2 = target.1 ∨ target.2 ∈ options.outputs) := by
  unfold targets at isTarget
  split at isTarget
  · obtain ⟨input, isInput, rfl⟩ := List.mem_map.1 isTarget
    exact ⟨isInput, .inl rfl⟩
  · have both := List.of_mem_zip isTarget
    exact ⟨both.1, .inr both.2⟩

theorem Separate.unrelated {options : Options} (separate : options.Separate) :
    options.targets.Pairwise Unrelated := by
  unfold targets
  split
  · rw [List.pairwise_map]
    exact separate.inputs.imp fun apart => ⟨apart, apart, apart, apart⟩
  · rw [List.pairwise_iff_getElem]
    intro i j isFirst isSecond less
    simp only [List.length_zip, lt_inf_iff] at isFirst isSecond
    simp only [List.getElem_zip]
    exact ⟨List.pairwise_iff_getElem.1 separate.inputs i j isFirst.1 isSecond.1 less,
      List.pairwise_iff_getElem.1 separate.outputs i j isFirst.2 isSecond.2 less,
      separate.between _ (List.getElem_mem _) _ (List.getElem_mem _),
      (separate.between _ (List.getElem_mem _) _ (List.getElem_mem _)).symm⟩

end Options

namespace Project

open FileTree

/-! ## All class files -/

/-- The class files below all inputs. -/
def sourcesOf (options : Options) (tree : FileTree) : List Source :=
  options.targets.flatMap fun target => sourcesBelow tree target.1 target.2

section

variable {options : Options} {tree : FileTree}

theorem nodup_sourcesOf (separate : options.Separate) (tree : FileTree) :
    (sourcesOf options tree).Nodup := by
  refine List.nodup_flatMap.2 ⟨fun target _ => ?_, ?_⟩
  · exact (pairwise_sourcesBelow tree target.1 target.2).imp fun differ same =>
      differ (congrArg Source.place same)
  · refine separate.unrelated.imp fun {target other} unrelated source isSource isOther => ?_
    exact unrelated.inputs.ne (place_isBelow isSource) (place_isBelow isOther)

theorem eq_of_target_eq {input output : Path} {source other : Source}
    (isSource : source ∈ sourcesBelow tree input output)
    (isOther : other ∈ sourcesBelow tree input output) (same : source.target = other.target) :
    source = other := by
  obtain ⟨place, target, content⟩ := source
  obtain ⟨names, rfl, rfl, -, isContent⟩ := mem_sourcesBelow.1 isSource
  obtain ⟨otherPlace, otherTarget, otherContent⟩ := other
  obtain ⟨otherNames, rfl, rfl, -, isOtherContent⟩ := mem_sourcesBelow.1 isOther
  obtain rfl := List.append_cancel_left same
  cases isContent.symm.trans isOtherContent
  rfl

/-- No class file is relabelled into another, or into the same place. -/
theorem target_ne (separate : options.Separate) {source other : Source}
    (isSource : source ∈ sourcesOf options tree) (isOther : other ∈ sourcesOf options tree)
    (differ : source ≠ other) : source.target ≠ other.place ∧ source.target ≠ other.target := by
  obtain ⟨target, isTarget, isSource⟩ := List.mem_flatMap.1 isSource
  obtain ⟨otherTarget, isOtherTarget, isOther⟩ := List.mem_flatMap.1 isOther
  by_cases same : target = otherTarget
  · -- In one input, names tell class files apart, below the output as below the input.
    subst same
    have targetNe : source.target ≠ other.target := fun sameTarget =>
      differ (eq_of_target_eq isSource isOther sameTarget)
    refine ⟨fun samePlace => ?_, targetNe⟩
    obtain ⟨isInput, inPlace | isOutput⟩ := Options.mem_targets isTarget
    · obtain ⟨names, place_eq, target_eq, -⟩ := mem_sourcesBelow.1 isOther
      exact targetNe (by rw [samePlace, place_eq, target_eq, inPlace])
    · refine (separate.between _ isInput _ isOutput).ne (place_isBelow isOther) ?_
      rw [← samePlace]
      exact target_isBelow isSource
  · have unrelated := separate.unrelated.forall isTarget isOtherTarget same
    constructor
    · intro same
      exact unrelated.after.ne (target_isBelow isSource) (same ▸ place_isBelow isOther)
    · intro same
      exact unrelated.outputs.ne (target_isBelow isSource) (same ▸ target_isBelow isOther)

theorem harmless_of_separate (separate : options.Separate) {target : Path × Path}
    (isTarget : target ∈ options.targets) {source : Source}
    (isSource : source ∈ sourcesBelow tree target.1 target.2) :
    Harmless options.inputs tree source.target := by
  intro input isInput isBelow
  obtain ⟨names, place_eq, target_eq, -, isContent⟩ := mem_sourcesBelow.1 isSource
  rcases (Options.mem_targets isTarget).2 with same | isOutput
  · rw [target_eq, same, ← place_eq, isContent]
    rfl
  · exact absurd (target_isBelow isSource) ((separate.between input isInput _ isOutput).ne isBelow)

/-- A whole run relabels the class files below all inputs. -/
theorem relabelAll_relabels {project : Project} {tree : FileTree} (wellFormed : tree.WellFormed)
    (areFolders : ∀ input ∈ project.options.inputs, tree.isFolder input)
    (separate : project.options.Separate)
    (enterable : Enterable project.options.inputs (relabelAll (project, tree)).2.2) :
    Relabels (fun source => source ∈ sourcesOf project.options tree)
      (visitsOfAll (project, tree)) (project, tree) fun summary =>
        project.options.targets.foldl (fun state target =>
          relabelInput state target.1 target.2) (summary, project, tree) := by
  have sound : Sound project.options.inputs tree tree :=
    ⟨wellFormed, areFolders, fun _ _ _ _ => .rfl⟩
  have disjoint : project.options.targets.Pairwise fun target other =>
      ∀ source, source ∈ sourcesBelow tree target.1 target.2 →
        ¬source ∈ sourcesBelow tree other.1 other.2 :=
    separate.unrelated.imp fun unrelated source isSource isOther =>
      unrelated.inputs.ne (place_isBelow isSource) (place_isBelow isOther)
  rw [relabelAll_snd] at enterable
  refine (inTurn_relabels (fun target isTarget source => harmless_of_separate separate isTarget)
    disjoint ?_ sound (.refl tree) enterable).congr fun source => List.mem_flatMap.symm
  intro target isTarget later soundLater _ enterableLater
  have isInput := (Options.mem_targets isTarget).1
  have found := of_decide_eq_true (soundLater.isFolder target.1 isInput)
  have isFolder := (isFolder_iff.1 (soundLater.isFolder target.1 isInput)).2
  simp only [relabelInput, visitsOfInput, found] at enterableLater ⊢
  have deep : Path.longestPath < ([] : List String).length + maxDepth := by
    rw [List.length_nil, Nat.zero_add]
    exact Nat.lt_succ_self Path.longestPath
  have whole := walk_relabels isInput (fun source => harmless_of_separate separate isTarget)
    maxDepth [] deep soundLater (by rwa [List.append_nil]) enterableLater
  exact whole.congr fun source => under_nil

end

/-! ## Undisturbed runs -/

/-- No file operation fails: all folders below the inputs can be entered, and no class file fails
because it cannot be read or its target cannot be written. -/
structure Undisturbed (state : Project × FileTree) : Prop where
  entered : Enterable state.1.options.inputs (relabelAll state).2.2
  accessed : ∀ path, .error (.access path) ∉ results (visitsOfAll state) state

/-- How many class files come out changed, unchanged, or not at all. -/
def Summary.ofOutcomes (outcomes : List (Except Pass.Error (Option Bytes))) : Summary where
  relabelled := outcomes.countP fun | .ok (some _) => true | _ => false
  unchanged := outcomes.countP fun | .ok none => true | _ => false
  failed := outcomes.countP fun | .error _ => true | _ => false

/-- The sum of two summaries. -/
def Summary.add (summary other : Summary) : Summary where
  relabelled := summary.relabelled + other.relabelled
  unchanged := summary.unchanged + other.unchanged
  failed := summary.failed + other.failed

theorem Summary.count_saying (summary : Summary) (path : Path)
    (outcome : Except Pass.Error (Option Bytes)) (rest : List (Except Pass.Error (Option Bytes))) :
    (summary.count (saying path outcome)).add (.ofOutcomes rest) =
      summary.add (.ofOutcomes (outcome :: rest)) := by
  cases outcome with
  | error cause => simp [saying, count, add, ofOutcomes]; omega
  | ok relabelled => cases relabelled <;> simp [saying, count, add, ofOutcomes] <;> omega

theorem relabelFile_of_leads {visit : Visit} {source : Source} {state : Project × FileTree}
    (leads : Leads visit source)
    (isContent : state.2.contentAt? source.place = some source.content)
    (accessed : ∀ path, (relabelFile visit.1 visit.2 state).1 ≠ .error (.access path)) :
    (relabelFile visit.1 visit.2 state).1 =
        saying visit.1 (state.1.outcome source.content) ∧
      (relabelFile visit.1 visit.2 state).2.2.contentAt? source.target =
        resultOf (state.1.outcome source.content) source.content
          (state.2.contentAt? source.target) := by
  obtain ⟨content, isRead, answered, isWritten⟩ := relabelFile_of_accessed accessed
  rw [leads.place, isContent] at isRead
  cases isRead
  rw [leads.target] at isWritten
  exact ⟨answered, isWritten⟩

/-- Class files that are not relabelled into one another come out as each of them does on its
own. -/
theorem relabelEach_isolated {visits : List Visit} {order : List Source}
    {state : Project × FileTree} (leads : List.Forall₂ Leads visits order)
    (independent : order.Pairwise fun source other =>
      source.target ≠ other.place ∧ source.target ≠ other.target)
    (contents : ∀ source ∈ order, state.2.contentAt? source.place = some source.content)
    (accessed : ∀ path, .error (.access path) ∉ results visits state) (summary : Summary) :
    tally summary (results visits state) =
        summary.add (.ofOutcomes (order.map fun source => state.1.outcome source.content)) ∧
      ∀ source ∈ order, (relabelEach visits state).2.contentAt? source.target =
        resultOf (state.1.outcome source.content) source.content
          (state.2.contentAt? source.target) := by
  -- A visit changes neither the class files that are still to come nor what is at their targets.
  induction leads generalizing state summary with
  | nil => exact ⟨rfl, nofun⟩
  | @cons visit source visits order leadsTo leads ih =>
    obtain ⟨apart, independent⟩ := List.pairwise_cons.1 independent
    obtain ⟨answered, isWritten⟩ := relabelFile_of_leads leadsTo
      (contents source List.mem_cons_self) fun path failed =>
        accessed path (failed ▸ List.mem_cons_self)
    have writes := relabelFile_writesAt visit.1 visit.2 state
    rw [leadsTo.target] at writes
    have unwritten {location : Location} (differs : source.target ≠ location) :
        (relabelFile visit.1 visit.2 state).2.2.contentAt? location = state.2.contentAt? location :=
      writes.same location (by simpa using differs.symm)
    have contentsLater : ∀ other ∈ order,
        (relabelFile visit.1 visit.2 state).2.2.contentAt? other.place = some other.content := by
      intro other isOther
      rw [unwritten (apart other isOther).1]
      exact contents other (List.mem_cons_of_mem _ isOther)
    obtain ⟨tallied, written⟩ := ih independent contentsLater
      (fun path failed => accessed path (List.mem_cons_of_mem _ failed))
      (summary.count (relabelFile visit.1 visit.2 state).1)
    rw [(relabelFile_settings _ _ _).2] at tallied written
    constructor
    · rw [answered] at tallied
      rw [results, tally, List.foldl_cons, ← tally, answered, tallied]
      exact Summary.count_saying summary visit.1 _ _
    · intro other isOther
      rcases List.mem_cons.1 isOther with rfl | isLater
      · -- The later visits write at other targets.
        have writesLater := relabelEach_writesAt visits (relabelFile visit.1 visit.2 state).2
        rw [targets_eq leads] at writesLater
        rw [← isWritten]
        refine writesLater.same _ fun isTarget => ?_
        obtain ⟨later, isLater, same⟩ := List.mem_map.1 isTarget
        exact (apart later isLater).2 same.symm
      · rw [← unwritten (apart other isLater).2]
        exact written other isLater

theorem Summary.ofOutcomes_perm {outcomes others : List (Except Pass.Error (Option Bytes))}
    (perm : outcomes.Perm others) : Summary.ofOutcomes outcomes = .ofOutcomes others := by
  simp only [ofOutcomes, perm.countP_eq]

theorem areFolders_of_create {reserve : Nat} {table : SymbolTable} {options : Options}
    {tree : FileTree} {project : Project}
    (accepted : create reserve table options tree = .ok project) :
    ∀ input ∈ options.inputs, tree.isFolder input := by
  unfold create at accepted
  split at accepted
  · cases accepted
  · split at accepted
    · cases accepted
    · next none => simpa using none

/-- **Class files are relabelled one by one.** If no input and no output lies in another one and no
file operation fails, then afterwards each class file below an input has at its target what
relabelling it on its own gives: the changed bytes, its own bytes if there is nothing to change, and
what has been there before if it cannot be relabelled. All other files are left as they are, none is
created, and the summary counts the class files of each kind. -/
theorem relabelAll_isolated {project fresh : Project} {tree : FileTree}
    (wellFormed : tree.WellFormed)
    (accepted : create project.reserve project.table project.options tree = .ok fresh)
    (separate : project.options.Separate) (undisturbed : Undisturbed (project, tree)) :
    (∀ source ∈ sourcesOf project.options tree,
        (relabelAll (project, tree)).2.2.contentAt? source.target =
          resultOf (project.outcome source.content) source.content
            (tree.contentAt? source.target)) ∧
      (∀ location, (∀ source ∈ sourcesOf project.options tree, source.target ≠ location) →
        (relabelAll (project, tree)).2.2.contentAt? location = tree.contentAt? location) ∧
      (relabelAll (project, tree)).1 = .ofOutcomes
        ((sourcesOf project.options tree).map fun source => project.outcome source.content) := by
  -- The walks come to the class files in some order, which does not matter to what is said of them.
  have relabels := relabelAll_relabels wellFormed (areFolders_of_create accepted) separate
    undisturbed.entered
  obtain ⟨order, leads, nodup, mem_order⟩ := relabels.covers
  have independent := nodup.pairwise_of_forall_ne fun source isSource other isOther =>
    target_ne separate ((mem_order source).1 isSource) ((mem_order other).1 isOther)
  have contents : ∀ source ∈ order, tree.contentAt? source.place = some source.content := by
    intro source isSource
    obtain ⟨target, -, isBelow⟩ := List.mem_flatMap.1 ((mem_order source).1 isSource)
    obtain ⟨names, -, -, -, isContent⟩ := mem_sourcesBelow.1 isBelow
    exact isContent
  obtain ⟨tallied, written⟩ :=
    relabelEach_isolated leads independent contents undisturbed.accessed {}
  have run_eq : relabelAll (project, tree) = _ := relabels.run_eq {}
  rw [run_eq]
  refine ⟨fun source isSource => written source ((mem_order source).2 isSource), ?_, ?_⟩
  · intro location outside
    have writes := relabelEach_writesAt (visitsOfAll (project, tree)) (project, tree)
    rw [targets_eq leads] at writes
    refine writes.same location fun isTarget => ?_
    obtain ⟨source, isSource, same⟩ := List.mem_map.1 isTarget
    exact outside source ((mem_order source).1 isSource) same
  · have perm := (List.perm_ext_iff_of_nodup nodup (nodup_sourcesOf separate tree)).2 mem_order
    refine tallied.trans ?_
    rw [Summary.ofOutcomes_perm (perm.map _)]
    simp [Summary.add]

/-- A class file that mentions nothing. -/
def silentBytes : Bytes :=
  [0xCA, 0xFE, 0xBA, 0xBE, 0, 0, 0, 52, 0, 3, 1, 0, 1, 65, 7, 0, 1, 0, 33, 0, 2, 0, 0, 0, 0, 0, 0,
    0, 0, 0, 0]

/-- Two inputs, with a class file of each kind and with an output folder that is there already. -/
def mixedTree : FileTree :=
  (((((((({} : FileTree).put ["in"] .folder).put ["in", "B.class"] (.file [1])).put
    ["in", "deep"] .folder).put ["in", "deep", "A.class"] (.file mentioningBytes)).put
    ["more"] .folder).put ["more", "C.class"] (.file silentBytes)).put
    ["out"] .folder).put ["out", "B.class"] (.file [2])

def mixedOptions : Options := ⟨[⟨"in"⟩, ⟨"./more/"⟩], [⟨"out"⟩, ⟨"new/out"⟩], .production⟩

def mixedProject : Project :=
  { reserve := 0, table := chainedTable, options := mixedOptions }

/-- A class file that fails stops none of the others, in its own folder or behind it. -/
theorem relabelAll_isolated_of_each_kind :
    (relabelAll (mixedProject, mixedTree)).1 = ⟨1, 1, 1⟩ ∧
      (relabelAll (mixedProject, mixedTree)).2.2.contentAt? ["out", "B.class"] = some [2] ∧
      (relabelAll (mixedProject, mixedTree)).2.2.contentAt? ["new", "out", "C.class"] =
        some silentBytes := by
  have separate : mixedProject.options.Separate :=
    ⟨by decide +kernel, by decide +kernel, by decide +kernel⟩
  have results_eq : results (visitsOfAll (mixedProject, mixedTree)) (mixedProject, mixedTree) =
      [.error (.relabel ⟨"in/B.class"⟩ (.file .unexpectedEnd)), .ok true, .ok false] := by
    decide +kernel
  have undisturbed : Undisturbed (mixedProject, mixedTree) :=
    ⟨by decide +kernel, fun path => by simp [results_eq]⟩
  obtain ⟨targets, -, summary⟩ := relabelAll_isolated (by decide +kernel) rfl separate undisturbed
  refine ⟨?_, ?_, ?_⟩
  · rw [summary]
    decide +kernel
  · refine (targets ⟨["in", "B.class"], ["out", "B.class"], [1]⟩ ?_).trans ?_ <;> decide +kernel
  · refine (targets ⟨["more", "C.class"], ["new", "out", "C.class"], silentBytes⟩ ?_).trans ?_ <;>
      decide +kernel

end Project

end Relabel
