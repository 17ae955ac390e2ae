import Mathlib
import Relabel.Proofs.Project.Writing

/-!
# What a walk comes to

A walk through an input comes to each class file below it once. While it goes on, files are written
and folders are created, also below the input itself; but no file appears or disappears there, so
that the class files are those that were there at first. The order in which the walk comes to them
does not matter.
-/

namespace Relabel

namespace FileTree

/-! ## Folders -/

/-- What is made of the entries of a tree stands at different places. -/
theorem pairwise_filterMap_entries {α : Type} (tree : FileTree)
    {make : Location × Entry → Option α} (placeOf : α → Location)
    (places : ∀ entry made, make entry = some made → entry.1 = placeOf made) :
    (tree.entries.toList.filterMap make).Pairwise fun first second =>
      placeOf first ≠ placeOf second := by
  rw [List.pairwise_filterMap]
  refine tree.entries.distinct_keys_toList.imp fun {first second} distinct => ?_
  intro made isMade other isOther same
  apply distinct
  rw [places first made isMade, places second other isOther, same]
  exact Std.ReflCmp.compare_self

theorem mem_children {tree : FileTree} {location : Location} {name : String} {entry : Entry} :
    (name, entry) ∈ tree.children location ↔ tree.at? (location ++ [name]) = some entry := by
  have atBelow : tree.at? (location ++ [name]) = tree.entries[location ++ [name]]? := by simp [at?]
  rw [atBelow, ← Std.ExtTreeMap.mem_toList_iff_getElem?_eq_some, children, List.mem_filterMap]
  constructor
  · rintro ⟨⟨place, other⟩, isEntry, found⟩
    simp only at found
    split at found
    · next last isLast =>
      split at found
      · next isFront =>
        cases found
        obtain ⟨front, rfl⟩ := List.getLast?_eq_some_iff.1 isLast
        rw [List.dropLast_concat] at isFront
        rwa [← isFront]
      · cases found
    · cases found
  · intro isEntry
    exact ⟨_, isEntry, by simp⟩

/-- The entries of a folder have different names. -/
theorem pairwise_children (tree : FileTree) (location : Location) :
    (tree.children location).Pairwise fun first second => first.1 ≠ second.1 := by
  refine (tree.pairwise_filterMap_entries (fun child => location ++ [child.1]) ?_).imp
    fun {first second} differ same => differ (by rw [same])
  intro ⟨place, entry⟩ child isChild
  simp only at isChild
  split at isChild
  · next last isLast =>
    split at isChild
    · next isFront =>
      cases isChild
      obtain ⟨front, found⟩ := List.getLast?_eq_some_iff.1 isLast
      rw [found, List.dropLast_concat] at isFront
      rw [found, isFront]
    · cases isChild
  · cases isChild

end FileTree

namespace Project

open FileTree

/-! ## Class files below an input -/

/-- A class file below an input, with the place that it is relabelled into. -/
structure Source where
  place : Location
  target : Location
  content : Bytes
  deriving DecidableEq

/-- Whether names lead to a class file, if they lead to a file. -/
def leadToClass (names : List String) : Bool := (names.getLast?.map Path.isClassName).getD false

/-- The class files below an input, with their places below the output. -/
def sourcesBelow (tree : FileTree) (input output : Path) : List Source :=
  tree.entries.toList.filterMap fun (place, entry) =>
    match input.place.isPrefixOf? place, entry with
    | some names, .file content =>
      if leadToClass names then some ⟨place, output.place ++ names, content⟩ else none
    | _, _ => none

theorem mem_sourcesBelow {tree : FileTree} {input output : Path} {source : Source} :
    source ∈ sourcesBelow tree input output ↔
      ∃ names, source.place = input.place ++ names ∧ source.target = output.place ++ names ∧
        leadToClass names ∧ tree.contentAt? source.place = some source.content := by
  rw [sourcesBelow, List.mem_filterMap]
  constructor
  · rintro ⟨⟨place, entry⟩, isEntry, found⟩
    simp only at found
    split at found
    · next _ names content isBelow =>
      split at found
      · next leads =>
        cases found
        obtain rfl := List.isPrefixOf?_eq_some_iff_append_eq.1 isBelow
        have inside : input.place ++ names ≠ [] := by
          intro isTop
          rw [(List.append_eq_nil_iff.1 isTop).2] at leads
          cases leads
        rw [Std.ExtTreeMap.mem_toList_iff_getElem?_eq_some] at isEntry
        refine ⟨names, rfl, rfl, leads, contentAt?_eq_some_iff.2 ?_⟩
        rw [at?, if_neg (by simpa using inside), isEntry]
      · cases found
    · cases found
  · rintro ⟨names, place_eq, target_eq, leads, isContent⟩
    have isFile := contentAt?_eq_some_iff.1 isContent
    have notFolder : tree.at? source.place ≠ some .folder := by simp [isFile]
    have inside := ne_nil_of_at?_ne_folder notFolder
    rw [at?, if_neg (by simpa using inside)] at isFile
    refine ⟨⟨source.place, .file source.content⟩,
      Std.ExtTreeMap.mem_toList_iff_getElem?_eq_some.2 isFile, ?_⟩
    have isBelow : input.place.isPrefixOf? source.place = some names :=
      List.isPrefixOf?_eq_some_iff_append_eq.2 place_eq.symm
    simp only [isBelow, leads, if_true, ← target_eq]

theorem place_isBelow {tree : FileTree} {input output : Path} {source : Source}
    (isSource : source ∈ sourcesBelow tree input output) : input.place <+: source.place := by
  obtain ⟨names, place_eq, -⟩ := mem_sourcesBelow.1 isSource
  exact ⟨names, place_eq.symm⟩

theorem target_isBelow {tree : FileTree} {input output : Path} {source : Source}
    (isSource : source ∈ sourcesBelow tree input output) : output.place <+: source.target := by
  obtain ⟨names, -, target_eq, -⟩ := mem_sourcesBelow.1 isSource
  exact ⟨names, target_eq.symm⟩

/-- Different class files stand at different places. -/
theorem pairwise_sourcesBelow (tree : FileTree) (input output : Path) :
    (sourcesBelow tree input output).Pairwise fun first second => first.place ≠ second.place := by
  refine tree.pairwise_filterMap_entries Source.place fun ⟨place, entry⟩ source isSource => ?_
  simp only at isSource
  split at isSource
  · split at isSource
    · cases isSource
      rfl
    · cases isSource
  · cases isSource

/-! ## Results -/

/-- What visits say, one after the other. -/
def results : List Visit → Project × FileTree → List (Except Error Bool)
  | [], _ => []
  | visit :: rest, state =>
    (relabelFile visit.1 visit.2 state).1 :: results rest (relabelFile visit.1 visit.2 state).2

theorem results_append (visits more : List Visit) (state : Project × FileTree) :
    results (visits ++ more) state =
      results visits state ++ results more (relabelEach visits state) := by
  induction visits generalizing state with
  | nil => rfl
  | cons visit rest ih => exact congrArg _ (ih _)

/-- The summary with one more result. -/
def Summary.count (summary : Summary) : Except Error Bool → Summary
  | .ok true => { summary with relabelled := summary.relabelled + 1 }
  | .ok false => { summary with unchanged := summary.unchanged + 1 }
  | .error _ => { summary with failed := summary.failed + 1 }

def tally (summary : Summary) (results : List (Except Error Bool)) : Summary :=
  results.foldl Summary.count summary

theorem relabelCounted_eq (input output : Path) (summary : Summary) (state : Project × FileTree) :
    relabelCounted input output summary state =
      (summary.count (relabelFile input output state).1, (relabelFile input output state).2) := by
  unfold relabelCounted
  split <;> next result => rw [result, Summary.count]

theorem relabelEach_writesAt (visits : List Visit) (state : Project × FileTree) :
    WritesAt (visits.map fun visit => visit.2.place) state.2 (relabelEach visits state).2 := by
  induction visits generalizing state with
  | nil => exact .refl [] state.2
  | cons visit rest ih => exact (relabelFile_writesAt visit.1 visit.2 state).trans (ih _)

/-! ## Runs -/

/-- The paths of a visit lead to a class file and to the place that it is relabelled into. -/
structure Leads (visit : Visit) (source : Source) : Prop where
  place : visit.1.place = source.place
  target : visit.2.place = source.target

theorem targets_eq {visits : List Visit} {order : List Source}
    (leads : List.Forall₂ Leads visits order) :
    visits.map (fun visit => visit.2.place) = order.map Source.target := by
  induction leads with
  | nil => rfl
  | cons leads _ ih => rw [List.map_cons, List.map_cons, leads.target, ih]

/-- The visits come to each of some class files once, in some order, and to nothing else. -/
def Covers (sources : Source → Prop) (visits : List Visit) : Prop :=
  ∃ order, List.Forall₂ Leads visits order ∧ order.Nodup ∧ ∀ source, source ∈ order ↔ sources source

/-- A run from a state does what visits to some class files do. -/
structure Relabels (sources : Source → Prop) (visits : List Visit) (state : Project × FileTree)
    (run : Summary → Summary × Project × FileTree) : Prop where
  covers : Covers sources visits
  run_eq : ∀ summary, run summary = (tally summary (results visits state), relabelEach visits state)

section

variable {sources : Source → Prop} {visits : List Visit} {state : Project × FileTree}
  {run : Summary → Summary × Project × FileTree}

theorem Relabels.congr {others : Source → Prop} (relabels : Relabels sources visits state run)
    (same : ∀ source, sources source ↔ others source) : Relabels others visits state run := by
  obtain ⟨order, leads, nodup, mem_order⟩ := relabels.covers
  exact ⟨⟨order, leads, nodup, fun source => (mem_order source).trans (same source)⟩,
    relabels.run_eq⟩

theorem Relabels.nothing (none : ∀ source, ¬sources source) :
    Relabels sources [] state fun summary => (summary, state) :=
  ⟨⟨[], .nil, .nil, fun source => ⟨nofun, fun isSource => absurd isSource (none source)⟩⟩,
    fun _ => rfl⟩

theorem Relabels.single {visit : Visit} {source : Source} (leads : Leads visit source)
    (only : ∀ other, sources other ↔ other = source) :
    Relabels sources [visit] state fun summary => relabelCounted visit.1 visit.2 summary state :=
  ⟨⟨[source], .cons leads .nil, List.nodup_singleton source,
      fun other => List.mem_singleton.trans (only other).symm⟩,
    fun summary => relabelCounted_eq visit.1 visit.2 summary state⟩

theorem Relabels.append {others : Source → Prop} {more : List Visit}
    (next : Summary × Project × FileTree → Summary × Project × FileTree)
    (relabels : Relabels sources visits state run)
    (later : Relabels others more (relabelEach visits state) fun summary =>
      next (summary, relabelEach visits state))
    (disjoint : ∀ source, sources source → ¬others source) :
    Relabels (fun source => sources source ∨ others source) (visits ++ more) state fun summary =>
      next (run summary) := by
  obtain ⟨order, leads, nodup, mem_order⟩ := relabels.covers
  obtain ⟨orderLater, leadsLater, nodupLater, mem_later⟩ := later.covers
  constructor
  · refine ⟨order ++ orderLater, List.rel_append leads leadsLater, ?_, fun source => ?_⟩
    · refine List.nodup_append'.2 ⟨nodup, nodupLater, fun source isSource isOther => ?_⟩
      exact disjoint source ((mem_order source).1 isSource) ((mem_later source).1 isOther)
    · rw [List.mem_append, mem_order, mem_later]
  · intro summary
    rw [relabels.run_eq, later.run_eq, results_append, relabelEach_append, tally, tally, tally,
      List.foldl_append]

end

/-! ## Inputs that stay as they are -/

/-- Writing at this location creates no file below an input. -/
def Harmless (inputs : List Path) (first : FileTree) (target : Location) : Prop :=
  ∀ input ∈ inputs, input.place <+: target → (first.contentAt? target).isSome

/-- The inputs of a well-formed tree are folders, with files where the first tree has files. -/
structure Sound (inputs : List Path) (first tree : FileTree) : Prop where
  wellFormed : tree.WellFormed
  isFolder : ∀ input ∈ inputs, tree.isFolder input
  agrees : ∀ input ∈ inputs, ∀ location, input.place <+: location →
    ((tree.contentAt? location).isSome ↔ (first.contentAt? location).isSome)

theorem Sound.later {inputs : List Path} {first old new : FileTree} {targets : List Location}
    (sound : Sound inputs first old) (writes : WritesAt targets old new)
    (harmless : ∀ target ∈ targets, Harmless inputs first target) : Sound inputs first new where
  wellFormed := writes.wellFormed sound.wellFormed
  isFolder input isInput := by
    obtain ⟨located, isFolder⟩ := isFolder_iff.1 (sound.isFolder input isInput)
    exact isFolder_iff.2 ⟨writes.grows.locate? located, writes.grows _ isFolder⟩
  agrees input isInput location isBelow := by
    have agrees := sound.agrees input isInput location isBelow
    by_cases isTarget : location ∈ targets
    · have isFirst := harmless location isTarget input isInput isBelow
      exact ⟨fun _ => isFirst, fun _ => writes.remains location (agrees.2 isFirst)⟩
    · rw [writes.same location isTarget, agrees]

/-- Every folder below an input has a path that is not too long. -/
def Enterable (inputs : List Path) (tree : FileTree) : Prop :=
  ∀ input ∈ inputs, ∀ names, tree.at? (input.place ++ names) = some .folder →
    (below input names).isUsable

instance (inputs : List Path) (tree : FileTree) : Decidable (Enterable inputs tree) :=
  decidable_of_iff (∀ input ∈ inputs, ∀ location ∈ tree.locations,
      tree.at? location = some .folder → ∀ names ∈ input.place.isPrefixOf? location,
        (below input names).isUsable)
    ⟨fun all input isInput names isFolder =>
      all input isInput _ (mem_locations.2 (by rw [isFolder]; rfl)) isFolder names
        (List.isPrefixOf?_eq_some_iff_append_eq.2 rfl),
      fun enterable input isInput location _ isFolder names isBelow => by
        obtain rfl := List.isPrefixOf?_eq_some_iff_append_eq.1 isBelow
        exact enterable input isInput names isFolder⟩

theorem Enterable.earlier {inputs : List Path} {old new : FileTree}
    (enterable : Enterable inputs new) (grows : old.Grows new) : Enterable inputs old :=
  fun input isInput names isFolder => enterable input isInput names (grows _ isFolder)

section

variable {inputs : List Path} {first : FileTree}

theorem Sound.relabelEach {sources : Source → Prop} {visits : List Visit}
    {state : Project × FileTree} (sound : Sound inputs first state.2)
    (covers : Covers sources visits)
    (harmless : ∀ source, sources source → Harmless inputs first source.target) :
    Sound inputs first (relabelEach visits state).2 := by
  obtain ⟨order, leads, -, mem_order⟩ := covers
  have writes := relabelEach_writesAt visits state
  rw [targets_eq leads] at writes
  refine sound.later writes fun target isTarget => ?_
  obtain ⟨source, isSource, rfl⟩ := List.mem_map.1 isTarget
  exact harmless source ((mem_order source).1 isSource)

/-- Parts that are relabelled in turn are relabelled together. -/
theorem inTurn_relabels {α : Type}
    {step : Summary × Project × FileTree → α → Summary × Project × FileTree}
    {visitsOf : α → Project × FileTree → List Visit} {sources : α → Source → Prop}
    {parts : List α} {start : FileTree} {state : Project × FileTree}
    (harmless : ∀ part ∈ parts, ∀ source, sources part source →
      Harmless inputs first source.target)
    (disjoint : parts.Pairwise fun part other => ∀ source, sources part source →
      ¬sources other source)
    (each : ∀ part ∈ parts, ∀ state : Project × FileTree, Sound inputs first state.2 →
      start.Grows state.2 → Enterable inputs (relabelEach (visitsOf part state) state).2 →
      Relabels (sources part) (visitsOf part state) state fun summary => step (summary, state) part)
    (sound : Sound inputs first state.2) (grows : start.Grows state.2)
    (enterable : Enterable inputs (relabelEach (inTurn visitsOf parts state) state).2) :
    Relabels (fun source => ∃ part ∈ parts, sources part source) (inTurn visitsOf parts state) state
      fun summary => parts.foldl step (summary, state) := by
  -- What can be entered in the end can be entered before, as folders are never removed.
  induction parts generalizing state with
  | nil => exact .nothing (by simp)
  | cons part rest ih =>
    rw [inTurn, relabelEach_append] at enterable
    have writes := relabelEach_writesAt (visitsOf part state) state
    have writesLater := relabelEach_writesAt
      (inTurn visitsOf rest (relabelEach (visitsOf part state) state))
      (relabelEach (visitsOf part state) state)
    have here := each part List.mem_cons_self state sound grows
      (enterable.earlier writesLater.grows)
    have later := ih (fun other isOther => harmless other (List.mem_cons_of_mem _ isOther))
      disjoint.of_cons (fun other isOther => each other (List.mem_cons_of_mem _ isOther))
      (sound.relabelEach here.covers (harmless part List.mem_cons_self))
      (grows.trans writes.grows) enterable
    refine (here.append (List.foldl step · rest) later ?_).congr fun source => ?_
    · rintro source isSource ⟨other, isOther, isOtherSource⟩
      exact List.rel_of_pairwise_cons disjoint isOther source isSource isOtherSource
    · rw [List.exists_mem_cons_iff]

/-! ## Walks -/

variable {input output : Path}

/-- The class files that stand where names lead to from an input, or below. -/
def Under (first : FileTree) (input output : Path) (names : List String) (source : Source) : Prop :=
  source ∈ sourcesBelow first input output ∧ input.place ++ names <+: source.place

section

variable {tree : FileTree} {names : List String} {source : Source}

theorem under_nil :
    Under first input output [] source ↔ source ∈ sourcesBelow first input output := by
  rw [Under, List.append_nil, and_iff_left_of_imp place_isBelow]

theorem Under.isFile (under : Under first input output names source) (isInput : input ∈ inputs)
    (sound : Sound inputs first tree) : (tree.contentAt? source.place).isSome := by
  obtain ⟨more, place_eq, -, -, isContent⟩ := mem_sourcesBelow.1 under.1
  rw [sound.agrees input isInput source.place ⟨more, place_eq.symm⟩, isContent]
  rfl

/-- What stands under a folder stands under one of its entries. -/
theorem under_iff_children (isInput : input ∈ inputs) (sound : Sound inputs first tree)
    (isFolder : tree.at? (input.place ++ names) = some .folder) :
    Under first input output names source ↔
      ∃ child ∈ tree.children (input.place ++ names),
        Under first input output (names ++ [child.1]) source := by
  constructor
  · intro under
    have isFile := under.isFile isInput sound
    obtain ⟨isSource, more, place_eq⟩ := under
    rw [← place_eq] at isFile
    cases more with
    | nil =>
      rw [List.append_nil, contentAt?_of_folder isFolder] at isFile
      cases isFile
    | cons name rest =>
      rw [List.append_cons] at isFile place_eq
      have isEntry : (tree.at? (input.place ++ names ++ [name])).isSome := by
        by_cases isLast : rest = []
        · rw [isLast, List.append_nil] at isFile
          exact isSome_at?_of_contentAt? isFile
        · rw [sound.wellFormed.isFolder_above isLast (isSome_at?_of_contentAt? isFile)]
          rfl
      obtain ⟨entry, isEntry⟩ := Option.isSome_iff_exists.1 isEntry
      exact ⟨(name, entry), mem_children.2 isEntry, isSource, rest, by simpa using place_eq⟩
  · rintro ⟨child, -, isSource, isBelow⟩
    rw [← List.append_assoc] at isBelow
    exact ⟨isSource, (List.prefix_append _ _).trans isBelow⟩

/-- What stands under two entries of a folder stands under one. -/
theorem Under.name_eq {name other : String}
    (under : Under first input output (names ++ [name]) source)
    (others : Under first input output (names ++ [other]) source) : name = other := by
  have isPrefix := List.prefix_of_prefix_length_le under.2 others.2 (by simp)
  simpa using isPrefix.eq_of_length (by simp)

/-- Nothing stands below a file. -/
theorem Under.at_file (under : Under first input output names source) (isInput : input ∈ inputs)
    (sound : Sound inputs first tree) (isFile : (tree.contentAt? (input.place ++ names)).isSome) :
    leadToClass names ∧ source.place = input.place ++ names ∧
      source.target = output.place ++ names ∧
      first.contentAt? (input.place ++ names) = some source.content := by
  have isEntry := isSome_at?_of_contentAt? (under.isFile isInput sound)
  obtain ⟨isSource, more, more_eq⟩ := under
  have place_eq : source.place = input.place ++ names := by
    rw [← more_eq] at isEntry ⊢
    by_cases nonempty : more = []
    · rw [nonempty, List.append_nil]
    · rw [contentAt?_of_folder (sound.wellFormed.isFolder_above nonempty isEntry)] at isFile
      cases isFile
  obtain ⟨others, others_eq, target_eq, leads, isContent⟩ := mem_sourcesBelow.1 isSource
  rw [place_eq] at others_eq isContent
  obtain rfl := List.append_cancel_left others_eq
  exact ⟨leads, place_eq, target_eq, isContent⟩

end

theorem relabelCounted_relabels {names : List String} {state : Project × FileTree}
    (isInput : input ∈ inputs) (sound : Sound inputs first state.2)
    (isFile : (state.2.contentAt? (input.place ++ names)).isSome) (leads : leadToClass names) :
    Relabels (Under first input output names) [(below input names, below output names)] state
      fun summary => relabelCounted (below input names) (below output names) summary state := by
  have areNames := sound.wellFormed.areNames (isSome_at?_of_contentAt? isFile)
  obtain ⟨content, isContent⟩ := Option.isSome_iff_exists.1
    ((sound.agrees input isInput _ (List.prefix_append _ names)).1 isFile)
  have leadsTo : Leads (below input names, below output names)
      ⟨input.place ++ names, output.place ++ names, content⟩ :=
    ⟨Path.place_below input areNames, Path.place_below output areNames⟩
  refine .single leadsTo fun other => ⟨fun under => ?_, ?_⟩
  · obtain ⟨-, place_eq, target_eq, isOther⟩ := under.at_file isInput sound isFile
    cases isContent.symm.trans isOther
    rw [← place_eq, ← target_eq]
  · rintro rfl
    exact ⟨mem_sourcesBelow.2 ⟨names, rfl, rfl, leads, isContent⟩, List.prefix_rfl⟩

/-- A walk with enough depth left comes to all class files under its folder. -/
theorem walk_relabels (isInput : input ∈ inputs)
    (harmless : ∀ source ∈ sourcesBelow first input output, Harmless inputs first source.target)
    (depth : Nat) (names : List String) {state : Project × FileTree}
    (deep : Path.longestPath < names.length + depth) (sound : Sound inputs first state.2)
    (isFolder : state.2.at? (input.place ++ names) = some .folder)
    (enterable : Enterable inputs
      (relabelEach (visitsBelow input output depth names state) state).2) :
    Relabels (Under first input output names) (visitsBelow input output depth names state) state
      fun summary => walk input output depth names (summary, state) := by
  -- The entries are those of the folder as it is now, and each is sound when its turn comes.
  induction depth generalizing names state with
  | zero =>
    -- A folder that can be entered is not so deep.
    have areNames := sound.wellFormed.areNames (by rw [isFolder]; rfl)
    have few := Path.length_le_of_isUsable areNames (enterable input isInput names isFolder)
    omega
  | succ depth ih =>
    have writes := relabelEach_writesAt (visitsBelow input output (depth + 1) names state) state
    have usable := enterable.earlier writes.grows input isInput names isFolder
    have located := sound.wellFormed.locate?_below (sound.isFolder input isInput)
      (by rw [isFolder]; rfl) usable
    unfold visitsBelow at enterable
    unfold walk visitsBelow
    simp only [located] at enterable ⊢
    have disjoint : (state.2.children (input.place ++ names)).Pairwise fun child other =>
        ∀ source, Under first input output (names ++ [child.1]) source →
          ¬Under first input output (names ++ [other.1]) source :=
      (state.2.pairwise_children _).imp fun differ source under others =>
        differ (under.name_eq others)
    refine (inTurn_relabels (fun child _ source isSource => harmless source isSource.1) disjoint
      ?_ sound (.refl _) enterable).congr fun source =>
        (under_iff_children isInput sound isFolder).symm
    rintro ⟨name, entry⟩ isChild later soundLater grows enterableLater
    have isEntry := mem_children.1 isChild
    rw [List.append_assoc] at isEntry
    cases entry with
    | folder =>
      refine ih _ ?_ soundLater (grows _ isEntry) enterableLater
      rw [List.length_append, List.length_singleton]
      omega
    | file content =>
      -- The file is there when its turn comes, although its content may be another one.
      have isBelow := List.prefix_append input.place (names ++ [name])
      have isFile : (later.2.contentAt? (input.place ++ (names ++ [name]))).isSome := by
        rw [soundLater.agrees input isInput _ isBelow, ← sound.agrees input isInput _ isBelow,
          contentAt?_eq_some_iff.2 isEntry]
        rfl
      by_cases isClass : Path.isClassName name
      · simp only [isClass, if_true]
        exact relabelCounted_relabels isInput soundLater isFile (by simpa [leadToClass])
      · simp only [isClass, if_false, Bool.false_eq_true]
        refine .nothing fun source under => isClass ?_
        simpa [leadToClass] using (under.at_file isInput soundLater isFile).1

end

end Project

end Relabel
