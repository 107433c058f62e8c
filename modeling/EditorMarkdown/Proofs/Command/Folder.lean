import EditorMarkdown.Proofs.Command.Extension
import EditorMarkdown.Proofs.Command.Schedule

/-!
The jobs for the files of a folder: where their inputs are and where their outputs go. A job may not
write over the input of another one, but it is their spelling that is compared. That is enough if
the two folders are spelled alike, and it is not if one of them is spelled in two ways.
-/

namespace EditorMarkdown.Command

open EditorMarkdown.Command.Path (IsName innerComponent? renamed splitName?)

/-! Jobs and the files they are for. -/

theorem insertNames_perm (names : List String) (files : List (List String)) :
    (insertNames names files).Perm (names :: files) := by
  induction files with
  | nil => exact .refl _
  | cons other rest induction =>
      unfold insertNames
      split
      · exact (induction.cons other).trans (.swap names other rest)
      · exact .refl _

theorem sortNames_perm (files : List (List String)) : (sortNames files).Perm files := by
  induction files with
  | nil => exact .refl _
  | cons names rest induction => exact (insertNames_perm names _).trans (induction.cons names)

def jobFor (input output : Path) (names : List String) (direction : Direction) : Job where
  input := input.join (.ofNames names)
  output := (output.join (.ofNames names)).withExtension direction.extension
  direction := direction

theorem mem_jobsFor {input output : Path} {files : List (List String)} {job : Job} :
    job ∈ jobsFor input output files ↔ ∃ names ∈ files, ∃ direction,
      Direction.ofPath? (input.join (.ofNames names)) = some direction ∧
      jobFor input output names direction = job := by
  simp only [jobsFor, List.mem_filterMap, (sortNames_perm files).mem_iff, Option.map_eq_some_iff]
  rfl

theorem namesAfter?_eq_some {position longer names : Position} :
    Memory.namesAfter? position longer = some names ↔ longer = position ++ names ∧ names ≠ [] := by
  induction position generalizing longer with
  | nil =>
      cases longer with
      | nil => simp [Memory.namesAfter?]
      | cons name rest =>
          simp only [Memory.namesAfter?, Option.some.injEq, List.nil_append]
          constructor
          · rintro rfl
            exact ⟨rfl, by simp⟩
          · exact fun found => found.1
  | cons first rest induction =>
      cases longer with
      | nil => simp [Memory.namesAfter?]
      | cons second others =>
          by_cases same : first = second
          · simp [Memory.namesAfter?, same, induction]
          · simp [Memory.namesAfter?, same, Ne.symm same]

structure Holds (memory : Memory) (folder : Path) (names : List String) : Prop where
  located : memory.locate folder = .ok (memory.place folder)
  found : ∃ bytes, memory.item? (memory.place folder ++ names) = some (.file bytes)
  filled : names ≠ []
  valid : ∀ name ∈ names, IsName name.toList

theorem holds_of_mem_filesIn {memory : Memory} (tree : memory.IsTree) {recursive : Bool}
    {folder : Path} {names : List String} (member : names ∈ memory.filesIn recursive folder) :
    Holds memory folder names := by
  unfold Memory.filesIn at member
  split at member
  · cases member
  · next position located =>
      obtain ⟨_, _, _, _, rfl⟩ := Memory.exists_of_locate located
      obtain ⟨⟨longer, item⟩, inside, made⟩ := List.mem_filterMap.1 member
      cases item with
      | folder => cases made
      | file bytes =>
          obtain ⟨after, -⟩ := Option.filter_eq_some_iff.1 made
          obtain ⟨rfl, filled⟩ := namesAfter?_eq_some.1 after
          refine ⟨located, ⟨bytes, tree.entries inside⟩, filled, ?_⟩
          intro name among
          exact tree.names _ inside name (List.mem_append_right _ among)

section

variable {memory : Memory} {path : Path} {names : List String} (filled : names ≠ [])
  (valid : ∀ name ∈ names, IsName name.toList)

include filled valid

theorem start_join_names (memory : Memory) (path : Path) :
    memory.start (path.join (.ofNames names)) = memory.start path := by
  rw [Memory.start, Path.isAbsolute_join (Path.not_isAbsolute_ofNames filled valid), Memory.start]

theorem place_join_names (memory : Memory) (path : Path) :
    memory.place (path.join (.ofNames names)) = memory.place path ++ names := by
  have below : inner (names.map String.toList) = names.map .name := Path.filterMap_names valid
  have above : inner path.leading = inner path.pieces := Path.filterMap_leading path
  rw [Memory.place, start_join_names filled valid, Path.pieces_join_names path filled valid,
    inner_append, below, above, goal_append, goal_names, Memory.place]

end

namespace Holds

variable {memory : Memory} {folder : Path} {names : List String}

theorem folders (tree : memory.IsTree) {outer : List String} {last : String}
    (holds : Holds memory folder (outer ++ [last])) (other : Position)
    (member : other ∈ trail (memory.start folder)
      (inner (folder.leading ++ outer.map String.toList))) :
    memory.item? other = some .folder := by
  obtain ⟨bytes, found⟩ := holds.found
  have deeper : ∀ position, position <+: memory.place folder ++ outer →
      memory.item? position = some .folder := by
    intro position inside
    refine tree.folders _ _ (inside.trans ?_) ?_ (by rw [found]; rfl)
    · rw [← List.append_assoc]
      exact List.prefix_append _ _
    · rintro rfl
      have shorter := inside.length_le
      simp only [List.length_append, List.length_singleton] at shorter
      omega
  have valid : ∀ name ∈ outer, IsName name.toList := fun name among =>
    holds.valid name (List.mem_append_left _ among)
  have below : inner (outer.map String.toList) = outer.map .name := Path.filterMap_names valid
  have above : inner folder.leading = inner folder.pieces := Path.filterMap_leading folder
  rw [inner_append, below, above, mem_trail_append] at member
  rcases member with onTheWay | inside
  · have located := holds.located
    unfold Memory.locate at located
    split at located
    · cases located
    · exact Memory.folders_of_walk located (deeper _ (List.prefix_append _ _)) other onTheWay
  · exact deeper other (prefix_of_mem_trail_names inside)

theorem locate_join (tree : memory.IsTree) (holds : Holds memory folder names) {after : Memory}
    (same : after.folder = memory.folder)
    (kept : ∀ position, memory.item? position = some .folder →
      after.item? position = some .folder) :
    after.locate (folder.join (.ofNames names)) = .ok (memory.place folder ++ names) := by
  obtain ⟨outer, last, rfl⟩ := (List.eq_nil_or_concat' names).resolve_left holds.filled
  have shape := Path.pieces_join_concat folder holds.valid
  have isName : IsName last.toList := holds.valid last (by simp)
  have folders : ∀ other ∈ trail (after.start (folder.join (.ofNames (outer ++ [last]))))
      (inner (folder.leading ++ outer.map String.toList)), after.item? other = some .folder := by
    intro other member
    rw [start_join_names holds.filled holds.valid, Memory.start_of_folder same] at member
    exact kept other (holds.folders tree other member)
  rw [Memory.locate_of_folders shape isName.filled folders,
    place_join_names holds.filled holds.valid, Memory.place_of_folder same]

theorem at?_join (tree : memory.IsTree) (holds : Holds memory folder names) {after : Memory}
    (same : after.folder = memory.folder)
    (kept : ∀ position, memory.item? position = some .folder →
      after.item? position = some .folder) :
    after.at? (folder.join (.ofNames names)) = after.item? (memory.place folder ++ names) := by
  rw [Memory.at?, holds.locate_join tree same kept]

end Holds

/-! Where outputs go. -/

theorem Direction.extension_solid (direction : Direction) : '/' ∉ direction.extension.toList := by
  cases direction <;> decide

/-- The pieces of an output are those of the file under the output folder, but for the last one. -/
theorem exists_output {input output : Path} {names : List String} {direction : Direction}
    (filled : names ≠ []) (valid : ∀ name ∈ names, IsName name.toList)
    (directed : Direction.ofPath? (input.join (.ofNames names)) = some direction) :
    ∃ outer last stem old, names = outer ++ [last] ∧ splitName? last.toList = some (stem, old) ∧
      (jobFor input output names direction).output.pieces =
        (output.leading ++ outer.map String.toList) ++ [renamed stem direction.extension] ∧
      (jobFor input output names direction).output.isAbsolute = output.isAbsolute := by
  obtain ⟨outer, last, rfl⟩ := (List.eq_nil_or_concat' names).resolve_left filled
  have isName : IsName last.toList := valid last (by simp)
  cases split : splitName? last.toList with
  | none =>
      have bare : (input.join (.ofNames (outer ++ [last]))).extension? = none := by
        simp [Path.extension?, Path.name?_eq (Path.pieces_join_concat input valid) isName, split]
      simp [Direction.ofPath?, bare] at directed
  | some parts =>
      obtain ⟨stem, old⟩ := parts
      have joined := Path.pieces_join_concat output valid
      have shape : (jobFor input output (outer ++ [last]) direction).output.pieces =
          (output.leading ++ outer.map String.toList) ++ [renamed stem direction.extension] := by
        simp only [jobFor]
        exact Path.pieces_withExtension joined isName split direction.extension_solid
      refine ⟨outer, last, stem, old, rfl, split, shape, ?_⟩
      rw [Path.isAbsolute_of_pieces (Path.renamed_ne_nil _ _) isName.filled shape joined,
        Path.isAbsolute_join (Path.not_isAbsolute_ofNames filled valid)]

theorem exists_place_output {input output : Path} {names : List String} {direction : Direction}
    (filled : names ≠ []) (valid : ∀ name ∈ names, IsName name.toList)
    (directed : Direction.ofPath? (input.join (.ofNames names)) = some direction)
    (named : (jobFor input output names direction).output.Names) (memory : Memory) :
    ∃ others : List String,
      memory.place (jobFor input output names direction).output = memory.place output ++ others ∧
      (jobFor input output names direction).output.components =
        output.components ++ others.map .name := by
  obtain ⟨outer, last, stem, old, rfl, -, shape, absolute⟩ := exists_output filled valid directed
  generalize renamed stem direction.extension = piece at shape
  have isName : IsName piece := by
    obtain ⟨before, other, same, isName⟩ := named
    obtain ⟨-, last⟩ := List.append_inj' (shape.symm.trans same) rfl
    rwa [(List.cons.inj last).1]
  have outerValid : ∀ name ∈ outer, IsName name.toList := fun name among =>
    valid name (List.mem_append_left _ among)
  have below : inner (outer.map String.toList ++ [piece]) =
      (outer ++ [String.ofList piece]).map .name := by
    rw [inner_append, inner, Path.filterMap_names outerValid]
    simp [inner, isName.innerComponent?]
  rw [List.append_assoc] at shape
  refine ⟨outer ++ [String.ofList piece], ?_, ?_⟩
  · have above : inner output.leading = inner output.pieces := Path.filterMap_leading output
    rw [Memory.place, Memory.start, absolute, shape, inner_append, below, above, goal_append,
      goal_names]
    rfl
  · rw [Path.components_eq, absolute, shape,
      Path.componentsOf_append Path.not_isAbsolute_of_leading, Path.components_eq_leading]
    · exact congrArg _ below
    · intro other member
      rcases List.mem_append.1 member with inside | same
      · obtain ⟨name, among, rfl⟩ := List.mem_map.1 inside
        exact (outerValid name among).notHere
      · rw [List.mem_singleton.1 same]
        exact isName.notHere

/-! A run over a folder. -/

def jobsIn (memory : Memory) (recursive : Bool) (input output : Path) : List Job :=
  jobsFor input output (memory.filesIn recursive input)

theorem nodup_filesIn {memory : Memory} (tree : memory.IsTree) (recursive : Bool) (folder : Path) :
    (memory.filesIn recursive folder).Nodup := by
  unfold Memory.filesIn
  split
  · exact .nil
  · next position _ =>
      have distinct : memory.items.Pairwise fun first second => first.1 ≠ second.1 :=
        List.pairwise_map.1 tree.distinct
      refine List.pairwise_filterMap.2 (distinct.imp ?_)
      rintro ⟨first, one⟩ ⟨second, other⟩ different names made others madeOther rfl
      cases one with
      | folder => cases made
      | file =>
          cases other with
          | folder => cases madeOther
          | file =>
              obtain ⟨after, -⟩ := Option.filter_eq_some_iff.1 made
              obtain ⟨afterOther, -⟩ := Option.filter_eq_some_iff.1 madeOther
              obtain ⟨rfl, -⟩ := namesAfter?_eq_some.1 after
              obtain ⟨rfl, -⟩ := namesAfter?_eq_some.1 afterOther
              exact different rfl

theorem nodup_jobsIn {memory : Memory} (tree : memory.IsTree) (recursive : Bool)
    (input output : Path) : (jobsIn memory recursive input output).Nodup := by
  have distinct : (sortNames (memory.filesIn recursive input)).Nodup :=
    (sortNames_perm _).nodup_iff.2 (nodup_filesIn tree recursive input)
  refine List.pairwise_filterMap.2 (distinct.imp_of_mem ?_)
  intro first second isFirst isSecond different job made other madeOther same
  have holds := holds_of_mem_filesIn tree ((sortNames_perm _).mem_iff.1 isFirst)
  have otherHolds := holds_of_mem_filesIn tree ((sortNames_perm _).mem_iff.1 isSecond)
  obtain ⟨direction, -, rfl⟩ := Option.map_eq_some_iff.1 made
  obtain ⟨otherDirection, -, rfl⟩ := Option.map_eq_some_iff.1 madeOther
  have inputs := congrArg (fun job => memory.place job.input) same
  simp only [place_join_names holds.filled holds.valid,
    place_join_names otherHolds.filled otherHolds.valid] at inputs
  exact different (List.append_cancel_left inputs)

theorem convertFolder_eq {memory : Memory} (tree : memory.IsTree) (settings : Settings)
    (recursive : Bool) (input : Path) (output? : Option Path) :
    let jobs := jobsIn memory recursive input (output?.getD input)
    let final := (Progress.start memory).perform settings (Progress.inOrder (safeJobs jobs))
    (convertFolder settings recursive input output? : StateM Memory _) memory =
      (if jobs.isEmpty then none else some (final.tally (safeJobs jobs)), final.memory) := by
  intro jobs final
  have distinct : (safeJobs jobs).Nodup := (nodup_jobsIn tree _ _ _).sublist List.filter_sublist
  have run := (Progress.runJobs_eq settings distinct fun job _ =>
    show (Progress.start memory).stage job = .waiting from rfl).1
  have whole : (convertFolder settings recursive input output? : StateM Memory _) memory =
      if jobs.isEmpty then (none, memory)
      else
        let (tally, after) := (runJobs settings (safeJobs jobs) : StateM Memory _) memory
        (some tally, after) := by
    unfold convertFolder
    change (if jobs.isEmpty then pure none else _ : StateM Memory (Option Tally)) memory = _
    cases jobs.isEmpty <;> rfl
  rw [whole]
  cases empty : jobs.isEmpty with
  | true =>
      have none : jobs = [] := by simpa using empty
      simp [final, none, safeJobs, Progress.inOrder, Progress.perform, Progress.start]
  | false =>
      have began : (Progress.start memory).memory = memory := rfl
      rw [began] at run
      simp [final, run]

/-! Folders that are spelled alike. -/

/-- Whether two paths have the same components but for names at their ends. -/
def SpelledAlike (first second : Path) : Prop :=
  ∃ (common : List Component) (names others : List String),
    first.components = common ++ names.map .name ∧ second.components = common ++ others.map .name

theorem SpelledAlike.refl (path : Path) : SpelledAlike path path :=
  ⟨path.components, [], [], by simp, by simp⟩

theorem SpelledAlike.start_eq {first second : Path} (alike : SpelledAlike first second)
    (memory : Memory) : memory.start first = memory.start second := by
  obtain ⟨common, names, others, firstSpelled, secondSpelled⟩ := alike
  have same : first.isAbsolute = second.isAbsolute := by
    rw [Bool.eq_iff_iff, ← Path.top_mem_components, ← Path.top_mem_components, firstSpelled,
      secondSpelled]
    simp
  simp [Memory.start, same]

theorem SpelledAlike.components_eq {first second : Path} (alike : SpelledAlike first second)
    {memory : Memory} {names others : List String}
    (same : memory.place first ++ names = memory.place second ++ others) :
    first.components ++ names.map .name = second.components ++ others.map .name := by
  have start := alike.start_eq memory
  obtain ⟨common, firstNames, secondNames, firstSpelled, secondSpelled⟩ := alike
  rw [Memory.place_eq, Memory.place_eq, firstSpelled, secondSpelled, goal_append, goal_append,
    goal_names, goal_names, start, List.append_assoc, List.append_assoc] at same
  rw [firstSpelled, secondSpelled, List.append_assoc, List.append_assoc, ← List.map_append,
    ← List.map_append, List.append_cancel_left same]

def Apart (memory : Memory) (first second : Path) : Prop :=
  ¬memory.place first <+: memory.place second ∧ ¬memory.place second <+: memory.place first

theorem Apart.ne {memory : Memory} {first second : Path} (apart : Apart memory first second)
    (names others : List String) :
    memory.place first ++ names ≠ memory.place second ++ others := by
  intro same
  have one : memory.place first <+: memory.place second ++ others :=
    same ▸ List.prefix_append _ _
  rcases List.prefix_or_prefix_of_prefix one (List.prefix_append _ _) with inside | inside
  · exact apart.1 inside
  · exact apart.2 inside

/-- No output of a job that is safe is where the input of a job is. -/
theorem place_output_ne {memory : Memory} (tree : memory.IsTree) {recursive : Bool}
    {input output : Path} (told : SpelledAlike input output ∨ Apart memory input output)
    {job other : Job} (named : other.output.Names)
    (isJob : job ∈ jobsIn memory recursive input output)
    (safe : other ∈ safeJobs (jobsIn memory recursive input output)) :
    memory.place other.output ≠ memory.place job.input := by
  obtain ⟨isOther, guarded⟩ := List.mem_filter.1 safe
  obtain ⟨names, member, direction, directed, rfl⟩ := mem_jobsFor.1 isJob
  obtain ⟨otherNames, otherMember, otherDirection, otherDirected, rfl⟩ := mem_jobsFor.1 isOther
  have holds := holds_of_mem_filesIn tree member
  have otherHolds := holds_of_mem_filesIn tree otherMember
  obtain ⟨others, there, spelled⟩ :=
    exists_place_output otherHolds.filled otherHolds.valid otherDirected named memory
  have here : memory.place (jobFor input output names direction).input =
      memory.place input ++ names := place_join_names holds.filled holds.valid memory input
  intro same
  rw [here, there] at same
  rcases told with alike | apart
  -- Spelled alike, two paths to one place are spelled the same, and then the job is not safe.
  · have sameSpelling := alike.components_eq same.symm
    have inputSpelled : (jobFor input output names direction).input.components =
        input.components ++ names.map .name :=
      Path.components_join_names input holds.filled holds.valid
    simp only [Bool.not_eq_true', List.any_eq_false, Path.same, decide_eq_true_eq] at guarded
    exact guarded _ isJob (by rw [inputSpelled, spelled, sameSpelling])
  · exact apart.ne names others same.symm

/-- A run over a folder leaves its inputs as they are, whichever turns its jobs take, if the output
folder is spelled like the input folder or neither is in the other. -/
theorem inputs_unchanged {memory : Memory} (tree : memory.IsTree) (settings : Settings)
    (recursive : Bool) {input : Path} {output? : Option Path}
    (told : SpelledAlike input (output?.getD input) ∨ Apart memory input (output?.getD input)) :
    ∀ job ∈ jobsIn memory recursive input (output?.getD input),
      ((convertFolder settings recursive input output? : StateM Memory _) memory).2.at? job.input =
          memory.at? job.input ∧
        ∀ schedule : List Job,
          (∀ other ∈ schedule,
            other ∈ safeJobs (jobsIn memory recursive input (output?.getD input))) →
          ((Progress.start memory).perform settings schedule).memory.at? job.input =
            memory.at? job.input := by
  intro job isJob
  have unchanged : ∀ schedule : List Job,
      (∀ other ∈ schedule,
        other ∈ safeJobs (jobsIn memory recursive input (output?.getD input))) →
      ((Progress.start memory).perform settings schedule).memory.at? job.input =
        memory.at? job.input := by
    intro schedule safe
    have began : (Progress.start memory).memory.IsTree := tree
    have keeps := Progress.perform_keeps began settings schedule
    have elsewhere : ∀ other ∈ schedule, other.output.Names →
        memory.place other.output ≠ memory.place job.input := fun other member named =>
      place_output_ne tree told named isJob (safe other member)
    obtain ⟨names, member, direction, directed, rfl⟩ := mem_jobsFor.1 isJob
    have holds := holds_of_mem_filesIn tree member
    obtain ⟨bytes, found⟩ := holds.found
    have here : memory.place (jobFor input (output?.getD input) names direction).input =
        memory.place input ++ names := place_join_names holds.filled holds.valid memory input
    rw [here] at elsewhere
    have kept := keeps.files _ bytes found elsewhere
    change Memory.at? (input.join (.ofNames names)) _ = Memory.at? (input.join (.ofNames names)) _
    rw [holds.at?_join tree keeps.folder keeps.folders,
      holds.at?_join tree rfl fun _ there => there, kept, found]
  refine ⟨?_, unchanged⟩
  rw [convertFolder_eq tree]
  apply unchanged
  intro other member
  exact Progress.mem_inOrder.1 member

def pair : Memory where
  items := [([], .folder), (["docs"], .folder), (["docs", "a.md"], .file "x\n".toUTF8),
    (["docs", "a.json"], .file "\x7b\"document\":\x7b\"type\":\"doc\"\x7d\x7d".toUTF8)]
  folder := []

/-- With the same folder for the output neither file is converted. -/
theorem inputs_unchanged_pair :
    pair.IsTree ∧ (jobsIn pair true ⟨"./docs/"⟩ ⟨"./docs/"⟩).length = 2 ∧
      ∀ job ∈ jobsIn pair true ⟨"./docs/"⟩ ⟨"./docs/"⟩,
        ((convertFolder ⟨true, false, true, false⟩ true ⟨"./docs/"⟩ none : StateM Memory _)
          pair).2.at? job.input = pair.at? job.input := by
  have tree : pair.IsTree := by decide +kernel
  refine ⟨tree, by decide +kernel, ?_⟩
  intro job isJob
  have kept := @inputs_unchanged pair tree ⟨true, false, true, false⟩ true ⟨"./docs/"⟩ none
    (.inl (.refl _)) job isJob
  exact kept.1

set_option maxRecDepth 100000 in
/-- With a second spelling of the folder both files are written over. -/
theorem inputs_overwritten :
    ∃ job ∈ jobsIn pair false ⟨"docs"⟩ ⟨"./docs"⟩,
      ((convertFolder ⟨true, false, true, false⟩ false ⟨"docs"⟩ (some ⟨"./docs"⟩) : StateM Memory _)
        pair).2.at? job.input ≠ pair.at? job.input := by
  refine ⟨⟨⟨"docs/a.md"⟩, ⟨"./docs/a.json"⟩, .toJson⟩, by decide +kernel, ?_⟩
  intro same
  have before : (pair.readText ⟨"docs/a.md"⟩).toOption = some "x\n" := by decide +kernel
  have after : (((convertFolder ⟨true, false, true, false⟩ false ⟨"docs"⟩ (some ⟨"./docs"⟩) :
      StateM Memory _) pair).2.readText ⟨"docs/a.md"⟩).toOption = some "" := by decide +kernel
  rw [Memory.toOption_readText] at before after
  rw [same] at after
  have equal : some "x\n" = some "" := before.symm.trans after
  exact absurd equal (by decide)

end EditorMarkdown.Command
