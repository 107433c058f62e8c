import Mathlib.Data.List.Induction
import EditorMarkdown.Proofs.Command.Folder

/-!
Jobs that do not get in each other's way. Such a job finds in a memory that it shares what it would
find alone, so that the jobs end with the same memory whichever turns they take.
-/

namespace EditorMarkdown.Command

open EditorMarkdown.Command.Path (IsName innerComponent? renamed)

/-! What a step depends on. -/

def Stage.isDone : Stage → Bool
  | .done _ => true
  | _ => false

theorem Stage.next_of_isDone (settings : Settings) (job : Job) (memory : Memory) {stage : Stage}
    (done : stage.isDone) : stage.next settings job memory = (memory, stage) := by
  cases stage with
  | done result => rfl
  | waiting | converted | placed => cases done

theorem Stage.next_converted {memory : Memory} (tree : memory.IsTree) (settings : Settings)
    (job : Job) (text : String) :
    (Stage.converted text).next settings job memory =
      ((memory.makeFolder job.parent).2,
        match memory.obstacle? job.parent with
        | some error => .done (.error (.noFolder job.parent error))
        | none => .placed text) := by
  have told := (tree.makeFolder_spec job.parent).1
  rcases made : memory.makeFolder job.parent with ⟨result, after⟩
  rw [made] at told
  cases found : memory.obstacle? job.parent with
  | none =>
      rw [found] at told
      cases told
      simp [Stage.next, made]
  | some error =>
      rw [found] at told
      cases told
      simp [Stage.next, made]

theorem Stage.folders_of_placed {memory : Memory} (tree : memory.IsTree) {settings : Settings}
    {job : Job} {stage : Stage} {text : String}
    (placed : (stage.next settings job memory).2 = .placed text) :
    ∀ position ∈ memory.way job.parent,
      (stage.next settings job memory).1.item? position = some .folder := by
  cases stage with
  | waiting =>
      simp only [Stage.next] at placed
      split at placed
      · cases placed
      · split at placed <;> cases placed
  | converted =>
      intro position onTheWay
      rw [next_converted tree] at placed ⊢
      cases found : memory.obstacle? job.parent with
      | some error => simp [found] at placed
      | none => exact tree.folder_of_mem_way found onTheWay
  | placed =>
      simp only [Stage.next] at placed
      split at placed <;> cases placed
  | done result => cases placed

theorem Stage.next_ne_waiting (settings : Settings) (job : Job) (memory : Memory) (stage : Stage) :
    (stage.next settings job memory).2 ≠ .waiting := by
  cases stage <;> simp only [Stage.next] <;> repeat (first | split | simp)

theorem Stage.memory_next_waiting (settings : Settings) (job : Job) (memory : Memory) :
    (Stage.waiting.next settings job memory).1 = memory := by
  simp only [Stage.next]
  split
  · rfl
  · split <;> rfl

/-- What a job looks at in its next step is the same in two memories. -/
def Stage.SeesSame (job : Job) (first second : Memory) : Stage → Prop
  | .waiting => first.readText job.input = second.readText job.input
  | .converted _ =>
      ∀ position ∈ first.way job.parent, first.hasFile position = second.hasFile position
  | .placed _ =>
      ∃ position, first.locate job.output = .ok position ∧
        second.locate job.output = .ok position ∧
        first.item? position = second.item? position
  | .done _ => True

/-- Two stages of a job are the same, but for how it may be told that its folder was not made. -/
structure Stage.Alike (job : Job) (first second : Stage) : Prop where
  settled : first.settled = second.settled
  same : job.parent.climbs = false → first = second

namespace Stage.Alike

variable {job : Job} {first second third : Stage}

theorem refl (job : Job) (stage : Stage) : stage.Alike job stage := ⟨rfl, fun _ => rfl⟩

theorem symm (alike : first.Alike job second) : second.Alike job first :=
  ⟨alike.settled.symm, fun straight => (alike.same straight).symm⟩

theorem trans (alike : first.Alike job second) (further : second.Alike job third) :
    first.Alike job third :=
  ⟨alike.settled.trans further.settled,
    fun straight => (alike.same straight).trans (further.same straight)⟩

theorem eq_or_isDone (alike : first.Alike job second) :
    first = second ∨ first.isDone ∧ second.isDone := by
  have settled := alike.settled
  rcases first with _ | _ | _ | ⟨_ | _⟩ <;> rcases second with _ | _ | _ | ⟨_ | _⟩ <;>
    simp_all [Stage.settled, Stage.isDone]

theorem isDone (alike : first.Alike job second) (done : first.isDone) : second.isDone := by
  rcases alike.eq_or_isDone with rfl | ⟨-, other⟩
  · exact done
  · exact other

theorem next (alike : first.Alike job second) (settings : Settings) (memory : Memory) :
    (first.next settings job memory).1 = (second.next settings job memory).1 ∧
      (first.next settings job memory).2.Alike job (second.next settings job memory).2 := by
  rcases alike.eq_or_isDone with rfl | ⟨done, otherDone⟩
  · exact ⟨rfl, refl job _⟩
  · rw [next_of_isDone settings job memory done, next_of_isDone settings job memory otherDone]
    exact ⟨rfl, alike⟩

end Stage.Alike

theorem Stage.alike_of_obstacle? {first second : Memory} (firstTree : first.IsTree)
    (secondTree : second.IsTree) (folder : first.folder = second.folder) {job : Job}
    (sees : ∀ position ∈ first.way job.parent, first.hasFile position = second.hasFile position)
    (text : String) :
    Alike job
      (match first.obstacle? job.parent with
        | some error => .done (.error (.noFolder job.parent error))
        | none => .placed text)
      (match second.obstacle? job.parent with
        | some error => .done (.error (.noFolder job.parent error))
        | none => .placed text) := by
  -- either both memories stop the path or neither does
  have stops : first.obstacle? job.parent = none ↔ second.obstacle? job.parent = none := by
    rw [firstTree.obstacle?_eq_none_iff, secondTree.obstacle?_eq_none_iff,
      ← Memory.way_of_folder folder]
    exact forall₂_congr fun position onTheWay => by rw [sees position onTheWay]
  refine ⟨?_, fun straight => ?_⟩
  · cases climbs : job.parent.climbs with
    | true =>
        cases found : first.obstacle? job.parent <;>
          cases otherFound : second.obstacle? job.parent <;>
          simp_all [Stage.settled, Failure.settled]
    | false => rw [Memory.obstacle?_congr firstTree secondTree folder climbs sees]
  · rw [Memory.obstacle?_congr firstTree secondTree folder straight sees]

/-- Two steps that see the same end alike, and leave the same wherever they change something. -/
theorem Stage.next_congr {first second : Memory} (firstTree : first.IsTree)
    (secondTree : second.IsTree) (folder : first.folder = second.folder) {settings : Settings}
    {job : Job} {stage : Stage} (sees : stage.SeesSame job first second) :
    (stage.next settings job first).2.Alike job (stage.next settings job second).2 ∧
      ∀ position,
        (stage.next settings job first).1.item? position =
            (stage.next settings job second).1.item? position ∨
          (stage.next settings job first).1.item? position = first.item? position ∧
            (stage.next settings job second).1.item? position = second.item? position := by
  cases stage with
  | waiting =>
      have read : first.readText job.input = second.readText job.input := sees
      refine ⟨?_, fun _ => .inr ?_⟩
      · have same : (Stage.waiting.next settings job first).2 =
            (Stage.waiting.next settings job second).2 := by
          simp only [Stage.next, read]
          split
          · rfl
          · split <;> rfl
        rw [same]
        exact .refl job _
      · rw [memory_next_waiting, memory_next_waiting]
        exact ⟨rfl, rfl⟩
  | converted text =>
      have makes := (firstTree.makeFolder_spec job.parent).2.2
      have otherMakes := (secondTree.makeFolder_spec job.parent).2.2
      rw [← Memory.openWay_congr folder sees] at otherMakes
      rw [next_converted firstTree, next_converted secondTree]
      refine ⟨?_, fun position => ?_⟩
      · exact alike_of_obstacle? firstTree secondTree folder sees text
      · simp only [makes.item?, otherMakes.item?]
        by_cases opened : position ∈ first.openWay job.parent
        · simp [opened]
        · simp [opened]
  | placed text =>
      obtain ⟨position, located, otherLocated, same⟩ := sees
      have taken : first.hasFolder position = second.hasFolder position := by
        rw [Memory.hasFolder, same, Memory.hasFolder]
      simp only [Stage.next, Memory.writeText_of_locate located,
        Memory.writeText_of_locate otherLocated, taken]
      cases second.hasFolder position with
      | true => exact ⟨.refl job _, fun _ => .inr ⟨rfl, rfl⟩⟩
      | false =>
          refine ⟨.refl job _, fun other => ?_⟩
          simp only [Bool.false_eq_true, if_false, Memory.item?_put]
          by_cases here : other = position
          · simp [here]
          · simp [here]
  | done result => exact ⟨.refl job _, fun _ => .inr ⟨rfl, rfl⟩⟩

/-! A job alone. -/

namespace Job

def alone (settings : Settings) (job : Job) (memory : Memory) : Nat → Memory × Stage
  | 0 => (memory, .waiting)
  | steps + 1 =>
      let before := job.alone settings memory steps
      before.2.next settings job before.1

theorem alone_add_of_isDone {settings : Settings} {job : Job} {memory : Memory} {steps : Nat}
    (done : (job.alone settings memory steps).2.isDone) (more : Nat) :
    job.alone settings memory (steps + more) = job.alone settings memory steps := by
  induction more with
  | zero => rfl
  | succ more induction =>
      rw [← Nat.add_assoc, alone, induction]
      exact Stage.next_of_isDone settings job _ done

theorem alone_eq_of_isDone {settings : Settings} {job : Job} {memory : Memory} {first second : Nat}
    (firstDone : (job.alone settings memory first).2.isDone)
    (secondDone : (job.alone settings memory second).2.isDone) :
    job.alone settings memory first = job.alone settings memory second := by
  rcases Nat.le_total first second with fewer | fewer
  · obtain ⟨more, rfl⟩ := Nat.exists_eq_add_of_le fewer
    exact (alone_add_of_isDone firstDone more).symm
  · obtain ⟨more, rfl⟩ := Nat.exists_eq_add_of_le fewer
    exact alone_add_of_isDone secondDone more

/-- What a job has done alone with the steps that a schedule gives it. -/
def given (settings : Settings) (memory : Memory) (schedule : List Job) (job : Job) :
    Memory × Stage :=
  job.alone settings memory (schedule.count job)

variable {settings : Settings} {memory : Memory} {schedule : List Job} {job : Job}

theorem given_concat_self (settings : Settings) (memory : Memory) (schedule : List Job)
    (job : Job) :
    job.given settings memory (schedule ++ [job]) =
      (job.given settings memory schedule).2.next settings job
        (job.given settings memory schedule).1 := by
  rw [given, List.count_append, List.count_singleton_self, alone, given]

theorem given_concat_of_ne {other : Job} (different : other ≠ job) :
    other.given settings memory (schedule ++ [job]) = other.given settings memory schedule := by
  rw [given, List.count_append, List.count_singleton, if_neg (by simpa using Ne.symm different),
    Nat.add_zero, given]

theorem eq_of_waiting (waiting : (job.given settings memory schedule).2 = .waiting) :
    (job.given settings memory schedule).1 = memory := by
  unfold given at waiting ⊢
  cases steps : schedule.count job with
  | zero => rfl
  | succ more =>
      rw [steps] at waiting
      exact absurd waiting (Stage.next_ne_waiting _ _ _ _)

variable (tree : memory.IsTree)

include tree

theorem changes_alone (steps : Nat) : Changes job memory (job.alone settings memory steps).1 := by
  induction steps with
  | zero => exact .refl tree job
  | succ steps induction => exact induction.trans (changes_next induction.tree _ _ _)

variable (settings schedule job) in
theorem changes_given : Changes job memory (job.given settings memory schedule).1 :=
  changes_alone tree _

theorem folders_of_placed {text : String}
    (placed : (job.given settings memory schedule).2 = .placed text) :
    ∀ position ∈ memory.way job.parent,
      (job.given settings memory schedule).1.item? position = some .folder := by
  unfold given at placed ⊢
  cases steps : schedule.count job with
  | zero =>
      rw [steps] at placed
      cases placed
  | succ more =>
      rw [steps] at placed
      have changes := @changes_alone settings memory job tree more
      rw [← Memory.way_of_folder changes.folder]
      exact Stage.folders_of_placed changes.tree placed

end Job

/-! Jobs for files. -/

/-- A job that reads a file in a folder, and whose output ends in something that leads on. -/
structure Job.Proper (memory : Memory) (job : Job) : Prop where
  input : ∃ folder names, Holds memory folder names ∧ job.input = folder.join (.ofNames names)
  output : ∃ before piece component, job.output.pieces = before ++ [piece] ∧
    innerComponent? piece = some component

theorem proper_of_mem_jobsIn {memory : Memory} (tree : memory.IsTree) {recursive : Bool}
    {input output : Path} {job : Job} (member : job ∈ jobsIn memory recursive input output) :
    job.Proper memory := by
  obtain ⟨names, isFile, direction, directed, rfl⟩ := mem_jobsFor.1 member
  have holds := holds_of_mem_filesIn tree isFile
  obtain ⟨outer, last, stem, old, rfl, split, shape, -⟩ :=
    @exists_output input output _ _ holds.filled holds.valid directed
  refine ⟨⟨input, _, holds, rfl⟩, output.leading ++ outer.map String.toList,
    renamed stem direction.extension, ?_⟩
  obtain ⟨whole, -, filled⟩ := Path.exists_of_splitName? split
  by_cases up : stem = ['.']
  · subst up
    exact ⟨.up, shape, rfl⟩
  · have solid : '/' ∉ stem := by
      intro inside
      refine (holds.valid last (by simp)).solid ?_
      rw [whole]
      exact List.mem_append_left _ inside
    have isName : IsName (renamed stem direction.extension) :=
      Path.isName_renamed solid filled up direction.extension_solid
        (by cases direction <;> decide)
    exact ⟨_, shape, isName.innerComponent?⟩

theorem Job.way_parent {job : Job} {before : List (List Char)} {piece : List Char}
    {component : Component} (shape : job.output.pieces = before ++ [piece])
    (stands : innerComponent? piece = some component) (memory : Memory) :
    memory.way job.parent = trail (memory.start job.output) (inner before) := by
  obtain ⟨parent, found, isParent⟩ := Path.exists_parent shape stands
  have isIt : job.parent = parent := by simp [Job.parent, found]
  have pieces : inner parent.pieces = inner before := isParent.components
  rw [isIt, Memory.way, pieces]
  congr 1
  cases before with
  | nil =>
      have below : job.output.isAbsolute = false := by
        apply eq_false_of_ne_true
        intro absolute
        obtain ⟨_, _, same⟩ := (Path.isAbsolute_iff _).1 absolute
        simp [shape] at same
      have nowhere : parent.isAbsolute = false := by
        simp [Path.isAbsolute, isParent.nowhere rfl]
      simp [Memory.start, below, nowhere]
  | cons first rest => simp [Memory.start, isParent.absolute (by simp)]

namespace Job.Proper

variable {memory : Memory} {job : Job} (proper : job.Proper memory)

include proper

theorem locate_output {after : Memory} (same : after.folder = memory.folder)
    (folders : ∀ position ∈ memory.way job.parent, after.item? position = some .folder) :
    after.locate job.output = .ok (memory.place job.output) := by
  obtain ⟨before, piece, component, shape, stands⟩ := proper.output
  have filled : piece ≠ [] := by
    rintro rfl
    simp [innerComponent?] at stands
  rw [← Memory.way_of_folder same, Job.way_parent shape stands] at folders
  rw [Memory.locate_of_folders shape filled folders, Memory.place_of_folder same]

theorem readText_input (tree : memory.IsTree) {after : Memory}
    (same : after.folder = memory.folder)
    (folders : ∀ position, memory.item? position = some .folder →
      after.item? position = some .folder)
    (kept : after.item? (memory.place job.input) = memory.item? (memory.place job.input)) :
    after.readText job.input = memory.readText job.input := by
  obtain ⟨folder, names, holds, isIt⟩ := proper.input
  rw [isIt, place_join_names holds.filled holds.valid] at kept
  rw [isIt, Memory.readText, Memory.readText, holds.locate_join tree same folders,
    holds.locate_join tree rfl fun _ there => there]
  simp only [kept]

theorem exists_input : ∃ bytes, memory.item? (memory.place job.input) = some (.file bytes) := by
  obtain ⟨folder, names, holds, isIt⟩ := proper.input
  rw [isIt, place_join_names holds.filled holds.valid]
  exact holds.found

end Job.Proper

/-! Jobs side by side. -/

/-- A job does not write where another one reads, writes or makes folders. -/
def Clear (memory : Memory) (job other : Job) : Prop :=
  memory.hasFolder (memory.place job.output) = false →
    memory.place job.output ≠ memory.place other.input ∧
      memory.place job.output ≠ memory.place other.output ∧
      memory.place job.output ∉ memory.way other.parent

instance (memory : Memory) (job other : Job) : Decidable (Clear memory job other) :=
  inferInstanceAs (Decidable (_ → _))

structure Independent (memory : Memory) (jobs : List Job) : Prop where
  tree : memory.IsTree
  proper : ∀ job ∈ jobs, job.Proper memory
  clear : ∀ job ∈ jobs, ∀ other ∈ jobs, job ≠ other → Clear memory job other

theorem Independent.apart {memory : Memory} {jobs : List Job}
    (independent : Independent memory jobs) {job other : Job} (member : job ∈ jobs)
    (isOther : other ∈ jobs) (different : job ≠ other)
    (free : memory.item? (memory.place job.output) ≠ some .folder) :
    memory.place job.output ≠ memory.place other.input ∧
      memory.place job.output ≠ memory.place other.output ∧
      memory.place job.output ∉ memory.way other.parent := by
  apply independent.clear job member other isOther different
  rw [← Bool.not_eq_true, Memory.hasFolder_iff]
  exact free

/-- After the steps of a schedule, each job has come as far as it would alone, and the memory
differs from what it was where one of the jobs alone would have changed it. -/
structure Tracks (settings : Settings) (memory : Memory) (jobs schedule : List Job)
    (progress : Progress) : Prop where
  stage : ∀ job ∈ jobs, (progress.stage job).Alike job (job.given settings memory schedule).2
  changed : ∀ job ∈ jobs, ∀ position,
    (job.given settings memory schedule).1.item? position ≠ memory.item? position →
    progress.memory.item? position = (job.given settings memory schedule).1.item? position
  same : ∀ position,
    (∀ job ∈ jobs,
      (job.given settings memory schedule).1.item? position = memory.item? position) →
    progress.memory.item? position = memory.item? position

namespace Tracks

variable {settings : Settings} {memory : Memory} {jobs schedule : List Job} {progress : Progress}
  {job : Job} (tracks : Tracks settings memory jobs schedule progress) (member : job ∈ jobs)

include tracks member

/-- Where no other job has changed anything, a job finds what it would find alone. -/
theorem item?_eq {position : Position}
    (others : ∀ other ∈ jobs, other ≠ job →
      (other.given settings memory schedule).1.item? position = memory.item? position) :
    progress.memory.item? position = (job.given settings memory schedule).1.item? position := by
  by_cases same : (job.given settings memory schedule).1.item? position = memory.item? position
  · rw [same]
    apply tracks.same position
    intro other isOther
    by_cases isIt : other = job
    · rwa [isIt]
    · exact others other isOther isIt
  · exact tracks.changed job member position same

theorem item?_of_folder (keeps : Keeps jobs memory progress.memory) {position : Position}
    (folder : (job.given settings memory schedule).1.item? position = some .folder) :
    progress.memory.item? position = some .folder := by
  by_cases mine : (job.given settings memory schedule).1.item? position = memory.item? position
  · exact keeps.folders position (mine ▸ folder)
  · rw [tracks.changed job member position mine, folder]

variable (independent : Independent memory jobs)

include independent

theorem hasFile_eq {position : Position} (onTheWay : position ∈ memory.way job.parent) :
    (job.given settings memory schedule).1.hasFile position =
      progress.memory.hasFile position := by
  by_cases mine : (job.given settings memory schedule).1.item? position = memory.item? position
  · by_cases others : ∀ other ∈ jobs, other ≠ job →
        (other.given settings memory schedule).1.item? position = memory.item? position
    · rw [Memory.hasFile, ← tracks.item?_eq member others, Memory.hasFile]
    · simp only [Classical.not_forall] at others
      obtain ⟨other, isOther, different, changed⟩ := others
      have theirs := tracks.changed other isOther position changed
      have changes := Job.changes_given settings schedule other independent.tree
      -- What another job has changed on the way is a folder, since it writes elsewhere.
      rcases changes.item? position with same | ⟨nothing, made, -⟩ | ⟨here, -, free, -⟩
      · exact absurd same changed
      · simp [Memory.hasFile, mine, nothing, theirs, made]
      · rw [here] at free onTheWay
        exact absurd onTheWay (independent.apart isOther member different free).2.2
  · rw [Memory.hasFile, Memory.hasFile, tracks.changed job member position mine]

variable (keeps : Keeps jobs memory progress.memory)

include keeps

theorem readText_input (waiting : (job.given settings memory schedule).2 = .waiting) :
    progress.memory.readText job.input = memory.readText job.input := by
  have proper := independent.proper job member
  obtain ⟨bytes, found⟩ := proper.exists_input
  apply proper.readText_input independent.tree keeps.folder keeps.folders
  rw [tracks.item?_eq member, Job.eq_of_waiting waiting]
  intro other isOther different
  have changes := Job.changes_given settings schedule other independent.tree
  rcases changes.item? (memory.place job.input) with same | ⟨nothing, -⟩ | ⟨here, -, free, -⟩
  · exact same
  · simp [found] at nothing
  · rw [here] at free
    exact absurd here.symm (independent.apart isOther member different free).1

theorem item?_output :
    (job.given settings memory schedule).1.item? (memory.place job.output) =
      progress.memory.item? (memory.place job.output) := by
  by_cases taken : memory.item? (memory.place job.output) = some .folder
  · have own := Job.changes_given settings schedule job independent.tree
    rw [own.folders taken, keeps.folders _ taken]
  · symm
    apply tracks.item?_eq member
    intro other isOther different
    have apart := independent.apart member isOther (Ne.symm different) taken
    have changes := Job.changes_given settings schedule other independent.tree
    rcases changes.item? (memory.place job.output) with same | ⟨-, -, onTheWay⟩ | ⟨here, -⟩
    · exact same
    · exact absurd onTheWay apart.2.2
    · exact absurd here apart.2.1

theorem seesSame :
    (job.given settings memory schedule).2.SeesSame job (job.given settings memory schedule).1
      progress.memory := by
  have proper := independent.proper job member
  have own := Job.changes_given settings schedule job independent.tree
  cases reached : (job.given settings memory schedule).2 with
  | waiting =>
      rw [Job.eq_of_waiting reached]
      exact (tracks.readText_input member independent keeps reached).symm
  | converted text =>
      intro position onTheWay
      rw [Memory.way_of_folder own.folder] at onTheWay
      exact tracks.hasFile_eq member independent onTheWay
  | placed text =>
      have folders := Job.folders_of_placed independent.tree reached
      have shared : ∀ position ∈ memory.way job.parent,
          progress.memory.item? position = some .folder := fun position onTheWay =>
        tracks.item?_of_folder member keeps (folders position onTheWay)
      exact ⟨memory.place job.output, proper.locate_output own.folder folders,
        proper.locate_output keeps.folder shared,
        tracks.item?_output member independent keeps⟩
  | done result => trivial

theorem item?_next_of_changed {other : Job} (isOther : other ∈ jobs) (different : other ≠ job)
    {position : Position}
    (changed : (other.given settings memory schedule).1.item? position ≠ memory.item? position)
    (stage : Stage) :
    (stage.next settings job progress.memory).1.item? position =
      (other.given settings memory schedule).1.item? position := by
  have found := tracks.changed other isOther position changed
  have theirs := Job.changes_given settings schedule other independent.tree
  rcases (changes_next keeps.tree settings job stage).item? position with
    same | ⟨nothing, -⟩ | ⟨here, -, free, -⟩
  · rw [same, found]
  · rw [found] at nothing
    rcases theirs.item? position with unmoved | ⟨-, made, -⟩ | ⟨-, -, -, _, written⟩
    · exact absurd unmoved changed
    · simp [nothing] at made
    · simp [nothing] at written
  · rw [Memory.place_of_folder keeps.folder] at here
    have before : memory.item? (memory.place job.output) ≠ some .folder := fun taken =>
      free (keeps.folders position (here ▸ taken))
    have apart := independent.apart member isOther (Ne.symm different) before
    rw [here] at changed
    rcases theirs.item? (memory.place job.output) with unmoved | ⟨-, -, onTheWay⟩ | ⟨there, -⟩
    · exact absurd unmoved changed
    · exact absurd onTheWay apart.2.2
    · exact absurd there apart.2.1

theorem advance :
    Tracks settings memory jobs (schedule ++ [job]) (progress.advance settings job) := by
  have own := Job.changes_given settings schedule job independent.tree
  have further := Job.given_concat_self settings memory schedule job
  obtain ⟨moved, reached⟩ := (tracks.stage job member).next settings progress.memory
  -- The step sees the same here and alone, so where it changes anything it leaves the same.
  have sees := tracks.seesSame member independent keeps
  obtain ⟨stage, items⟩ := @Stage.next_congr _ _ own.tree keeps.tree
    (own.folder.trans keeps.folder.symm) settings _ _ sees
  rw [← further] at stage items
  refine ⟨?_, ?_, ?_⟩
  · intro other isOther
    by_cases isIt : other = job
    · rw [isIt, Progress.advance, Progress.stage_set_self]
      exact reached.trans stage.symm
    · rw [Progress.advance, Progress.stage_set_of_ne isIt, Job.given_concat_of_ne isIt]
      exact tracks.stage other isOther
  · intro other isOther position changed
    rw [Progress.advance, Progress.memory_set, moved]
    by_cases isIt : other = job
    · rw [isIt] at changed ⊢
      rcases items position with same | ⟨mine, shared⟩
      · exact same.symm
      · rw [mine] at changed ⊢
        rw [shared, tracks.changed job member position changed]
    · rw [Job.given_concat_of_ne isIt] at changed ⊢
      exact tracks.item?_next_of_changed member independent keeps isOther isIt changed _
  · intro position unchanged
    rw [Progress.advance, Progress.memory_set, moved]
    have mine := unchanged job member
    rcases items position with same | ⟨unmoved, shared⟩
    · rw [← same, mine]
    · rw [shared]
      apply tracks.same
      intro other isOther
      by_cases isIt : other = job
      · rw [isIt, ← unmoved, mine]
      · rw [← Job.given_concat_of_ne isIt]
        exact unchanged other isOther

end Tracks

theorem Keeps.mono {few many : List Job} {before after : Memory} (keeps : Keeps few before after)
    (fewer : ∀ job ∈ few, job ∈ many) : Keeps many before after := by
  refine ⟨keeps.tree, keeps.folder, keeps.folders, ?_⟩
  intro position bytes found elsewhere
  exact keeps.files position bytes found fun job member => elsewhere job (fewer job member)

namespace Independent

variable {settings : Settings} {memory : Memory} {jobs : List Job}
  (independent : Independent memory jobs)

include independent

theorem tracks {schedule : List Job} (only : ∀ job ∈ schedule, job ∈ jobs) :
    Tracks settings memory jobs schedule
      ((Progress.start memory).perform settings schedule) := by
  induction schedule using List.reverseRecOn with
  | nil => exact ⟨fun job _ => .refl job _, fun _ _ _ changed => absurd rfl changed, fun _ _ => rfl⟩
  | append_singleton schedule job induction =>
      have earlier : ∀ other ∈ schedule, other ∈ jobs := fun other member =>
        only other (List.mem_append_left _ member)
      have keeps : Keeps jobs memory ((Progress.start memory).perform settings schedule).memory :=
        Keeps.mono (@Progress.perform_keeps (.start memory) independent.tree settings schedule)
          earlier
      rw [Progress.perform_append]
      exact (induction earlier).advance (only job (by simp)) independent keeps

/-- However jobs that do not get in each other's way take turns, they end alike. -/
theorem perform_agree {first second : List Job} (firstOnly : ∀ job ∈ first, job ∈ jobs)
    (secondOnly : ∀ job ∈ second, job ∈ jobs)
    (firstDone : ∀ job ∈ jobs,
      (((Progress.start memory).perform settings first).stage job).isDone)
    (secondDone : ∀ job ∈ jobs,
      (((Progress.start memory).perform settings second).stage job).isDone) :
    (∀ position, ((Progress.start memory).perform settings first).memory.item? position =
        ((Progress.start memory).perform settings second).memory.item? position) ∧
      ∀ job ∈ jobs, (((Progress.start memory).perform settings first).stage job).Alike job
        (((Progress.start memory).perform settings second).stage job) := by
  have firstTracks := @tracks settings memory jobs independent first firstOnly
  have secondTracks := @tracks settings memory jobs independent second secondOnly
  have same : ∀ job ∈ jobs,
      job.given settings memory first = job.given settings memory second := by
    intro job member
    have one := (firstTracks.stage job member).isDone (firstDone job member)
    have other := (secondTracks.stage job member).isDone (secondDone job member)
    exact Job.alone_eq_of_isDone one other
  refine ⟨?_, ?_⟩
  · intro position
    by_cases unchanged : ∀ job ∈ jobs,
        (job.given settings memory first).1.item? position = memory.item? position
    · rw [firstTracks.same position unchanged, secondTracks.same position]
      intro job member
      rw [← same job member]
      exact unchanged job member
    · simp only [Classical.not_forall] at unchanged
      obtain ⟨job, member, changed⟩ := unchanged
      rw [firstTracks.changed job member position changed, same job member]
      rw [same job member] at changed
      rw [secondTracks.changed job member position changed]
  · intro job member
    have reached := firstTracks.stage job member
    rw [same job member] at reached
    exact reached.trans (secondTracks.stage job member).symm

end Independent

namespace Progress

variable {first second : Progress} {jobs : List Job}

theorem settled_tally_congr
    (alike : ∀ job ∈ jobs, (first.stage job).Alike job (second.stage job)) :
    (first.tally jobs).settled = (second.tally jobs).settled := by
  rw [settled_tally, settled_tally]
  exact tally_congr fun job member => (alike job member).settled

theorem tally_congr_of_straight
    (alike : ∀ job ∈ jobs, (first.stage job).Alike job (second.stage job))
    (straight : ∀ job ∈ jobs, job.parent.climbs = false) :
    first.tally jobs = second.tally jobs :=
  tally_congr fun job member => (alike job member).same (straight job member)

end Progress

end EditorMarkdown.Command
