import Mathlib.Data.List.Basic
import EditorMarkdown.Command.Convert
import EditorMarkdown.Proofs.Command.Memory

/-!
Jobs that are done at the same time. A job reads its input, makes the folder of its output and
writes its output; between these steps other jobs may take theirs. What a run does in the order of
its jobs is one of the ways in which they can take turns.
-/

namespace EditorMarkdown.Command

inductive Stage where
  | waiting
  | converted (text : String)
  | placed (text : String)
  | done (result : Except Failure Unit)

def Job.parent (job : Job) : Path := job.output.parent?.getD ⟨""⟩

/-- What the next step of a job does to the memory, and how far it comes with it. -/
def Stage.next (settings : Settings) (job : Job) (memory : Memory) : Stage → Memory × Stage
  | .waiting =>
      match memory.readText job.input with
      | .error error => (memory, .done (.error (.unread job.input error)))
      | .ok text =>
          match convertText settings job.direction text with
          | .error failure => (memory, .done (.error failure))
          | .ok output => (memory, .converted output)
  | .converted text =>
      match memory.makeFolder job.parent with
      | (.error error, made) => (made, .done (.error (.noFolder job.parent error)))
      | (.ok (), made) => (made, .placed text)
  | .placed text =>
      match memory.writeText job.output text with
      | .error error => (memory, .done (.error (.unwritten job.output error)))
      | .ok written => (written, .done (.ok ()))
  | .done result => (memory, .done result)

/-- A failure, but for how it is told that a path is stopped which leads out of a folder on its way.
On the way `new/../notes/sub`, the file `notes` is only no folder if there is `new`, and is in the
place of a folder if `new` has to be made. So it turns on what other jobs have made. -/
def Failure.settled : Failure → Failure
  | .noFolder path error => .noFolder path (if path.climbs then .taken else error)
  | failure => failure

def Tally.settled (tally : Tally) : Tally :=
  { tally with failed := tally.failed.map fun (input, failure) => (input, failure.settled) }

def Stage.settled : Stage → Stage
  | .done (.error failure) => .done (.error failure.settled)
  | stage => stage

structure Progress where
  memory : Memory
  stage : Job → Stage

namespace Progress

def start (memory : Memory) : Progress := ⟨memory, fun _ => .waiting⟩

def set (job : Job) (outcome : Memory × Stage) (progress : Progress) : Progress where
  memory := outcome.1
  stage other := if other = job then outcome.2 else progress.stage other

@[simp] theorem memory_set (job : Job) (outcome : Memory × Stage) (progress : Progress) :
    (progress.set job outcome).memory = outcome.1 := rfl

@[simp] theorem stage_set_self (job : Job) (outcome : Memory × Stage) (progress : Progress) :
    (progress.set job outcome).stage job = outcome.2 := if_pos rfl

theorem stage_set_of_ne {job other : Job} (different : other ≠ job) (outcome : Memory × Stage)
    (progress : Progress) : (progress.set job outcome).stage other = progress.stage other :=
  if_neg different

@[simp] theorem set_set (job : Job) (first second : Memory × Stage) (progress : Progress) :
    (progress.set job first).set job second = progress.set job second := by
  unfold set
  congr 1
  funext other
  split
  · rfl
  · next different => exact if_neg different

def advance (settings : Settings) (progress : Progress) (job : Job) : Progress :=
  progress.set job ((progress.stage job).next settings job progress.memory)

def perform (settings : Settings) (schedule : List Job) (progress : Progress) : Progress :=
  schedule.foldl (advance settings) progress

def written (progress : Progress) (jobs : List Job) : List Path :=
  jobs.filterMap fun job =>
    match progress.stage job with
    | .done (.ok ()) => some job.output
    | _ => none

def failed (progress : Progress) (jobs : List Job) : List (Path × Failure) :=
  jobs.filterMap fun job =>
    match progress.stage job with
    | .done (.error failure) => some (job.input, failure)
    | _ => none

def tally (progress : Progress) (jobs : List Job) : Tally :=
  ⟨progress.written jobs, progress.failed jobs⟩

theorem perform_append (settings : Settings) (first second : List Job) (progress : Progress) :
    progress.perform settings (first ++ second) =
      (progress.perform settings first).perform settings second :=
  List.foldl_append

def settled (progress : Progress) : Progress :=
  { progress with stage := fun job => (progress.stage job).settled }

theorem settled_tally (progress : Progress) (jobs : List Job) :
    (progress.tally jobs).settled = progress.settled.tally jobs := by
  simp only [Tally.settled, tally, written, failed, settled, List.map_filterMap, Tally.mk.injEq]
  constructor
  · congr 1
    funext job
    rcases progress.stage job with _ | _ | _ | ⟨_ | _⟩ <;> rfl
  · congr 1
    funext job
    rcases progress.stage job with _ | _ | _ | ⟨_ | _⟩ <;> rfl

theorem tally_congr {first second : Progress} {jobs : List Job}
    (same : ∀ job ∈ jobs, first.stage job = second.stage job) :
    first.tally jobs = second.tally jobs := by
  have writtenSame : first.written jobs = second.written jobs :=
    List.filterMap_congr fun job member => by rw [same job member]
  have failedSame : first.failed jobs = second.failed jobs :=
    List.filterMap_congr fun job member => by rw [same job member]
  rw [tally, writtenSame, failedSame, tally]

end Progress

def Job.complete (settings : Settings) (job : Job) (memory : Memory) (stage : Stage) :
    Memory × Stage :=
  let (memory, stage) := stage.next settings job memory
  let (memory, stage) := stage.next settings job memory
  stage.next settings job memory

theorem pure_apply {α : Type} (value : α) (memory : Memory) :
    (pure value : StateM Memory α) memory = (value, memory) := rfl

theorem bind_apply {α β : Type} (first : StateM Memory α) (next : α → StateM Memory β)
    (memory : Memory) : (first >>= next) memory = next (first memory).1 (first memory).2 := rfl

theorem writeOutput_eq (settings : Settings) (job : Job) (text : String) (memory : Memory) :
    ∃ result after,
      (writeOutput job.output text : StateM Memory _) memory = (result, after) ∧
      (let (memory, stage) := (Stage.converted text).next settings job memory
      stage.next settings job memory) = (after, .done result) := by
  unfold writeOutput
  rw [← Job.parent]
  rcases made : memory.makeFolder job.parent with ⟨error | _, folder⟩
  · refine ⟨.error (.noFolder job.parent error), folder, ?_, ?_⟩
    · simp [Disk.makeFolder, made, bind_apply, pure_apply]
    · simp [Stage.next, made]
  · cases wrote : folder.writeText job.output text with
    | error error =>
        refine ⟨.error (.unwritten job.output error), folder, ?_, ?_⟩
        · simp [Disk.makeFolder, Disk.writeText, made, wrote, bind_apply, pure_apply]
        · simp [Stage.next, made, wrote]
    | ok after =>
        refine ⟨.ok (), after, ?_, ?_⟩
        · simp [Disk.makeFolder, Disk.writeText, made, wrote, bind_apply, pure_apply]
        · simp [Stage.next, made, wrote]

/-- A job that nobody interrupts takes its three steps. -/
theorem convertTo_eq (settings : Settings) (job : Job) (memory : Memory) :
    ∃ result after,
      (convertTo settings job.direction job.input job.output : StateM Memory _) memory =
        (result, after) ∧
      job.complete settings memory .waiting = (after, .done result) := by
  cases read : memory.readText job.input with
  | error error =>
      refine ⟨.error (.unread job.input error), memory, ?_, ?_⟩
      · simp [convertTo, Disk.readText, read, bind_apply, pure_apply]
      · simp [Job.complete, Stage.next, read]
  | ok text =>
      cases made : convertText settings job.direction text with
      | error failure =>
          refine ⟨.error failure, memory, ?_, ?_⟩
          · simp [convertTo, Disk.readText, read, made, bind_apply, pure_apply]
          · simp [Job.complete, Stage.next, read, made]
      | ok output =>
          obtain ⟨result, after, ran, stepped⟩ := writeOutput_eq settings job output memory
          refine ⟨result, after, ?_, ?_⟩
          · simpa [convertTo, Disk.readText, read, made, bind_apply] using ran
          · simpa [Job.complete, Stage.next, read, made] using stepped

namespace Progress

theorem perform_alone (settings : Settings) (job : Job) (progress : Progress) :
    progress.perform settings [job, job, job] =
      progress.set job (job.complete settings progress.memory (progress.stage job)) := by
  simp only [perform, List.foldl_cons, List.foldl_nil, advance, stage_set_self, memory_set,
    set_set, Job.complete]

theorem tally_cons_ok {progress : Progress} {job : Job} (done : progress.stage job = .done (.ok ()))
    (rest : List Job) :
    progress.tally (job :: rest) =
      { progress.tally rest with written := job.output :: (progress.tally rest).written } := by
  simp [tally, written, failed, done]

theorem tally_cons_error {progress : Progress} {job : Job} {failure : Failure}
    (done : progress.stage job = .done (.error failure)) (rest : List Job) :
    progress.tally (job :: rest) =
      { progress.tally rest with
        failed := (job.input, failure) :: (progress.tally rest).failed } := by
  simp [tally, written, failed, done]

def inOrder (jobs : List Job) : List Job := jobs.flatMap fun job => [job, job, job]

@[simp] theorem mem_inOrder {job : Job} {jobs : List Job} : job ∈ inOrder jobs ↔ job ∈ jobs := by
  simp [inOrder]

/-- Doing jobs one after the other is a way of taking turns. -/
theorem runJobs_eq (settings : Settings) {jobs : List Job} (distinct : jobs.Nodup)
    {progress : Progress} (waiting : ∀ job ∈ jobs, progress.stage job = .waiting) :
    (runJobs settings jobs : StateM Memory _) progress.memory =
        ((progress.perform settings (inOrder jobs)).tally jobs,
          (progress.perform settings (inOrder jobs)).memory) ∧
      (∀ job ∈ jobs, ∃ result,
        (progress.perform settings (inOrder jobs)).stage job = .done result) ∧
      ∀ job ∉ jobs, (progress.perform settings (inOrder jobs)).stage job = progress.stage job := by
  induction jobs generalizing progress with
  | nil => exact ⟨rfl, by simp, fun _ _ => rfl⟩
  | cons job rest induction =>
      obtain ⟨absent, others⟩ := List.nodup_cons.1 distinct
      obtain ⟨result, after, ran, completed⟩ := convertTo_eq settings job progress.memory
      have first : progress.perform settings [job, job, job] =
          progress.set job (after, .done result) := by
        rw [perform_alone, waiting job List.mem_cons_self, completed]
      have onward : progress.perform settings (inOrder (job :: rest)) =
          (progress.set job (after, .done result)).perform settings (inOrder rest) := by
        rw [inOrder, List.flatMap_cons, perform_append, first]
        rfl
      -- The first job has left the stages of the other ones alone.
      have waitingRest : ∀ other ∈ rest,
          (progress.set job (after, .done result)).stage other = .waiting := by
        intro other member
        have different : other ≠ job := by
          rintro rfl
          exact absent member
        rw [stage_set_of_ne different]
        exact waiting other (List.mem_cons_of_mem _ member)
      obtain ⟨run, done, kept⟩ := induction others waitingRest
      have finished := kept job absent
      rw [stage_set_self] at finished
      rw [onward]
      refine ⟨?_, ?_, ?_⟩
      · have whole : (runJobs settings (job :: rest) : StateM Memory _) progress.memory =
            let (tally, final) := (runJobs settings rest : StateM Memory _) after
            (match result with
              | .ok () => { tally with written := job.output :: tally.written }
              | .error failure => { tally with failed := (job.input, failure) :: tally.failed },
              final) := by
          simp only [runJobs, bind_apply, ran]
          cases result <;> rfl
        rw [memory_set] at run
        rw [whole, run]
        cases result with
        | ok => rw [tally_cons_ok finished]
        | error failure => rw [tally_cons_error finished]
      · intro other member
        rcases List.mem_cons.1 member with rfl | inside
        · exact ⟨result, finished⟩
        · exact done other inside
      · intro other absentOther
        obtain ⟨different, outside⟩ := not_or.1 (mt List.mem_cons.2 absentOther)
        rw [kept other outside, stage_set_of_ne different]

end Progress

/-! What a step changes. -/

/-- A step makes folders where nothing was, and writes the output of its job where no folder was. -/
structure Changes (job : Job) (before after : Memory) : Prop where
  tree : after.IsTree
  folder : after.folder = before.folder
  item? : ∀ position, after.item? position = before.item? position ∨
    before.item? position = none ∧ after.item? position = some .folder ∧
      position ∈ before.way job.parent ∨
    position = before.place job.output ∧ job.output.Names ∧
      before.item? position ≠ some .folder ∧ ∃ bytes, after.item? position = some (.file bytes)

theorem Changes.refl {memory : Memory} (tree : memory.IsTree) (job : Job) :
    Changes job memory memory :=
  ⟨tree, rfl, fun _ => .inl rfl⟩

theorem Changes.folders {job : Job} {before after : Memory} (changes : Changes job before after)
    {position : Position} (found : before.item? position = some .folder) :
    after.item? position = some .folder := by
  rcases changes.item? position with same | ⟨nothing, -⟩ | ⟨-, -, free, -⟩
  · rw [same, found]
  · simp [found] at nothing
  · exact absurd found free

theorem Changes.trans {job : Job} {first second third : Memory}
    (changes : Changes job first second) (more : Changes job second third) :
    Changes job first third := by
  refine ⟨more.tree, more.folder.trans changes.folder, ?_⟩
  intro position
  have further := more.item? position
  rw [Memory.way_of_folder changes.folder, Memory.place_of_folder changes.folder] at further
  rcases changes.item? position with same | ⟨nothing, made, onTheWay⟩ | ⟨here, names, free, written⟩
  · rwa [same] at further
  · exact .inr (.inl ⟨nothing, more.folders made, onTheWay⟩)
  · refine .inr (.inr ⟨here, names, free, ?_⟩)
    obtain ⟨bytes, found⟩ := written
    rcases further with same | ⟨nothing, -⟩ | ⟨-, -, -, again⟩
    · exact ⟨bytes, same.trans found⟩
    · simp [found] at nothing
    · exact again

theorem changes_makeFolder {memory : Memory} (tree : memory.IsTree) (job : Job) :
    Changes job memory (memory.makeFolder job.parent).2 := by
  obtain ⟨-, madeTree, makes⟩ := tree.makeFolder_spec job.parent
  refine ⟨madeTree, makes.folder, ?_⟩
  intro position
  rw [makes.item?]
  split
  · next opened =>
      have free := makes.free position opened
      cases here : memory.item? position with
      | none => exact .inr (.inl ⟨rfl, rfl, Memory.mem_trail_of_mem_opened opened⟩)
      | some item =>
          cases item with
          | file bytes => simp [Memory.hasFile, here] at free
          | folder => exact .inl rfl
  · exact .inl rfl

theorem changes_writeText {memory written : Memory} (tree : memory.IsTree) {job : Job}
    {text : String} (finished : memory.writeText job.output text = .ok written) :
    Changes job memory written := by
  obtain ⟨names, free, rfl, writtenTree⟩ := tree.writes finished
  refine ⟨writtenTree, rfl, ?_⟩
  intro position
  rw [Memory.item?_put]
  split
  · next here => exact .inr (.inr ⟨here, names, here ▸ free, _, rfl⟩)
  · exact .inl rfl

theorem changes_next {memory : Memory} (tree : memory.IsTree) (settings : Settings) (job : Job)
    (stage : Stage) : Changes job memory (stage.next settings job memory).1 := by
  cases stage with
  | waiting =>
      simp only [Stage.next]
      split
      · exact .refl tree job
      · split <;> exact .refl tree job
  | converted text =>
      have changes := changes_makeFolder tree job
      simp only [Stage.next]
      split
      · next made => rwa [made] at changes
      · next made => rwa [made] at changes
  | placed text =>
      simp only [Stage.next]
      split
      · exact .refl tree job
      · next written => exact changes_writeText tree written
  | done result => exact .refl tree job

/-- What jobs leave as it is: folders, and the files that are not the output of one of them. -/
structure Keeps (jobs : List Job) (before after : Memory) : Prop where
  tree : after.IsTree
  folder : after.folder = before.folder
  folders : ∀ position, before.item? position = some .folder → after.item? position = some .folder
  files : ∀ position bytes, before.item? position = some (.file bytes) →
    (∀ job ∈ jobs, job.output.Names → before.place job.output ≠ position) →
    after.item? position = some (.file bytes)

theorem Progress.perform_keeps {progress : Progress} (tree : progress.memory.IsTree)
    (settings : Settings) (schedule : List Job) :
    Keeps schedule progress.memory (progress.perform settings schedule).memory := by
  induction schedule generalizing progress with
  | nil => exact ⟨tree, rfl, fun _ found => found, fun _ _ found _ => found⟩
  | cons job rest induction =>
      have changes : Changes job progress.memory (progress.advance settings job).memory :=
        changes_next tree settings job (progress.stage job)
      have later := induction changes.tree
      refine ⟨later.tree, later.folder.trans changes.folder, ?_, ?_⟩
      · intro position found
        exact later.folders position (changes.folders found)
      · intro position bytes found elsewhere
        have others : ∀ other ∈ rest, other.output.Names →
            (progress.advance settings job).memory.place other.output ≠ position := by
          intro other member names
          rw [Memory.place_of_folder changes.folder]
          exact elsewhere other (List.mem_cons_of_mem _ member) names
        refine later.files position bytes ?_ others
        rcases changes.item? position with same | ⟨nothing, -⟩ | ⟨here, names, -⟩
        · rw [← found]
          exact same
        · simp [found] at nothing
        · exact absurd here.symm (elsewhere job List.mem_cons_self names)

end EditorMarkdown.Command
