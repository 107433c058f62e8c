import EditorMarkdown.Proofs.Command.Turns

/-!
Whether the order of its jobs matters for a run over a folder: it does not if no job writes where
another one reads, writes or makes folders. Two files whose outputs have the same name do get in
each other's way.
-/

namespace EditorMarkdown.Command

theorem independent_of_clear {memory : Memory} (tree : memory.IsTree) {recursive : Bool}
    {input output : Path}
    (clear : ∀ job ∈ safeJobs (jobsIn memory recursive input output),
      ∀ other ∈ safeJobs (jobsIn memory recursive input output),
        job ≠ other → Clear memory job other) :
    Independent memory (safeJobs (jobsIn memory recursive input output)) :=
  ⟨tree, fun _ member => proper_of_mem_jobsIn tree (List.mem_filter.1 member).1, clear⟩

theorem folders_of_mem_jobsIn {memory : Memory} (tree : memory.IsTree) {recursive : Bool}
    {folder : Path} {job : Job} (member : job ∈ jobsIn memory recursive folder folder) :
    ∀ position ∈ memory.way job.parent, memory.item? position = some .folder := by
  obtain ⟨before, piece, component, pieces, stands⟩ := (proper_of_mem_jobsIn tree member).output
  obtain ⟨names, isFile, direction, directed, rfl⟩ := mem_jobsFor.1 member
  have holds := holds_of_mem_filesIn tree isFile
  obtain ⟨outer, last, stem, old, rfl, -, shape, absolute⟩ :=
    @exists_output folder folder _ _ holds.filled holds.valid directed
  obtain ⟨rfl, -⟩ := List.append_inj' (shape.symm.trans pieces) rfl
  rw [Job.way_parent pieces stands, Memory.start, absolute]
  exact holds.folders tree

/-- Without another folder for the outputs, jobs whose outputs have different places do not get in
each other's way. -/
theorem independent_of_place_ne {memory : Memory} (tree : memory.IsTree) {recursive : Bool}
    {folder : Path}
    (different : ∀ job ∈ safeJobs (jobsIn memory recursive folder folder),
      ∀ other ∈ safeJobs (jobsIn memory recursive folder folder),
        job ≠ other → memory.place job.output ≠ memory.place other.output) :
    Independent memory (safeJobs (jobsIn memory recursive folder folder)) := by
  apply independent_of_clear tree
  intro job safe other isOther isNot free
  rw [← Bool.not_eq_true, Memory.hasFolder_iff] at free
  have member := (List.mem_filter.1 safe).1
  have otherMember := (List.mem_filter.1 isOther).1
  have folders := folders_of_mem_jobsIn tree member
  obtain ⟨before, piece, component, shape, stands⟩ := (proper_of_mem_jobsIn tree member).output
  have solid := Path.solid_of_pieces shape
  rw [Job.way_parent shape stands] at folders
  have named : job.output.Names := by
    rcases tree.step_cases (folders _ (goal_mem_trail _ _)) solid with taken | ⟨isName, -⟩
    · rw [← Memory.place_concat shape] at taken
      exact absurd taken free
    · exact ⟨before, piece, shape, isName⟩
  refine ⟨place_output_ne tree (.inl (.refl folder)) named otherMember safe,
    different job safe other isOther isNot, ?_⟩
  intro onTheWay
  exact free (folders_of_mem_jobsIn tree otherMember _ onTheWay)

/-- A run over a folder gives and leaves the same, whichever turns its jobs take, if none of them
writes where another one reads, writes or makes folders. Only how it is told that the path to an
output is stopped may differ, if that path leads out of a folder on its way. -/
theorem order_irrelevant {memory : Memory} (tree : memory.IsTree) (settings : Settings)
    (recursive : Bool) (input : Path) (output? : Option Path)
    (clear : ∀ job ∈ safeJobs (jobsIn memory recursive input (output?.getD input)),
      ∀ other ∈ safeJobs (jobsIn memory recursive input (output?.getD input)),
        job ≠ other → Clear memory job other)
    (schedule : List Job)
    (only : ∀ job ∈ schedule,
      job ∈ safeJobs (jobsIn memory recursive input (output?.getD input)))
    (complete : ∀ job ∈ safeJobs (jobsIn memory recursive input (output?.getD input)),
      (((Progress.start memory).perform settings schedule).stage job).isDone) :
    let jobs := jobsIn memory recursive input (output?.getD input)
    let run := (convertFolder settings recursive input output? : StateM Memory _) memory
    let final := (Progress.start memory).perform settings schedule
    let told := if jobs.isEmpty then none else some (final.tally (safeJobs jobs))
    (∀ position, run.2.item? position = final.memory.item? position) ∧
      run.1.map Tally.settled = told.map Tally.settled ∧
      ((∀ job ∈ safeJobs jobs, job.parent.climbs = false) → run.1 = told) := by
  intro jobs run final told
  have independent := independent_of_clear tree clear
  have distinct : (safeJobs jobs).Nodup := (nodup_jobsIn tree _ _ _).sublist List.filter_sublist
  have ordered : ∀ job ∈ safeJobs jobs,
      (((Progress.start memory).perform settings
        (Progress.inOrder (safeJobs jobs))).stage job).isDone := by
    intro job member
    have waiting : ∀ other ∈ safeJobs jobs, (Progress.start memory).stage other = .waiting :=
      fun _ _ => rfl
    obtain ⟨result, done⟩ := (Progress.runJobs_eq settings distinct waiting).2.1 job member
    rw [done]
    rfl
  obtain ⟨items, alike⟩ :=
    independent.perform_agree (fun _ => Progress.mem_inOrder.1) only ordered complete
  have whole : run = _ := convertFolder_eq tree settings recursive input output?
  rw [whole]
  refine ⟨items, ?_, fun straight => ?_⟩
  · have settled := Progress.settled_tally_congr alike
    simp only [told]
    split
    · rfl
    · exact congrArg some settled
  · rw [Progress.tally_congr_of_straight alike straight]

def nest : Memory where
  items := [([], .folder), (["docs"], .folder), (["docs", "a.md"], .file "x\n".toUTF8),
    (["docs", "sub"], .folder),
    (["docs", "sub", "b.json"], .file "\x7b\"document\":\x7b\"type\":\"doc\"\x7d\x7d".toUTF8)]
  folder := []

set_option maxRecDepth 100000 in
theorem order_irrelevant_nest :
    nest.IsTree ∧ ∃ first second : Job,
      safeJobs (jobsIn nest true ⟨"docs"⟩ ⟨"out/put"⟩) = [first, second] ∧
        ∀ position,
          ((convertFolder ⟨true, false, true, false⟩ true ⟨"docs"⟩ (some ⟨"out/put"⟩) :
              StateM Memory _) nest).2.item? position =
            ((Progress.start nest).perform ⟨true, false, true, false⟩
              [second, first, first, second, first, second]).memory.item? position := by
  have tree : nest.IsTree := by decide +kernel
  refine ⟨tree, ⟨⟨"docs/a.md"⟩, ⟨"out/put/a.json"⟩, .toJson⟩,
    ⟨⟨"docs/sub/b.json"⟩, ⟨"out/put/sub/b.md"⟩, .toMarkdown⟩, by decide +kernel, ?_⟩
  have agree := @order_irrelevant nest tree ⟨true, false, true, false⟩ true ⟨"docs"⟩
    (some ⟨"out/put"⟩) (by decide +kernel)
  refine (agree _ ?_ ?_).1
  · decide +kernel
  · decide +kernel

def stopping : Memory where
  items := [([], .folder), (["notes"], .file "x\n".toUTF8), (["docs"], .folder),
    (["docs", "a.json"], .file "\x7b\"document\":\x7b\"type\":\"doc\"\x7d\x7d".toUTF8),
    (["docs", "sub"], .folder),
    (["docs", "sub", "b.json"], .file "\x7b\"document\":\x7b\"type\":\"doc\"\x7d\x7d".toUTF8)]
  folder := []

set_option maxRecDepth 100000 in
/-- How the file is told that stops the path to the second output turns on whether the first job has
made the folder before it. -/
example :
    let jobs := safeJobs (jobsIn stopping true ⟨"docs"⟩ ⟨"new/../notes"⟩)
    let settings : Settings := ⟨true, false, true, false⟩
    let ordered := (Progress.start stopping).perform settings (Progress.inOrder jobs)
    let reversed := (Progress.start stopping).perform settings (Progress.inOrder jobs.reverse)
    ((ordered.tally jobs).failed.map (·.2), (reversed.tally jobs).failed.map (·.2)) =
      ([.noFolder ⟨"new/../notes"⟩ .taken, .noFolder ⟨"new/../notes/sub"⟩ .notFolder],
        [.noFolder ⟨"new/../notes"⟩ .taken, .noFolder ⟨"new/../notes/sub"⟩ .taken]) := by
  decide +kernel

def namesakes : Memory where
  items := [([], .folder), (["a.md"], .file "x\n".toUTF8), (["a.markdown"], .file "y\n".toUTF8)]
  folder := []

/-- Two files each of which is written over by the job of the other one, if the folder is spelled in
two ways. -/
def rivals : Memory where
  items := [([], .folder), (["docs"], .folder), (["docs", "a.md"], .file "x\n".toUTF8),
    (["docs", "a.json"], .file "no tree".toUTF8)]
  folder := []

set_option maxRecDepth 100000 in
/-- Of outputs with the same name the last one is kept, and a job that reads what another one writes
may fail or not. -/
theorem order_matters :
    let same := safeJobs (jobsIn namesakes false ⟨"."⟩ ⟨"."⟩)
    let crossed := safeJobs (jobsIn rivals false ⟨"docs"⟩ ⟨"./docs"⟩)
    (∃ path : Path,
      (((Progress.start namesakes).perform ⟨true, false, true, false⟩
          (Progress.inOrder same)).memory.readText path).toOption ≠
        (((Progress.start namesakes).perform ⟨true, false, true, false⟩
          (Progress.inOrder same.reverse)).memory.readText path).toOption) ∧
      (((Progress.start rivals).perform ⟨true, false, true, false⟩
          (Progress.inOrder crossed)).tally crossed).failed.length ≠
        (((Progress.start rivals).perform ⟨true, false, true, false⟩
          (Progress.inOrder crossed.reverse)).tally crossed).failed.length := by
  refine ⟨⟨⟨"./a.json"⟩, ?_⟩, ?_⟩
  · decide +kernel
  · decide +kernel

end EditorMarkdown.Command
