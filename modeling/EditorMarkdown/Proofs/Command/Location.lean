import EditorMarkdown.Command.Memory
import EditorMarkdown.Proofs.Command.Path

/-!
Where paths lead in a memory. A path leads to a position that depends on its components only; that
it leads anywhere depends on the folders on its trail.
-/

namespace EditorMarkdown.Command

open EditorMarkdown.Command.Path (innerComponent? IsName)

/-! Positions. -/

def move (position : Position) : Component → Position
  | .name name => position ++ [name]
  | .up => position.dropLast
  | .top | .here => position

def goal (position : Position) (components : List Component) : Position :=
  components.foldl move position

/-- The positions that components lead through, the first and the last one included. -/
def trail (position : Position) : List Component → List Position
  | [] => [position]
  | component :: rest => position :: trail (move position component) rest

@[simp] theorem goal_nil (position : Position) : goal position [] = position := rfl

@[simp] theorem goal_cons (position : Position) (component : Component) (rest : List Component) :
    goal position (component :: rest) = goal (move position component) rest := rfl

theorem goal_append (position : Position) (first second : List Component) :
    goal position (first ++ second) = goal (goal position first) second :=
  List.foldl_append

theorem goal_names (position : Position) (names : List String) :
    goal position (names.map .name) = position ++ names := by
  induction names generalizing position with
  | nil => simp
  | cons name rest induction => simp [induction, move]

theorem prefix_of_mem_trail_names {position other : Position} {names : List String}
    (member : other ∈ trail position (names.map .name)) : other <+: position ++ names := by
  induction names generalizing position with
  | nil =>
      rw [List.mem_singleton.1 member]
      exact List.prefix_append _ _
  | cons name rest induction =>
      rcases List.mem_cons.1 member with rfl | below
      · exact List.prefix_append _ _
      · have next := induction below
        rwa [move, List.append_assoc] at next

theorem mem_trail_self (position : Position) (components : List Component) :
    position ∈ trail position components := by
  cases components <;> exact List.mem_cons_self

theorem mem_trail_append {position other : Position} {first second : List Component} :
    other ∈ trail position (first ++ second) ↔
      other ∈ trail position first ∨ other ∈ trail (goal position first) second := by
  induction first generalizing position with
  | nil =>
      simp only [List.nil_append, goal_nil, trail, List.mem_singleton, iff_or_self]
      rintro rfl
      exact mem_trail_self _ _
  | cons component rest induction => simp [trail, induction, or_assoc]

theorem goal_mem_trail (position : Position) (components : List Component) :
    goal position components ∈ trail position components := by
  induction components generalizing position with
  | nil => exact List.mem_cons_self
  | cons component rest induction => exact List.mem_cons_of_mem _ (induction _)

def inner (pieces : List (List Char)) : List Component := pieces.filterMap innerComponent?

theorem inner_append (first second : List (List Char)) :
    inner (first ++ second) = inner first ++ inner second :=
  List.filterMap_append

theorem inner_cons (piece : List Char) (rest : List (List Char)) :
    inner (piece :: rest) = inner [piece] ++ inner rest :=
  inner_append [piece] rest

theorem mem_trail_cons {position other : Position} {piece : List Char} {rest : List (List Char)} :
    other ∈ trail position (inner (piece :: rest)) ↔
      other = position ∨ other ∈ trail (goal position (inner [piece])) (inner rest) := by
  cases stands : innerComponent? piece with
  | none =>
      simp only [inner, List.filterMap_cons, List.filterMap_nil, stands, goal_nil]
      constructor
      · exact .inr
      · rintro (rfl | below)
        · exact mem_trail_self _ _
        · exact below
  | some component => simp [inner, stands, trail]

namespace Memory

/-- The position that a path leads to if the folders on its trail are there. -/
def place (path : Path) (memory : Memory) : Position :=
  goal (memory.start path) (inner path.pieces)

theorem place_eq (path : Path) (memory : Memory) :
    memory.place path = goal (memory.start path) path.components := by
  rw [place, Path.components_eq]
  cases shape : path.pieces with
  | nil => rfl
  | cons first rest =>
      have split : inner (first :: rest) = inner [first] ++ inner rest := inner_cons first rest
      rw [split, goal_append, Path.componentsOf, goal_append]
      congr 1
      cases absolute : path.isAbsolute with
      | true =>
          obtain ⟨second, others, same⟩ := (Path.isAbsolute_iff path).1 absolute
          obtain ⟨rfl, -⟩ := List.cons.inj (shape.symm.trans same)
          rfl
      | false =>
          by_cases here : first = ['.']
          · subst here
            rfl
          · have same : Path.firstComponent? false first = innerComponent? first := by
              simp [Path.firstComponent?, here]
            rw [same]
            cases stands : innerComponent? first <;> simp [inner, stands]

theorem start_of_folder {first second : Memory} (same : first.folder = second.folder)
    (path : Path) : first.start path = second.start path := by
  simp [start, same]

theorem place_of_folder {first second : Memory} (same : first.folder = second.folder)
    (path : Path) : first.place path = second.place path := by
  rw [place, start_of_folder same, place]

theorem item?_put (position other : Position) (item : Item) (memory : Memory) :
    (memory.put position item).item? other =
      if other = position then some item else memory.item? other := by
  unfold item? put
  by_cases same : other = position
  · simp [same]
  · have different : position ≠ other := Ne.symm same
    rw [List.find?_cons_of_neg (by simpa using different), if_neg same, List.find?_filter]
    congr 2
    funext entry
    by_cases here : entry.1 = other <;> simp [here, same]

@[simp] theorem folder_put (position : Position) (item : Item) (memory : Memory) :
    (memory.put position item).folder = memory.folder := rfl

variable {memory : Memory} {position : Position}

theorem step_of_folder (folder : memory.item? position = some .folder) (piece : List Char) :
    memory.step position piece = .ok (goal position (inner [piece])) := by
  unfold step
  rw [folder]
  cases stands : innerComponent? piece with
  | none => simp [inner, stands]
  | some component =>
      have notTop := Path.innerComponent?_ne_top piece
      cases component <;> simp [inner, stands, move] at notTop ⊢

theorem folder_of_step {piece : List Char} {next : Position}
    (stepped : memory.step position piece = .ok next) : memory.item? position = some .folder := by
  unfold step at stepped
  split at stepped
  · cases stepped
  · cases stepped
  · assumption

theorem walk_append (memory : Memory) (position : Position) (before after : List (List Char)) :
    memory.walk position (before ++ after) =
      (memory.walk position before).bind fun next => memory.walk next after := by
  induction before generalizing position with
  | nil => rfl
  | cons piece rest induction =>
      rw [List.cons_append, walk, walk]
      cases memory.step position piece with
      | error error => rfl
      | ok next => exact induction next

theorem walk_of_folders {pieces : List (List Char)}
    (folders : ∀ other ∈ trail position (inner pieces), memory.item? other = some .folder) :
    memory.walk position pieces = .ok (goal position (inner pieces)) := by
  induction pieces generalizing position with
  | nil => rfl
  | cons piece rest induction =>
      have here := folders position (mem_trail_self _ _)
      have below := induction fun other member => folders other (mem_trail_cons.2 (.inr member))
      rw [walk, step_of_folder here, inner_cons piece rest, goal_append]
      exact below

theorem goal_of_walk {pieces : List (List Char)} {next : Position}
    (walked : memory.walk position pieces = .ok next) : next = goal position (inner pieces) := by
  induction pieces generalizing position with
  | nil => exact (Except.ok.inj walked).symm
  | cons piece rest induction =>
      rw [walk] at walked
      cases stepped : memory.step position piece with
      | error error => simp [stepped] at walked
      | ok middle =>
          rw [stepped] at walked
          rw [step_of_folder (folder_of_step stepped)] at stepped
          cases stepped
          rw [inner_cons piece rest, goal_append]
          exact induction walked

theorem folders_of_walk {pieces : List (List Char)} {next : Position}
    (walked : memory.walk position pieces = .ok next) (folder : memory.item? next = some .folder) :
    ∀ other ∈ trail position (inner pieces), memory.item? other = some .folder := by
  induction pieces generalizing position with
  | nil =>
      intro other member
      cases walked
      rwa [List.mem_singleton.1 member]
  | cons piece rest induction =>
      rw [walk] at walked
      cases stepped : memory.step position piece with
      | error error => simp [stepped] at walked
      | ok middle =>
          rw [stepped] at walked
          have here := folder_of_step stepped
          rw [step_of_folder here] at stepped
          cases stepped
          intro other member
          rcases mem_trail_cons.1 member with rfl | below
          · exact here
          · exact induction walked other below

theorem walk_concat (memory : Memory) (position : Position) (before : List (List Char))
    (piece : List Char) :
    memory.walk position (before ++ [piece]) =
      (memory.walk position before).bind fun next => memory.step next piece := by
  rw [walk_append]
  congr 1
  funext next
  rw [walk]
  cases memory.step next piece <;> rfl

variable {path : Path} {before : List (List Char)} {piece : List Char}

theorem place_concat (shape : path.pieces = before ++ [piece]) :
    memory.place path = goal (goal (memory.start path) (inner before)) (inner [piece]) := by
  rw [place, shape, inner_append, goal_append]

theorem locate_of_folders (shape : path.pieces = before ++ [piece]) (filled : piece ≠ [])
    (folders : ∀ other ∈ trail (memory.start path) (inner before),
      memory.item? other = some .folder) : memory.locate path = .ok (memory.place path) := by
  have written : path.text.isEmpty = false := by
    apply eq_false_of_ne_true
    intro empty
    have none : path.text = "" := by simpa using empty
    have same : [[]] = before ++ [piece] := by rw [← shape, Path.pieces, none]; rfl
    have last := congrArg List.getLast? same
    simp [Ne.symm filled] at last
  have there := folders _ (goal_mem_trail _ _)
  rw [locate, written, shape, walk_concat, walk_of_folders folders, place_concat shape]
  exact step_of_folder there piece

theorem exists_of_locate (located : memory.locate path = .ok position) :
    ∃ before piece, path.pieces = before ++ [piece] ∧
      memory.item? (goal (memory.start path) (inner before)) = some .folder ∧
      position = memory.place path := by
  unfold locate at located
  split at located
  · cases located
  · have filled : path.pieces ≠ [] := Path.splitSlashes_ne_nil _
    have shape := (List.dropLast_concat_getLast filled).symm
    refine ⟨path.pieces.dropLast, path.pieces.getLast filled, shape, ?_, goal_of_walk located⟩
    rw [shape, walk_concat] at located
    cases walked : memory.walk (memory.start path) path.pieces.dropLast with
    | error error => simp [walked, Except.bind] at located
    | ok next =>
        rw [walked] at located
        rw [← goal_of_walk walked]
        exact folder_of_step located

theorem mem_items {item : Item} (found : memory.item? position = some item) :
    (position, item) ∈ memory.items := by
  obtain ⟨entry, isEntry, rfl⟩ := Option.map_eq_some_iff.1 found
  have here : entry.1 = position := by simpa using List.find?_some isEntry
  rw [← here]
  exact List.mem_of_find?_eq_some isEntry

end Memory

end EditorMarkdown.Command
