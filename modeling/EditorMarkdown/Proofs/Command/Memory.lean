import EditorMarkdown.Proofs.Command.Location

/-!
Memories that are trees of folders with files in them, and what becomes of them when a text is
written or folders are made.
-/

namespace EditorMarkdown.Command.Memory

open EditorMarkdown.Command.Path (innerComponent? IsName)

variable {memory : Memory} {position : Position} {path : Path} {piece : List Char}

/-- A memory in which everything is in a folder and has a proper name there. -/
structure IsTree (memory : Memory) : Prop where
  distinct : (memory.items.map (·.1)).Nodup
  names : ∀ entry ∈ memory.items, ∀ name ∈ entry.1, IsName name.toList
  folders : ∀ outer position : Position, outer <+: position → outer ≠ position →
    (memory.item? position).isSome → memory.item? outer = some .folder
  start : memory.item? memory.folder = some .folder

namespace IsTree

variable (tree : memory.IsTree)

include tree

theorem entries {entry : Position × Item} (member : entry ∈ memory.items) :
    memory.item? entry.1 = some entry.2 := by
  obtain ⟨items, folder⟩ := memory
  have distinct := tree.distinct
  clear tree
  simp only [item?] at member distinct ⊢
  induction items with
  | nil => cases member
  | cons first rest induction =>
      simp only [List.map_cons, List.nodup_cons] at distinct
      rcases List.mem_cons.1 member with rfl | inside
      · simp
      · have different : first.1 ≠ entry.1 := by
          intro same
          exact distinct.1 (same ▸ List.mem_map_of_mem inside)
        rw [List.find?_cons_of_neg (by simpa using different)]
        exact induction inside distinct.2

theorem top : memory.item? [] = some .folder := by
  by_cases same : memory.folder = []
  · rw [← same]
    exact tree.start
  · exact tree.folders [] memory.folder List.nil_prefix (Ne.symm same) (by simp [tree.start])

theorem start_folder (path : Path) : memory.item? (memory.start path) = some .folder := by
  unfold Memory.start
  split
  · exact tree.top
  · exact tree.start

theorem outer_folder (folder : memory.item? position = some .folder) :
    memory.item? position.dropLast = some .folder := by
  by_cases same : position.dropLast = position
  · rw [same]
    exact folder
  · exact tree.folders _ _ (List.dropLast_prefix position) same (by simp [folder])

theorem nothing_below (free : memory.item? position ≠ some .folder) {below : Position}
    (under : position <+: below) (different : position ≠ below) : memory.item? below = none := by
  cases found : memory.item? below with
  | none => rfl
  | some item => exact absurd (tree.folders _ _ under different (by simp [found])) free

/-- Something new in a folder, or something else where a file was. -/
theorem put (folder : memory.item? position = some .folder) {name : String}
    (isName : IsName name.toList) (free : memory.item? (position ++ [name]) ≠ some .folder)
    (item : Item) : (memory.put (position ++ [name]) item).IsTree := by
  refine ⟨?_, ?_, ?_, ?_⟩
  · have kept : ((memory.items.filter fun entry => entry.1 ≠ position ++ [name]).map (·.1)).Nodup :=
      tree.distinct.sublist (List.filter_sublist.map _)
    refine List.nodup_cons.2 ⟨?_, kept⟩
    intro member
    obtain ⟨entry, inside, same⟩ := List.mem_map.1 member
    have different := (List.mem_filter.1 inside).2
    simp [same] at different
  · intro entry member
    rcases List.mem_cons.1 member with rfl | kept
    · intro other inside
      rcases List.mem_append.1 inside with earlier | last
      · exact tree.names _ (mem_items folder) other earlier
      · rwa [List.mem_singleton.1 last]
    · exact tree.names entry (List.mem_filter.1 kept).1
  · intro outer below under different taken
    rw [item?_put] at taken ⊢
    by_cases there : below = position ++ [name]
    · subst there
      rw [if_neg different]
      rcases List.prefix_concat_iff.1 under with whole | inside
      · exact absurd whole different
      · by_cases same : outer = position
        · rwa [same]
        · exact tree.folders _ _ inside same (by simp [folder])
    · rw [if_neg there] at taken
      by_cases here : outer = position ++ [name]
      · subst here
        rw [tree.nothing_below free under different] at taken
        cases taken
      · rw [if_neg here]
        exact tree.folders _ _ under different taken
  · rw [item?_put, folder_put]
    split
    · next same => exact absurd (same ▸ tree.start) free
    · exact tree.start

end IsTree

/-! Writing a text, and making folders. -/

/-- A step from a folder leads to a folder or to a name in that folder. -/
theorem IsTree.step_cases (tree : memory.IsTree) (folder : memory.item? position = some .folder)
    (solid : '/' ∉ piece) :
    memory.item? (goal position (inner [piece])) = some .folder ∨
      IsName piece ∧ goal position (inner [piece]) = position ++ [String.ofList piece] := by
  cases stands : innerComponent? piece with
  | none =>
      left
      simpa [inner, stands] using folder
  | some component =>
      have notTop := Path.innerComponent?_ne_top piece
      cases component with
      | top => exact absurd stands notTop
      | here => exact .inl (by simpa [inner, stands, move] using folder)
      | up => exact .inl (by simpa [inner, stands, move] using tree.outer_folder folder)
      | name name =>
          obtain ⟨isName, rfl⟩ := Path.isName_of_innerComponent? solid stands
          exact .inr ⟨isName, by simp [inner, stands, move]⟩

/-- A text is written to a new name in a folder, or over a file. -/
structure Writes (path : Path) (text : String) (before after : Memory) : Prop where
  names : path.Names
  free : before.item? (before.place path) ≠ some .folder
  result : after = before.put (before.place path) (.file text.toUTF8)
  tree : after.IsTree

theorem IsTree.writes (tree : memory.IsTree) {text : String} {changed : Memory}
    (written : memory.writeText path text = .ok changed) : Writes path text memory changed := by
  unfold writeText at written
  cases located : memory.locate path with
  | error error => simp [located] at written
  | ok next =>
      obtain ⟨before, piece, shape, folder, rfl⟩ := exists_of_locate located
      have solid := Path.solid_of_pieces shape
      simp only [located] at written
      have free : memory.item? (memory.place path) ≠ some .folder := by
        intro taken
        simp [taken] at written
      have after : changed = memory.put (memory.place path) (.file text.toUTF8) := by
        split at written
        · cases written
        · exact (Except.ok.inj written).symm
      have here := @place_concat memory path before piece shape
      rcases tree.step_cases folder solid with taken | ⟨isName, named⟩
      · rw [here] at free
        exact absurd taken free
      · refine ⟨⟨before, piece, shape, isName⟩, free, after, ?_⟩
        rw [after, here, named]
        rw [here, named] at free
        exact tree.put folder (by rwa [String.toList_ofList]) free _

def hasFolder (position : Position) (memory : Memory) : Bool :=
  match memory.item? position with
  | some .folder => true
  | _ => false

theorem hasFolder_iff : memory.hasFolder position ↔ memory.item? position = some .folder := by
  unfold hasFolder
  cases memory.item? position with
  | none => simp
  | some item => cases item <;> simp

theorem writeText_of_locate (located : memory.locate path = .ok position) (text : String) :
    memory.writeText path text =
      if memory.hasFolder position then .error .isFolder
      else .ok (memory.put position (.file text.toUTF8)) := by
  cases found : memory.item? position with
  | none => simp [writeText, located, hasFolder, found]
  | some item => cases item <;> simp [writeText, located, hasFolder, found]

def hasFile (position : Position) (memory : Memory) : Bool :=
  match memory.item? position with
  | some (.file _) => true
  | _ => false

theorem hasFile_of_folder (folder : memory.item? position = some .folder) :
    memory.hasFile position = false := by
  simp [hasFile, folder]

theorem hasFile_of_none (missing : memory.item? position = none) :
    memory.hasFile position = false := by
  simp [hasFile, missing]

/-- How a path that is to be made into folders is stopped, if it comes upon a file. The file is in
the place of a folder if the path ends there, or if a folder before it had to be made. -/
def blocked? (memory : Memory) (made : Bool) : Position → List (List Char) → Option DiskError
  | _, [] => none
  | position, piece :: rest =>
      let next := goal position (inner [piece])
      if memory.hasFile next then some (if made || rest.isEmpty then .taken else .notFolder)
      else blocked? memory (made || !memory.hasFolder next) next rest

/-- The positions behind the first one that a path leads through before it comes upon a file. -/
def opened (memory : Memory) : Position → List (List Char) → List Position
  | _, [] => []
  | position, piece :: rest =>
      let next := goal position (inner [piece])
      if memory.hasFile next then [] else next :: opened memory next rest

section

variable {made : Bool} {other : Memory} {pieces : List (List Char)}

theorem opened_congr
    (same : ∀ place ∈ trail position (inner pieces), memory.hasFile place = other.hasFile place) :
    memory.opened position pieces = other.opened position pieces := by
  induction pieces generalizing position with
  | nil => rfl
  | cons piece rest induction =>
      have next := same _ (mem_trail_cons.2 (.inr (mem_trail_self _ _)))
      have below := induction fun place member => same place (mem_trail_cons.2 (.inr member))
      simp only [opened, next, below]

/-- Once a folder had to be made, it makes no difference which others are missing. -/
theorem blocked?_true_congr
    (same : ∀ place ∈ trail position (inner pieces), memory.hasFile place = other.hasFile place) :
    memory.blocked? true position pieces = other.blocked? true position pieces := by
  induction pieces generalizing position with
  | nil => rfl
  | cons piece rest induction =>
      have next := same _ (mem_trail_cons.2 (.inr (mem_trail_self _ _)))
      have below := induction fun place member => same place (mem_trail_cons.2 (.inr member))
      simp only [blocked?, next, Bool.true_or, below]

theorem blocked?_eq_none_iff (clear : memory.hasFile position = false) :
    memory.blocked? made position pieces = none ↔
      ∀ place ∈ trail position (inner pieces), memory.hasFile place = false := by
  induction pieces generalizing position made with
  | nil => simp [blocked?, inner, trail, clear]
  | cons piece rest induction =>
      simp only [mem_trail_cons, forall_eq_or_imp, clear, true_and, blocked?]
      cases taken : memory.hasFile (goal position (inner [piece])) with
      | false => simpa using induction taken
      | true =>
          simp only [if_true, reduceCtorEq, false_iff]
          intro free
          rw [free _ (mem_trail_self _ _)] at taken
          cases taken

theorem mem_trail_of_mem_opened {place : Position}
    (member : place ∈ memory.opened position pieces) : place ∈ trail position (inner pieces) := by
  induction pieces generalizing position with
  | nil => cases member
  | cons piece rest induction =>
      rw [opened] at member
      split at member
      · cases member
      · rcases List.mem_cons.1 member with rfl | below
        · exact mem_trail_cons.2 (.inr (mem_trail_self _ _))
        · exact mem_trail_cons.2 (.inr (induction below))

theorem mem_opened_of_mem_trail
    (clear : ∀ place ∈ trail position (inner pieces), memory.hasFile place = false)
    {place : Position} (member : place ∈ trail position (inner pieces)) :
    place = position ∨ place ∈ memory.opened position pieces := by
  induction pieces generalizing position with
  | nil => exact .inl (List.mem_singleton.1 member)
  | cons piece rest induction =>
      have below := fun place inside => clear place (mem_trail_cons.2 (.inr inside))
      rw [opened, below _ (mem_trail_self _ _)]
      rcases mem_trail_cons.1 member with rfl | inside
      · exact .inl rfl
      · rcases induction below inside with rfl | further
        · exact .inr List.mem_cons_self
        · exact .inr (List.mem_cons_of_mem _ further)

end

/-- A memory with folders at more positions, where no files were. -/
structure Makes (before after : Memory) (positions : List Position) : Prop where
  folder : after.folder = before.folder
  free : ∀ position ∈ positions, before.hasFile position = false
  item? : ∀ position, after.item? position =
    if position ∈ positions then some .folder else before.item? position

theorem Makes.refl (memory : Memory) : Makes memory memory [] :=
  ⟨rfl, by simp, by simp⟩

theorem makes_self (folder : memory.item? position = some .folder) :
    Makes memory memory [position] := by
  refine ⟨rfl, ?_, ?_⟩
  · intro other member
    rw [List.mem_singleton.1 member, hasFile_of_folder folder]
  · intro other
    by_cases here : other = position <;> simp [here, folder]

theorem makes_put (missing : memory.item? position = none) :
    Makes memory (memory.put position .folder) [position] := by
  refine ⟨rfl, ?_, ?_⟩
  · intro other member
    rw [List.mem_singleton.1 member, hasFile_of_none missing]
  · simp [item?_put]

theorem Makes.hasFile {after : Memory} {positions : List Position}
    (makes : Makes memory after positions) (other : Position) :
    after.hasFile other = memory.hasFile other := by
  by_cases here : other ∈ positions
  · rw [makes.free other here, Memory.hasFile, makes.item?]
    simp [here]
  · simp [Memory.hasFile, makes.item?, here]

theorem Makes.trans {middle after : Memory} {first second : List Position}
    (makes : Makes memory middle first) (more : Makes middle after second) :
    Makes memory after (first ++ second) := by
  refine ⟨more.folder.trans makes.folder, ?_, ?_⟩
  · intro other member
    rcases List.mem_append.1 member with early | late
    · exact makes.free other early
    · rw [← makes.hasFile]
      exact more.free other late
  · intro other
    rw [more.item?, makes.item?]
    by_cases late : other ∈ second <;> simp [late]

def outcome : Option DiskError → Except DiskError Unit
  | none => .ok ()
  | some error => .error error

/-- Folders are made along the trail, up to the first file on it. -/
theorem makeFrom_spec (folder : memory.item? position = some .folder) (made : Bool)
    (pieces : List (List Char)) :
    (memory.makeFrom made position pieces).1 = outcome (memory.blocked? made position pieces) ∧
      Makes memory (memory.makeFrom made position pieces).2 (memory.opened position pieces) := by
  induction pieces generalizing memory made position with
  | nil => exact ⟨rfl, .refl memory⟩
  | cons piece rest induction =>
      simp only [makeFrom, step_of_folder folder, blocked?, opened]
      cases found : memory.item? (goal position (inner [piece])) with
      | none =>
          have makes := makes_put found
          have missing : memory.hasFolder (goal position (inner [piece])) = false := by
            simp [hasFolder, found]
          obtain ⟨told, further⟩ := @induction (memory.put (goal position (inner [piece])) .folder)
            (goal position (inner [piece])) (by simp [item?_put]) true
          -- The folder that was made hides no file on the rest of the way.
          have files := fun place
              (_ : place ∈ trail (goal position (inner [piece])) (inner rest)) =>
            makes.hasFile place
          rw [blocked?_true_congr files] at told
          rw [opened_congr files] at further
          simpa [hasFile_of_none found, missing, told] using makes.trans further
      | some item =>
          cases item with
          | file bytes => simpa [hasFile, found] using ⟨rfl, Makes.refl memory⟩
          | folder =>
              have there : memory.hasFolder (goal position (inner [piece])) = true :=
                hasFolder_iff.2 found
              obtain ⟨told, further⟩ := induction found made
              simpa [hasFile_of_folder found, there, told] using (makes_self found).trans further

theorem IsTree.makeFrom {pieces : List (List Char)} (tree : memory.IsTree)
    (solid : ∀ piece ∈ pieces, '/' ∉ piece) (folder : memory.item? position = some .folder)
    (made : Bool) : (memory.makeFrom made position pieces).2.IsTree := by
  induction pieces generalizing memory made position with
  | nil => exact tree
  | cons piece rest induction =>
      have first := solid piece List.mem_cons_self
      have others := fun other member => solid other (List.mem_cons_of_mem piece member)
      simp only [Memory.makeFrom, step_of_folder folder]
      cases found : memory.item? (goal position (inner [piece])) with
      | none =>
          rcases tree.step_cases folder first with taken | ⟨isName, named⟩
          · simp [found] at taken
          · rw [named] at found ⊢
            have proper : IsName (String.ofList piece).toList := by rwa [String.toList_ofList]
            have more := tree.put folder proper (by simp [found]) .folder
            exact induction more others (by simp [item?_put]) true
      | some item =>
          cases item with
          | file bytes => exact tree
          | folder => exact induction tree others found made

def way (path : Path) (memory : Memory) : List Position :=
  trail (memory.start path) (inner path.pieces)

theorem way_of_folder {first second : Memory} (same : first.folder = second.folder)
    (path : Path) : first.way path = second.way path := by
  rw [way, start_of_folder same, way]

def obstacle? (path : Path) (memory : Memory) : Option DiskError :=
  memory.blocked? false (memory.start path) path.pieces

def openWay (path : Path) (memory : Memory) : List Position :=
  memory.opened (memory.start path) path.pieces

theorem openWay_congr {other : Memory} (folder : memory.folder = other.folder)
    (same : ∀ place ∈ memory.way path, memory.hasFile place = other.hasFile place) :
    memory.openWay path = other.openWay path := by
  rw [openWay, opened_congr same, start_of_folder folder, openWay]

namespace IsTree

variable (tree : memory.IsTree)

include tree

theorem makeFolder_spec (path : Path) :
    (memory.makeFolder path).1 = outcome (memory.obstacle? path) ∧
      (memory.makeFolder path).2.IsTree ∧
      Makes memory (memory.makeFolder path).2 (memory.openWay path) := by
  have folder := tree.start_folder path
  by_cases empty : path.text.isEmpty
  · have none : path.text = "" := by simpa using empty
    have single : path.pieces = [[]] := by simp [Path.pieces, none, Path.splitSlashes]
    have nowhere : goal (memory.start path) (inner [[]]) = memory.start path := rfl
    have clear : memory.obstacle? path = Option.none := by
      simp [obstacle?, single, blocked?, nowhere, hasFile_of_folder folder]
    have here : memory.openWay path = [memory.start path] := by
      simp [openWay, single, opened, nowhere, hasFile_of_folder folder]
    have same : memory.makeFolder path = (.ok (), memory) := by simp [makeFolder, empty]
    rw [clear, here, same]
    exact ⟨rfl, tree, makes_self folder⟩
  · have solid : ∀ piece ∈ path.pieces, '/' ∉ piece := fun _ member =>
      Path.not_mem_of_mem_splitSlashes member
    have same : memory.makeFolder path =
        memory.makeFrom false (memory.start path) path.pieces := by
      simp [makeFolder, empty]
    obtain ⟨told, makes⟩ := makeFrom_spec folder false path.pieces
    rw [same]
    exact ⟨told, tree.makeFrom solid folder false, makes⟩

theorem obstacle?_eq_none_iff (path : Path) :
    memory.obstacle? path = none ↔ ∀ place ∈ memory.way path, memory.hasFile place = false :=
  blocked?_eq_none_iff (hasFile_of_folder (tree.start_folder path))

theorem folder_of_mem_way (open? : memory.obstacle? path = none)
    (member : position ∈ memory.way path) :
    (memory.makeFolder path).2.item? position = some .folder := by
  have makes := (tree.makeFolder_spec path).2.2
  have clear := (tree.obstacle?_eq_none_iff path).1 open?
  rw [makes.item?]
  rcases mem_opened_of_mem_trail clear member with rfl | further
  · simp [tree.start_folder path]
  · exact if_pos further

end IsTree

/-! Paths that lead out of no folder on their way. -/

/-- What is behind something that is missing is missing, unless the path leads out again. -/
theorem IsTree.item?_of_mem_trail (tree : memory.IsTree) {pieces : List (List Char)}
    (missing : memory.item? position = none) (straight : ['.', '.'] ∉ pieces) {place : Position}
    (member : place ∈ trail position (inner pieces)) : memory.item? place = none := by
  induction pieces generalizing position with
  | nil => rwa [List.mem_singleton.1 member]
  | cons piece rest induction =>
      obtain ⟨different, others⟩ := not_or.1 (mt List.mem_cons.2 straight)
      rcases mem_trail_cons.1 member with rfl | below
      · exact missing
      · refine induction ?_ others below
        have inside : position <+: goal position (inner [piece]) := by
          cases stands : innerComponent? piece with
          | none => simp [inner, stands]
          | some component =>
              cases component with
              | name name => simp [inner, stands, move]
              | top | here => simp [inner, stands, move]
              | up => exact absurd (Path.eq_dots_of_innerComponent? stands) (Ne.symm different)
        by_cases same : position = goal position (inner [piece])
        · rwa [← same]
        · exact tree.nothing_below (by simp [missing]) inside same

theorem IsTree.hasFolder_of_behind (tree : memory.IsTree) {pieces : List (List Char)}
    (straight : ['.', '.'] ∉ pieces) (free : memory.hasFile position = false)
    (behind : ¬∀ place ∈ trail position (inner pieces), memory.hasFile place = false) :
    memory.hasFolder position := by
  cases found : memory.item? position with
  | none =>
      exact absurd (fun place member =>
        hasFile_of_none (tree.item?_of_mem_trail found straight member)) behind
  | some item =>
      cases item with
      | folder => exact hasFolder_iff.2 found
      | file bytes => simp [hasFile, found] at free

theorem blocked?_congr {other : Memory} (tree : memory.IsTree) (otherTree : other.IsTree)
    {pieces : List (List Char)} (straight : ['.', '.'] ∉ pieces)
    (same : ∀ place ∈ trail position (inner pieces), memory.hasFile place = other.hasFile place) :
    memory.blocked? false position pieces = other.blocked? false position pieces := by
  induction pieces generalizing position with
  | nil => rfl
  | cons piece rest induction =>
      have onward := (not_or.1 (mt List.mem_cons.2 straight)).2
      have below := fun place member => same place (mem_trail_cons.2 (.inr member))
      have next := below _ (mem_trail_self _ _)
      cases free : memory.hasFile (goal position (inner [piece])) with
      | true => simp [blocked?, ← next, free]
      | false =>
          have otherFree := next.symm.trans free
          by_cases clear : ∀ place ∈ trail (goal position (inner [piece])) (inner rest),
              memory.hasFile place = false
          · have otherClear : ∀ place ∈ trail (goal position (inner [piece])) (inner rest),
                other.hasFile place = false := fun place member =>
              (below place member).symm.trans (clear place member)
            simp only [blocked?, free, otherFree, Bool.false_eq_true, if_false,
              (blocked?_eq_none_iff free).2 clear, (blocked?_eq_none_iff otherFree).2 otherClear]
          · -- there are folders in both memories on the way to a file
            have otherBehind : ¬∀ place ∈ trail (goal position (inner [piece])) (inner rest),
                other.hasFile place = false := fun otherClear =>
              clear fun place member => (below place member).trans (otherClear place member)
            have folder := tree.hasFolder_of_behind onward free clear
            have otherFolder := otherTree.hasFolder_of_behind onward otherFree otherBehind
            simp [blocked?, free, otherFree, folder, otherFolder, induction onward below]

theorem obstacle?_congr {other : Memory} (tree : memory.IsTree) (otherTree : other.IsTree)
    (folder : memory.folder = other.folder) (straight : path.climbs = false)
    (same : ∀ place ∈ memory.way path, memory.hasFile place = other.hasFile place) :
    memory.obstacle? path = other.obstacle? path := by
  have pieces : ['.', '.'] ∉ path.pieces := by simpa [Path.climbs] using straight
  rw [obstacle?, blocked?_congr tree otherTree pieces same, start_of_folder folder, obstacle?]

/-! Whether a memory is a tree can be decided. -/

def reaches (position : Position) (memory : Memory) : Bool :=
  (List.range position.length).all fun count => memory.hasFolder (position.take count)

theorem isTree_iff : memory.IsTree ↔
    (memory.items.map (·.1)).Nodup ∧
      (∀ entry ∈ memory.items, (∀ name ∈ entry.1, IsName name.toList) ∧ memory.reaches entry.1) ∧
      memory.hasFolder memory.folder := by
  simp only [reaches, List.all_eq_true, List.mem_range, hasFolder_iff]
  constructor
  · intro tree
    refine ⟨tree.distinct, fun entry member => ⟨tree.names entry member, ?_⟩, tree.start⟩
    intro count short
    refine tree.folders _ _ (List.take_prefix count entry.1) ?_ (by simp [tree.entries member])
    intro same
    have length := congrArg List.length same
    rw [List.length_take] at length
    omega
  · rintro ⟨distinct, entries, start⟩
    refine ⟨distinct, fun entry member => (entries entry member).1, ?_, start⟩
    intro outer position under different taken
    obtain ⟨item, found⟩ := Option.isSome_iff_exists.1 taken
    have shorter : outer.length < position.length := by
      refine Nat.lt_of_le_of_ne under.length_le fun same => ?_
      exact different (under.eq_of_length same)
    have folder := (entries _ (mem_items found)).2 outer.length shorter
    rwa [← List.prefix_iff_eq_take.1 under] at folder

instance (memory : Memory) : Decidable memory.IsTree := decidable_of_iff' _ isTree_iff

theorem toOption_readText (path : Path) (memory : Memory) :
    (memory.readText path).toOption =
      match memory.at? path with
      | some (.file bytes) => String.fromUTF8? bytes
      | _ => none := by
  cases located : memory.locate path with
  | error error => simp [readText, at?, located, Except.toOption]
  | ok position =>
      cases found : memory.item? position with
      | none => simp [readText, at?, located, found, Except.toOption]
      | some item =>
          cases item with
          | folder => simp [readText, at?, located, found, Except.toOption]
          | file bytes =>
              cases text : String.fromUTF8? bytes <;>
                simp [readText, at?, located, found, text, Except.toOption]

end EditorMarkdown.Command.Memory
