import EditorMarkdown.Command.Path

/-!
Paths by their pieces: the pieces and the components of a path that is joined from two.
-/

namespace EditorMarkdown.Command.Path

theorem splitSlashes_ne_nil (text : List Char) : splitSlashes text ≠ [] := by
  cases text with
  | nil => simp [splitSlashes]
  | cons c rest =>
      unfold splitSlashes
      split
      · simp
      · split <;> simp

theorem splitSlashes_slash (rest : List Char) :
    splitSlashes ('/' :: rest) = [] :: splitSlashes rest := rfl

theorem splitSlashes_cons {c : Char} (solid : c ≠ '/') (rest : List Char) :
    ∃ piece pieces, splitSlashes rest = piece :: pieces ∧
      splitSlashes (c :: rest) = (c :: piece) :: pieces := by
  obtain ⟨piece, pieces, found⟩ := List.exists_cons_of_ne_nil (splitSlashes_ne_nil rest)
  refine ⟨piece, pieces, found, ?_⟩
  simp [splitSlashes, solid, found]

theorem splitSlashes_of_not_mem {piece : List Char} (solid : '/' ∉ piece) :
    splitSlashes piece = [piece] := by
  induction piece with
  | nil => rfl
  | cons c rest induction =>
      obtain ⟨first, others⟩ := not_or.1 (mt List.mem_cons.2 solid)
      simp [splitSlashes, Ne.symm first, induction others]

theorem splitSlashes_append (front back : List Char) :
    splitSlashes (front ++ '/' :: back) = splitSlashes front ++ splitSlashes back := by
  induction front with
  | nil => rfl
  | cons c rest induction =>
      by_cases slash : c = '/'
      · subst slash
        rw [List.cons_append, splitSlashes_slash, splitSlashes_slash, induction, List.cons_append]
      · obtain ⟨piece, pieces, found, front⟩ := splitSlashes_cons slash rest
        rw [front, List.cons_append]
        simp [splitSlashes, slash, induction, found]

theorem not_mem_of_mem_splitSlashes {piece text : List Char} (member : piece ∈ splitSlashes text) :
    '/' ∉ piece := by
  induction text generalizing piece with
  | nil =>
      cases List.mem_singleton.1 member
      simp
  | cons c rest induction =>
      by_cases slash : c = '/'
      · subst slash
        rcases List.mem_cons.1 member with rfl | inside
        · simp
        · exact induction inside
      · obtain ⟨first, pieces, found, whole⟩ := splitSlashes_cons slash rest
        rw [whole] at member
        rw [found] at induction
        rcases List.mem_cons.1 member with rfl | inside
        · have := induction List.mem_cons_self
          simp [Ne.symm slash, this]
        · exact induction (List.mem_cons_of_mem _ inside)

theorem solid_of_pieces {path : Path} {before : List (List Char)} {piece : List Char}
    (shape : path.pieces = before ++ [piece]) : '/' ∉ piece := by
  have inside : piece ∈ path.pieces := by simp [shape]
  exact not_mem_of_mem_splitSlashes inside

theorem splitSlashes_joinSlashes {pieces : List (List Char)} (filled : pieces ≠ [])
    (solid : ∀ piece ∈ pieces, '/' ∉ piece) : splitSlashes (joinSlashes pieces) = pieces := by
  induction pieces with
  | nil => exact absurd rfl filled
  | cons piece rest induction =>
      have first := splitSlashes_of_not_mem (solid piece List.mem_cons_self)
      cases rest with
      | nil => exact first
      | cons next rest =>
          have others := induction (by simp) fun other member =>
            solid other (List.mem_cons_of_mem _ member)
          rw [joinSlashes, splitSlashes_append, first, others]
          rfl

theorem joinSlashes_splitSlashes (text : List Char) : joinSlashes (splitSlashes text) = text := by
  induction text with
  | nil => rfl
  | cons c rest induction =>
      by_cases slash : c = '/'
      · subst slash
        obtain ⟨second, others, found⟩ := List.exists_cons_of_ne_nil (splitSlashes_ne_nil rest)
        rw [splitSlashes_slash, found, joinSlashes, ← found, induction, List.nil_append]
      · obtain ⟨piece, pieces, found, whole⟩ := splitSlashes_cons slash rest
        rw [found] at induction
        rw [whole, ← induction]
        cases pieces <;> rfl

theorem joinSlashes_concat_append (before : List (List Char)) (piece tail : List Char) :
    joinSlashes (before ++ [piece]) ++ tail = joinSlashes (before ++ [piece ++ tail]) := by
  induction before with
  | nil => rfl
  | cons first rest induction =>
      cases rest with
      | nil => simp [joinSlashes]
      | cons next rest =>
          simp only [List.cons_append, joinSlashes, List.append_assoc] at induction ⊢
          rw [induction]

theorem splitSlashes_joinSlashes_concat {before : List (List Char)} {piece : List Char}
    (clear : ∀ piece ∈ before, '/' ∉ piece) (last : '/' ∉ piece) :
    splitSlashes (joinSlashes (before ++ [piece])) = before ++ [piece] := by
  apply splitSlashes_joinSlashes (by simp)
  intro other member
  rcases List.mem_append.1 member with earlier | same
  · exact clear other earlier
  · rwa [List.mem_singleton.1 same]

/-- A piece that names something. -/
structure IsName (piece : List Char) : Prop where
  solid : '/' ∉ piece
  filled : piece ≠ []
  notHere : piece ≠ ['.']
  notUp : piece ≠ ['.', '.']

theorem isName_iff {piece : List Char} :
    IsName piece ↔ '/' ∉ piece ∧ piece ≠ [] ∧ piece ≠ ['.'] ∧ piece ≠ ['.', '.'] :=
  ⟨fun isName => ⟨isName.solid, isName.filled, isName.notHere, isName.notUp⟩,
    fun ⟨solid, filled, notHere, notUp⟩ => ⟨solid, filled, notHere, notUp⟩⟩

instance (piece : List Char) : Decidable (IsName piece) := decidable_of_iff' _ isName_iff

theorem IsName.innerComponent? {piece : List Char} (isName : IsName piece) :
    innerComponent? piece = some (.name (String.ofList piece)) := by
  simp [Path.innerComponent?, isName.filled, isName.notHere, isName.notUp]

theorem isName_of_innerComponent? {piece : List Char} {name : String} (solid : '/' ∉ piece)
    (stands : innerComponent? piece = some (.name name)) :
    IsName piece ∧ name = String.ofList piece := by
  unfold innerComponent? at stands
  split at stands
  · cases stands
  · next substantial =>
      split at stands
      · cases stands
      · next notUp =>
          simp only [Bool.or_eq_true, List.isEmpty_iff, decide_eq_true_eq, not_or] at substantial
          simp only [Option.some.injEq, Component.name.injEq] at stands
          exact ⟨⟨solid, substantial.1, substantial.2, notUp⟩, stands.symm⟩

theorem eq_dots_of_innerComponent? {piece : List Char} (stands : innerComponent? piece = some .up) :
    piece = ['.', '.'] := by
  unfold innerComponent? at stands
  split at stands
  · cases stands
  · split at stands
    · assumption
    · cases stands

/-- Whether a path leads out of a folder on its way. -/
def climbs (path : Path) : Bool := path.pieces.contains ['.', '.']

theorem innerComponent?_ne_top (piece : List Char) : innerComponent? piece ≠ some .top := by
  unfold innerComponent?
  by_cases up : piece = ['.', '.']
  · simp [up]
  · simp [up]

/-- A path whose last piece is a name. -/
def Names (path : Path) : Prop := ∃ before piece, path.pieces = before ++ [piece] ∧ IsName piece

theorem isAbsolute_iff (path : Path) :
    path.isAbsolute ↔ ∃ second rest, path.pieces = [] :: second :: rest := by
  unfold isAbsolute pieces
  cases path.text.toList with
  | nil => simp [splitSlashes]
  | cons c rest =>
      by_cases slash : c = '/'
      · subst slash
        obtain ⟨second, others, found⟩ := List.exists_cons_of_ne_nil (splitSlashes_ne_nil rest)
        simp [splitSlashes_slash, found]
      · obtain ⟨piece, pieces, -, whole⟩ := splitSlashes_cons slash rest
        simp [slash, whole]

theorem isAbsolute_of_pieces {first second : Path} {before : List (List Char)}
    {one other : List Char} (oneFilled : one ≠ []) (otherFilled : other ≠ [])
    (firstPieces : first.pieces = before ++ [one])
    (secondPieces : second.pieces = before ++ [other]) :
    first.isAbsolute = second.isAbsolute := by
  rw [Bool.eq_iff_iff, isAbsolute_iff, isAbsolute_iff, firstPieces, secondPieces]
  cases before with
  | nil => simp [oneFilled, otherFilled]
  | cons piece rest => cases rest <;> simp

/-! Joined paths. -/

theorem pieces_ofNames {names : List String} (filled : names ≠ [])
    (valid : ∀ name ∈ names, IsName name.toList) :
    (ofNames names).pieces = names.map String.toList := by
  rw [pieces, ofNames, String.toList_ofList]
  apply splitSlashes_joinSlashes
  · simpa using filled
  · intro piece member
    obtain ⟨name, inside, rfl⟩ := List.mem_map.1 member
    exact (valid name inside).solid

def leading (path : Path) : List (List Char) :=
  if path.text.isEmpty then []
  else if path.text.toList.getLast? = some '/' then path.pieces.dropLast
  else path.pieces

theorem pieces_join {path relative : Path} (below : relative.isAbsolute = false) :
    (path.join relative).pieces = path.leading ++ relative.pieces := by
  by_cases empty : path.text.isEmpty
  · simp [join, leading, below, empty]
  · by_cases closed : path.text.toList.getLast? = some '/'
    · obtain ⟨front, whole⟩ := List.getLast?_eq_some_iff.1 closed
      have joined : path.join relative = ⟨path.text ++ relative.text⟩ := by
        simp [join, below, empty, closed]
      have lead : path.leading = path.pieces.dropLast := by simp [leading, empty, closed]
      rw [joined, lead, pieces, pieces, pieces, String.toList_append, whole, List.append_assoc,
        List.singleton_append, splitSlashes_append, splitSlashes_append]
      simp [splitSlashes]
    · have joined : path.join relative = ⟨path.text ++ "/" ++ relative.text⟩ := by
        simp [join, below, empty, closed]
      have lead : path.leading = path.pieces := by simp [leading, empty, closed]
      have slash : "/".toList = ['/'] := rfl
      rw [joined, lead, pieces, pieces, pieces, String.toList_append, String.toList_append, slash,
        List.append_assoc, List.singleton_append, splitSlashes_append]

theorem pieces_eq_leading (path : Path) :
    path.pieces = path.leading ∨ path.pieces = path.leading ++ [[]] := by
  unfold leading
  split
  · next empty =>
      have none : path.text = "" := by simpa using empty
      right
      simp [pieces, none, splitSlashes]
  · split
    · next closed =>
        obtain ⟨front, whole⟩ := List.getLast?_eq_some_iff.1 closed
        right
        rw [pieces, whole, splitSlashes_append]
        simp [splitSlashes]
    · left
      rfl

theorem isAbsolute_join {path relative : Path} (below : relative.isAbsolute = false) :
    (path.join relative).isAbsolute = path.isAbsolute := by
  unfold join
  by_cases empty : path.text.isEmpty
  · have none : path.text = "" := by simpa using empty
    rw [if_pos (by simp [empty]), below]
    simp [none, isAbsolute]
  · obtain ⟨c, rest, whole⟩ : ∃ c rest, path.text.toList = c :: rest := by
      apply List.exists_cons_of_ne_nil
      simpa using empty
    rw [if_neg (by simp [below, empty])]
    split <;> simp [isAbsolute, whole]

/-! Components are those of the pieces. -/

def componentsOf (absolute : Bool) : List (List Char) → List Component
  | [] => []
  | first :: rest => (firstComponent? absolute first).toList ++ rest.filterMap innerComponent?

theorem components_eq (path : Path) :
    path.components = componentsOf path.isAbsolute path.pieces := by
  unfold components componentsOf
  cases path.pieces <;> rfl

theorem componentsOf_append {absolute : Bool} {before after : List (List Char)}
    (opened : before = [] → absolute = false) (named : ∀ piece ∈ after, piece ≠ ['.']) :
    componentsOf absolute (before ++ after) =
      componentsOf absolute before ++ after.filterMap innerComponent? := by
  cases before with
  | cons first rest => simp [componentsOf]
  | nil =>
      cases after with
      | nil => rfl
      | cons piece rest =>
          have notHere := named piece List.mem_cons_self
          simp only [List.nil_append, componentsOf, opened rfl, firstComponent?, notHere]
          cases stands : innerComponent? piece <;> simp [stands]

theorem top_mem_components (path : Path) : .top ∈ path.components ↔ path.isAbsolute := by
  have inside : ∀ pieces : List (List Char), Component.top ∉ pieces.filterMap innerComponent? := by
    intro pieces member
    obtain ⟨piece, -, stands⟩ := List.mem_filterMap.1 member
    exact innerComponent?_ne_top piece stands
  rw [components_eq]
  cases absolute : path.isAbsolute with
  | true =>
      obtain ⟨second, rest, shape⟩ := (isAbsolute_iff path).1 absolute
      simp [shape, componentsOf, firstComponent?]
  | false =>
      cases shape : path.pieces with
      | nil => simp [componentsOf]
      | cons first rest =>
          by_cases here : first = ['.']
          · simp [componentsOf, firstComponent?, here, inside]
          · have notTop := innerComponent?_ne_top first
            simp [componentsOf, firstComponent?, here, inside, notTop]

theorem not_isAbsolute_of_leading {path : Path} (none : path.leading = []) :
    path.isAbsolute = false := by
  apply eq_false_of_ne_true
  intro absolute
  obtain ⟨_, _, shape⟩ := (isAbsolute_iff path).1 absolute
  rcases pieces_eq_leading path with same | same <;> simp [same, none] at shape

theorem components_eq_leading (path : Path) :
    path.components = componentsOf path.isAbsolute path.leading := by
  rw [components_eq]
  rcases pieces_eq_leading path with same | same
  · rw [same]
  · rw [same, componentsOf_append not_isAbsolute_of_leading (by simp)]
    simp [innerComponent?]

theorem filterMap_leading (path : Path) :
    path.leading.filterMap innerComponent? = path.pieces.filterMap innerComponent? := by
  rcases pieces_eq_leading path with same | same
  · rw [same]
  · simp [same, innerComponent?]

theorem filterMap_names {names : List String} (valid : ∀ name ∈ names, IsName name.toList) :
    (names.map String.toList).filterMap innerComponent? = names.map .name := by
  induction names with
  | nil => rfl
  | cons name rest induction =>
      have first := (valid name List.mem_cons_self).innerComponent?
      rw [String.ofList_toList] at first
      have others := induction fun other member => valid other (List.mem_cons_of_mem _ member)
      simp [first, others]

theorem not_isAbsolute_ofNames {names : List String} (filled : names ≠ [])
    (valid : ∀ name ∈ names, IsName name.toList) : (ofNames names).isAbsolute = false := by
  apply eq_false_of_ne_true
  intro absolute
  obtain ⟨_, _, shape⟩ := (isAbsolute_iff _).1 absolute
  rw [pieces_ofNames filled valid] at shape
  cases names with
  | nil => exact filled rfl
  | cons name rest =>
      have first := (valid name List.mem_cons_self).filled
      simp only [List.map_cons, List.cons.injEq] at shape
      exact first shape.1

section

variable (path : Path) {names : List String} (filled : names ≠ [])
  (valid : ∀ name ∈ names, IsName name.toList)

include filled valid

theorem pieces_join_names :
    (path.join (ofNames names)).pieces = path.leading ++ names.map String.toList := by
  rw [pieces_join (not_isAbsolute_ofNames filled valid), pieces_ofNames filled valid]

theorem components_join_names :
    (path.join (ofNames names)).components = path.components ++ names.map .name := by
  rw [components_eq, isAbsolute_join (not_isAbsolute_ofNames filled valid),
    pieces_join_names path filled valid, componentsOf_append not_isAbsolute_of_leading,
    filterMap_names valid, components_eq_leading]
  intro piece member
  obtain ⟨name, inside, rfl⟩ := List.mem_map.1 member
  exact (valid name inside).notHere

end

theorem pieces_join_concat (path : Path) {outer : List String} {last : String}
    (valid : ∀ name ∈ outer ++ [last], IsName name.toList) :
    (path.join (ofNames (outer ++ [last]))).pieces =
      (path.leading ++ outer.map String.toList) ++ [last.toList] := by
  rw [pieces_join_names path (by simp) valid]
  simp

end EditorMarkdown.Command.Path
