import EditorMarkdown.Proofs.Command.Path

/-!
The pieces of a path with another extension, and of the parent of a path.
-/

namespace EditorMarkdown.Command.Path

theorem splitName?_dot (stem : List Char) {old : List Char} (bare : '.' ∉ old) :
    splitName? (stem ++ '.' :: old) = if stem.isEmpty then none else some (stem, old) := by
  have solid : ∀ c ∈ old.reverse, decide (c ≠ '.') := by
    intro c member
    have inside := List.mem_reverse.1 member
    simp only [decide_eq_true_eq]
    rintro rfl
    exact bare inside
  have after : ((stem ++ '.' :: old).reverse.takeWhile (· ≠ '.')).reverse = old := by
    rw [List.reverse_append, List.reverse_cons, List.append_assoc,
      List.takeWhile_append_of_pos solid]
    simp
  have length : (stem ++ '.' :: old).length - old.length - 1 = stem.length := by
    simp only [List.length_append, List.length_cons]
    omega
  have longer : old.length ≠ (stem ++ '.' :: old).length := by
    simp only [List.length_append, List.length_cons]
    omega
  simp only [splitName?, after, length, List.take_left, decide_eq_false longer, Bool.false_or]

theorem exists_of_splitName? {name stem old : List Char}
    (split : splitName? name = some (stem, old)) :
    name = stem ++ '.' :: old ∧ '.' ∉ old ∧ stem ≠ [] := by
  have parts := @List.takeWhile_append_dropWhile _ (fun c => decide (c ≠ '.')) name.reverse
  have solid := @List.all_takeWhile _ (fun c => decide (c ≠ '.')) name.reverse
  cases rest : name.reverse.dropWhile (fun c => decide (c ≠ '.')) with
  | nil =>
      rw [rest, List.append_nil] at parts
      simp only [splitName?, parts] at split
      simp at split
  | cons c others =>
      have stops := List.head?_dropWhile_not (fun c => decide (c ≠ '.')) name.reverse
      rw [rest] at parts stops
      have dot : c = '.' := by simpa using stops
      subst dot
      generalize name.reverse.takeWhile (fun c => decide (c ≠ '.')) = run at parts solid
      have bare : '.' ∉ run.reverse := by
        intro member
        have := List.all_eq_true.1 solid '.' (List.mem_reverse.1 member)
        simp at this
      have whole : name = others.reverse ++ '.' :: run.reverse := by
        rw [← List.reverse_inj, ← parts]
        simp
      rw [whole, splitName?_dot _ bare] at split
      split at split
      · cases split
      · next filled =>
          simp only [Option.some.injEq, Prod.mk.injEq] at split
          obtain ⟨rfl, rfl⟩ := split
          exact ⟨whole, bare, by simpa using filled⟩

theorem getLast?_components {path : Path} {before : List (List Char)} {piece : List Char}
    {component : Component} (shape : path.pieces = before ++ [piece])
    (stands : innerComponent? piece = some component) :
    path.components.getLast? = some component := by
  have filled : piece ≠ [] := by
    rintro rfl
    simp [innerComponent?] at stands
  unfold components
  cases before with
  | nil =>
      have below : path.isAbsolute = false := by
        apply eq_false_of_ne_true
        intro absolute
        obtain ⟨_, _, same⟩ := (isAbsolute_iff path).1 absolute
        simp [shape] at same
      have notHere : piece ≠ ['.'] := by
        rintro rfl
        simp [innerComponent?] at stands
      simp [shape, below, firstComponent?, notHere, stands]
  | cons first rest => simp [shape, stands]

theorem name?_eq {path : Path} {before : List (List Char)} {name : List Char}
    (shape : path.pieces = before ++ [name]) (isName : IsName name) :
    path.name? = some (String.ofList name) := by
  rw [name?, getLast?_components shape isName.innerComponent?]

theorem name?_up {path : Path} {before : List (List Char)}
    (shape : path.pieces = before ++ [['.', '.']]) : path.name? = none := by
  have stands : innerComponent? ['.', '.'] = some .up := rfl
  rw [name?, getLast?_components shape stands]

theorem trimPieces_concat (before : List (List Char)) {piece : List Char} {component : Component}
    (stands : innerComponent? piece = some component) :
    trimPieces (before ++ [piece]) = before ++ [piece] := by
  simp [trimPieces, stands]

theorem replaceName_eq {path : Path} {before : List (List Char)} {piece : List Char}
    {component : Component} (shape : path.pieces = before ++ [piece])
    (stands : innerComponent? piece = some component) (word : List Char) :
    path.replaceName word = joinSlashes (before ++ [word]) := by
  unfold replaceName
  cases before with
  | nil => simp [shape, trimPieces, joinSlashes]
  | cons first rest =>
      have kept := trimPieces_concat rest stands
      have filled : rest ++ [piece] ≠ [] := by simp
      have dropped : (rest ++ [piece]).dropLast = rest := List.dropLast_concat
      rw [shape, List.cons_append]
      simp only [kept]
      generalize rest ++ [piece] = inner at filled dropped
      cases inner with
      | nil => exact absurd rfl filled
      | cons next others =>
          rw [← dropped]
          rfl

/-- The name that stands for another one with a new extension. A name of nothing but a dot before
its extension becomes the way up. -/
def renamed (stem : List Char) (extension : String) : List Char :=
  if stem = ['.'] then ['.', '.'] else stem ++ '.' :: extension.toList

theorem renamed_ne_nil (stem : List Char) (extension : String) : renamed stem extension ≠ [] := by
  unfold renamed
  split <;> simp

theorem isName_stem {stem : List Char} (solid : '/' ∉ stem) (filled : stem ≠ [])
    (notHere : stem ≠ ['.']) : IsName (stem ++ ['.']) := by
  refine ⟨by simpa using solid, by simp, by simpa using filled, ?_⟩
  intro up
  apply notHere
  have same : stem ++ ['.'] = ['.'] ++ ['.'] := up
  exact List.append_cancel_right same

theorem setExtension_stem {path : Path} {before : List (List Char)} {stem : List Char}
    (shape : path.pieces = before ++ [stem ++ ['.']]) (clear : ∀ piece ∈ before, '/' ∉ piece)
    (stemSolid : '/' ∉ stem) (filled : stem ≠ []) {extension : String}
    (solid : '/' ∉ extension.toList) :
    (path.setExtension extension).pieces = before ++ [renamed stem extension] := by
  unfold renamed
  split
  · next up =>
      subst up
      rw [setExtension, name?_up shape]
      exact shape
  · next notHere =>
      have isName := isName_stem stemSolid filled notHere
      have split : splitName? (stem ++ ['.']) = some (stem, []) := by
        rw [splitName?_dot stem List.not_mem_nil, if_neg (by simpa using filled)]
      rw [setExtension, name?_eq shape isName]
      simp only [String.toList_ofList, split, Option.map_some, Option.getD_some,
        replaceName_eq shape isName.innerComponent?]
      rw [pieces, String.toList_ofList, joinSlashes_concat_append]
      exact splitSlashes_joinSlashes_concat clear (by simp [stemSolid, solid])

theorem pieces_withExtension {path : Path} {before : List (List Char)} {name stem old : List Char}
    (shape : path.pieces = before ++ [name]) (isName : IsName name)
    (split : splitName? name = some (stem, old)) {extension : String}
    (solid : '/' ∉ extension.toList) :
    (path.withExtension extension).pieces = before ++ [renamed stem extension] := by
  obtain ⟨whole, -, filled⟩ := exists_of_splitName? split
  have clear : ∀ piece ∈ before, '/' ∉ piece := by
    intro piece member
    have inside : piece ∈ path.pieces := shape ▸ List.mem_append_left _ member
    exact not_mem_of_mem_splitSlashes inside
  have stemSolid : '/' ∉ stem := by
    intro member
    apply isName.solid
    rw [whole]
    exact List.mem_append_left _ member
  have found : path.extension? = some (String.ofList old) := by
    simp [extension?, name?_eq shape isName, split]
  have text : path.text.toList = joinSlashes (before ++ [stem ++ ['.']]) ++ old := by
    rw [joinSlashes_concat_append, List.append_assoc, List.singleton_append, ← whole, ← shape]
    exact (joinSlashes_splitSlashes _).symm
  have cut : path.text.toList.take (path.text.toList.length - (String.ofList old).length) =
      joinSlashes (before ++ [stem ++ ['.']]) := by
    simp [text]
  simp only [withExtension, found, cut]
  refine setExtension_stem ?_ clear stemSolid filled solid
  rw [pieces, String.toList_ofList]
  exact splitSlashes_joinSlashes_concat clear (by simp [stemSolid])

theorem isName_renamed {stem : List Char} (stemSolid : '/' ∉ stem) (filled : stem ≠ [])
    (notHere : stem ≠ ['.']) {extension : String} (solid : '/' ∉ extension.toList)
    (extended : extension.toList ≠ []) : IsName (renamed stem extension) := by
  have long : 3 ≤ (stem ++ '.' :: extension.toList).length := by
    have := List.length_pos_iff.2 filled
    have := List.length_pos_iff.2 extended
    simp only [List.length_append, List.length_cons]
    omega
  rw [renamed, if_neg notHere]
  refine ⟨by simp [stemSolid, solid], by simp, ?_, ?_⟩
  · intro same
    rw [same] at long
    contradiction
  · intro same
    rw [same] at long
    contradiction

/-! Parents. -/

theorem exists_trimPieces (pieces : List (List Char)) :
    ∃ skipped, pieces = trimPieces pieces ++ skipped ∧ skipped.filterMap innerComponent? = [] := by
  refine ⟨(pieces.reverse.takeWhile fun piece => (innerComponent? piece).isNone).reverse, ?_, ?_⟩
  · rw [trimPieces, ← List.reverse_append, List.takeWhile_append_dropWhile, List.reverse_reverse]
  · rw [List.filterMap_eq_nil_iff]
    intro piece member
    have all := @List.all_takeWhile _ (fun piece => (innerComponent? piece).isNone) pieces.reverse
    have none := List.all_eq_true.1 all piece (List.mem_reverse.1 member)
    simpa using none

structure IsParent (path parent : Path) (before : List (List Char)) : Prop where
  components : parent.pieces.filterMap innerComponent? = before.filterMap innerComponent?
  nowhere : before = [] → parent.text = ""
  somewhere : before ≠ [] → parent.text ≠ ""
  absolute : before ≠ [] → parent.isAbsolute = path.isAbsolute

variable {path : Path} {piece : List Char} {component : Component}

theorem parent?_single (shape : path.pieces = [piece])
    (stands : innerComponent? piece = some component) : path.parent? = some ⟨""⟩ := by
  have below : path.isAbsolute = false := by
    apply eq_false_of_ne_true
    intro absolute
    obtain ⟨_, _, same⟩ := (isAbsolute_iff path).1 absolute
    simp [shape] at same
  have notHere : piece ≠ ['.'] := by
    rintro rfl
    simp [innerComponent?] at stands
  have notTop := innerComponent?_ne_top piece
  have first : firstComponent? path.isAbsolute piece = some component := by
    simp [firstComponent?, below, notHere, stands]
  have nothing : trimPieces [] = [] := rfl
  rw [stands] at notTop
  simp only [parent?, shape, nothing, first]
  cases component <;> simp at notTop ⊢

theorem isParent_top {first : List Char} {rest : List (List Char)}
    (shape : path.pieces = first :: (rest ++ [piece]))
    (bare : rest.filterMap innerComponent? = []) :
    IsParent path (if path.isAbsolute then ⟨"/"⟩ else ⟨String.ofList first⟩) (first :: rest) := by
  have clear : '/' ∉ first := by
    have inside : first ∈ path.pieces := by rw [shape]; exact List.mem_cons_self
    exact not_mem_of_mem_splitSlashes inside
  cases absolute : path.isAbsolute with
  | true =>
      obtain ⟨second, others, same⟩ := (isAbsolute_iff path).1 absolute
      obtain ⟨rfl, -⟩ := List.cons.inj (shape.symm.trans same)
      refine ⟨?_, by simp, by simp, fun _ => absolute.symm⟩
      rw [List.filterMap_cons, bare]
      rfl
  | false =>
      have filled : first ≠ [] := by
        rintro rfl
        have more : ∃ second others, rest ++ [piece] = second :: others :=
          List.exists_cons_of_ne_nil (by simp)
        obtain ⟨second, others, same⟩ := more
        rw [same] at shape
        rw [(isAbsolute_iff path).2 ⟨second, others, shape⟩] at absolute
        cases absolute
      have single : Path.pieces ⟨String.ofList first⟩ = [first] := by
        rw [pieces, String.toList_ofList, splitSlashes_of_not_mem clear]
      refine ⟨?_, by simp, ?_, fun _ => ?_⟩
      · simp only [Bool.false_eq_true, if_false, single, List.filterMap_cons, bare]
        rfl
      · simpa using filled
      · rw [absolute]
        apply eq_false_of_ne_true
        intro top
        obtain ⟨_, _, same⟩ := (isAbsolute_iff _).1 top
        simp [single] at same

theorem isParent_joined {first : List Char} {rest kept : List (List Char)}
    (shape : path.pieces = first :: (rest ++ [piece])) (trimmed : trimPieces rest = kept)
    (filled : kept ≠ []) :
    IsParent path ⟨String.ofList (joinSlashes (first :: kept))⟩ (first :: rest) := by
  obtain ⟨skipped, whole, bare⟩ := exists_trimPieces rest
  rw [trimmed] at whole
  have joined : Path.pieces ⟨String.ofList (joinSlashes (first :: kept))⟩ = first :: kept := by
    rw [pieces, String.toList_ofList]
    apply splitSlashes_joinSlashes (by simp)
    intro other member
    have inside : other ∈ path.pieces := by
      rw [shape, whole]
      rcases List.mem_cons.1 member with same | below
      · simp [same]
      · simp [below]
    exact not_mem_of_mem_splitSlashes inside
  refine ⟨?_, by simp, fun _ => ?_, fun _ => ?_⟩
  · rw [joined, whole, ← List.cons_append, List.filterMap_append, bare, List.append_nil]
  · intro empty
    have none : joinSlashes (first :: kept) = [] := by simpa using empty
    rw [pieces, String.toList_ofList, none] at joined
    simp [splitSlashes, Ne.symm filled] at joined
  · obtain ⟨next, others, rfl⟩ := List.exists_cons_of_ne_nil filled
    rw [Bool.eq_iff_iff, isAbsolute_iff, isAbsolute_iff, joined, shape, whole]
    simp

theorem parent?_eq {first : List Char} {rest : List (List Char)}
    (shape : path.pieces = first :: (rest ++ [piece]))
    (stands : innerComponent? piece = some component) :
    path.parent? =
      match trimPieces rest with
      | [] => some (if path.isAbsolute then ⟨"/"⟩ else ⟨String.ofList first⟩)
      | kept => some ⟨String.ofList (joinSlashes (first :: kept))⟩ := by
  have whole := trimPieces_concat rest stands
  have dropped : (rest ++ [piece]).dropLast = rest := List.dropLast_concat
  have filled : rest ++ [piece] ≠ [] := by simp
  simp only [parent?, shape]
  generalize rest ++ [piece] = inner at whole dropped filled
  obtain ⟨next, others, rfl⟩ := List.exists_cons_of_ne_nil filled
  cases trimmed : trimPieces rest with
  | nil => simp only [whole, dropped, trimmed]
  | cons piece kept => simp only [whole, dropped, trimmed]

theorem exists_parent {before : List (List Char)} (shape : path.pieces = before ++ [piece])
    (stands : innerComponent? piece = some component) :
    ∃ parent, path.parent? = some parent ∧ IsParent path parent before := by
  cases before with
  | nil => exact ⟨⟨""⟩, parent?_single shape stands, rfl, fun _ => rfl, by simp, by simp⟩
  | cons first rest =>
      have found := parent?_eq shape stands
      cases trimmed : trimPieces rest with
      | nil =>
          obtain ⟨skipped, same, bare⟩ := exists_trimPieces rest
          rw [trimmed, List.nil_append] at same
          rw [trimmed] at found
          exact ⟨_, found, isParent_top shape (same ▸ bare)⟩
      | cons next others =>
          rw [trimmed] at found
          exact ⟨_, found, isParent_joined shape trimmed (by simp)⟩

end EditorMarkdown.Command.Path
