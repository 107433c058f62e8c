import EditorMarkdown.Document.Schema

/-!
Marks in the order of their ranks. Adding a mark to marks in this order keeps the order, and gives
back the marks from which the mark was taken away.
-/

namespace EditorMarkdown.Document.Schema

variable {schema : Schema}

def Ranked (schema : Schema) (marks : List Mark) : Prop :=
  marks.Pairwise fun first second => schema.rank first.type < schema.rank second.type

theorem rank_lt_length_iff {name : String} :
    schema.rank name < schema.marks.length ↔ (schema.markSpec? name).isSome := by
  simp [rank, markSpec?, List.findIdx_lt_length]

theorem name_getElem_rank {name : String} (declared : schema.rank name < schema.marks.length) :
    schema.marks[schema.rank name].name = name := by
  have found : decide (schema.marks[schema.rank name].name = name) = true :=
    List.findIdx_getElem (p := fun spec : MarkSpec => decide (spec.name = name))
  exact of_decide_eq_true found

theorem eq_of_rank_eq {first second : String} (declared : (schema.markSpec? first).isSome)
    (equality : schema.rank first = schema.rank second) : first = second := by
  have bounded := rank_lt_length_iff.2 declared
  have name := name_getElem_rank bounded
  have otherName := name_getElem_rank (equality ▸ bounded)
  simp only [← equality] at otherName
  exact name.symm.trans otherName

theorem mem_replaceMark {mark other : Mark} :
    ∀ {marks : List Mark}, other ∈ replaceMark mark marks → other = mark ∨ other ∈ marks
  | [], member => by simp [replaceMark] at member
  | next :: rest, member => by
      simp only [replaceMark] at member
      split at member
      · rcases List.mem_cons.1 member with equality | inRest
        · exact .inl equality
        · exact .inr (List.mem_cons_of_mem _ inRest)
      · rcases List.mem_cons.1 member with equality | inRest
        · exact .inr (by simp [equality])
        · rcases mem_replaceMark inRest with equality | older
          · exact .inl equality
          · exact .inr (List.mem_cons_of_mem _ older)

theorem types_replaceMark (mark : Mark) (marks : List Mark) :
    (replaceMark mark marks).map Mark.type = marks.map Mark.type := by
  induction marks with
  | nil => rfl
  | cons next rest induction =>
      simp only [replaceMark]
      split
      · next equality => simp [equality]
      · simp [induction]

theorem placeMark_perm (mark : Mark) (marks : List Mark) :
    (placeMark schema mark marks).Perm (mark :: marks) := by
  induction marks with
  | nil => exact .refl _
  | cons next rest induction =>
      simp only [placeMark]
      split
      · exact .refl _
      · exact (induction.cons next).trans (.swap mark next rest)

theorem mem_placeMark {mark other : Mark} {marks : List Mark}
    (member : other ∈ placeMark schema mark marks) : other = mark ∨ other ∈ marks :=
  List.mem_cons.1 ((placeMark_perm mark marks).mem_iff.1 member)

theorem mem_addMark {mark other : Mark} {marks : List Mark}
    (member : other ∈ schema.addMark mark marks) : other = mark ∨ other ∈ marks := by
  simp only [addMark] at member
  split at member
  · exact mem_replaceMark member
  · exact mem_placeMark member

theorem ranked_iff {marks : List Mark} :
    schema.Ranked marks ↔
      (marks.map Mark.type).Pairwise fun first second =>
        schema.rank first < schema.rank second := by
  simp [Ranked, List.pairwise_map]

theorem ranked_placeMark {mark : Mark} (declared : (schema.markSpec? mark.type).isSome) :
    ∀ {marks : List Mark}, schema.Ranked marks → (∀ other ∈ marks, other.type ≠ mark.type) →
      schema.Ranked (placeMark schema mark marks)
  | [], _, _ => by simp [placeMark, Ranked]
  | next :: rest, ranked, new => by
      obtain ⟨below, rankedRest⟩ := List.pairwise_cons.1 ranked
      simp only [placeMark]
      split
      · next less =>
          refine List.pairwise_cons.2 ⟨fun other member => ?_, ranked⟩
          rcases List.mem_cons.1 member with rfl | inRest
          · exact less
          · exact Nat.lt_trans less (below other inRest)
      · next notLess =>
          have differs : schema.rank next.type ≠ schema.rank mark.type := fun equality =>
            new next (by simp) (eq_of_rank_eq declared equality.symm).symm
          refine List.pairwise_cons.2 ⟨fun other member => ?_,
            ranked_placeMark declared rankedRest fun other member =>
              new other (List.mem_cons_of_mem _ member)⟩
          rcases mem_placeMark member with rfl | inRest
          · omega
          · exact below other inRest

theorem ranked_addMark {mark : Mark} (declared : (schema.markSpec? mark.type).isSome)
    {marks : List Mark} (ranked : schema.Ranked marks) :
    schema.Ranked (schema.addMark mark marks) := by
  simp only [addMark]
  split
  · rw [ranked_iff, types_replaceMark]
    exact ranked_iff.1 ranked
  · next new =>
      simp only [List.any_eq_true, decide_eq_true_eq, not_exists, not_and] at new
      exact ranked_placeMark declared ranked new

theorem placeMark_append {mark : Mark} {after : List Mark} :
    ∀ {before : List Mark}, schema.Ranked (before ++ mark :: after) →
      placeMark schema mark (before ++ after) = before ++ mark :: after
  | [], ranked => by
      cases after with
      | nil => rfl
      | cons next rest =>
          have less := (List.pairwise_cons.1 ranked).1 next (by simp)
          simp [placeMark, less]
  | next :: rest, ranked => by
      obtain ⟨below, rankedRest⟩ := List.pairwise_cons.1 ranked
      have less := below mark (by simp)
      simp only [List.cons_append, placeMark, Nat.lt_asymm less, if_false]
      rw [placeMark_append rankedRest]

theorem type_ne_of_ranked {mark : Mark} {before after : List Mark}
    (ranked : schema.Ranked (before ++ mark :: after)) :
    ∀ other ∈ before ++ after, other.type ≠ mark.type := by
  obtain ⟨_, rankedRest, apart⟩ := List.pairwise_append.1 ranked
  intro other member equality
  apply Nat.lt_irrefl (schema.rank mark.type)
  rcases List.mem_append.1 member with inBefore | inAfter
  · exact equality ▸ apart other inBefore mark (by simp)
  · exact equality ▸ (List.pairwise_cons.1 rankedRest).1 other inAfter

theorem mem_before_of_rank_lt {mark other : Mark} {before after : List Mark}
    (ranked : schema.Ranked (before ++ mark :: after)) (member : other ∈ before ++ mark :: after)
    (lower : schema.rank other.type < schema.rank mark.type) : other ∈ before := by
  have above := (List.pairwise_cons.1 (List.pairwise_append.1 ranked).2.1).1 other
  rcases List.mem_append.1 member with inBefore | behind
  · exact inBefore
  · rcases List.mem_cons.1 behind with rfl | inAfter
    · omega
    · have higher := above inAfter
      omega

/-- A mark that was taken out of marks in the order of their ranks is put back to its place. -/
theorem addMark_append {mark : Mark} {before after : List Mark}
    (ranked : schema.Ranked (before ++ mark :: after)) :
    schema.addMark mark (before ++ after) = before ++ mark :: after := by
  have absent : ((before ++ after).any fun other => other.type = mark.type) = false := by
    simpa only [List.any_eq_false, decide_eq_true_eq] using type_ne_of_ranked ranked
  simp only [addMark, absent, Bool.false_eq_true, if_false]
  exact placeMark_append ranked

theorem sortInMark_of_le {mark : Mark} {marks : List Mark}
    (lowest : ∀ other ∈ marks, schema.rank mark.type ≤ schema.rank other.type) :
    sortInMark schema mark marks = mark :: marks := by
  cases marks with
  | nil => rfl
  | cons next rest => simp [sortInMark, lowest next List.mem_cons_self]

theorem sortInMark_perm (mark : Mark) (marks : List Mark) :
    (sortInMark schema mark marks).Perm (mark :: marks) := by
  induction marks with
  | nil => exact .refl _
  | cons next rest induction =>
      simp only [sortInMark]
      split
      · exact .refl _
      · exact (induction.cons next).trans (.swap mark next rest)

theorem orderMarks_perm (marks : List Mark) : (schema.orderMarks marks).Perm marks := by
  induction marks with
  | nil => exact .refl _
  | cons mark rest induction => exact (sortInMark_perm mark _).trans (induction.cons mark)

theorem mem_sortInMark {mark other : Mark} {marks : List Mark} :
    other ∈ sortInMark schema mark marks ↔ other = mark ∨ other ∈ marks := by
  rw [(sortInMark_perm mark marks).mem_iff, List.mem_cons]

theorem mem_orderMarks {mark : Mark} {marks : List Mark} :
    mark ∈ schema.orderMarks marks ↔ mark ∈ marks :=
  (orderMarks_perm marks).mem_iff

theorem orderMarks_of_sorted {marks : List Mark}
    (sorted : marks.Pairwise fun first second => schema.rank first.type ≤ schema.rank second.type) :
    schema.orderMarks marks = marks := by
  induction marks with
  | nil => rfl
  | cons mark rest induction =>
      obtain ⟨lowest, sortedRest⟩ := List.pairwise_cons.1 sorted
      rw [orderMarks, induction sortedRest, sortInMark_of_le lowest]

theorem orderMarks_of_ranked {marks : List Mark} (ranked : schema.Ranked marks) :
    schema.orderMarks marks = marks :=
  orderMarks_of_sorted (ranked.imp Nat.le_of_lt)

/-- Ranks leave marks no choice of their order. -/
theorem Ranked.eq_of_perm {first second : List Mark} (ranked : schema.Ranked first)
    (rankedSecond : schema.Ranked second) (perm : first.Perm second) : first = second :=
  perm.eq_of_pairwise (fun _ _ _ _ less greater => absurd less (Nat.lt_asymm greater)) ranked
    rankedSecond

theorem ranked_sortInMark {mark : Mark} {marks : List Mark} (ranked : schema.Ranked marks)
    (apart : ∀ other ∈ marks, schema.rank other.type ≠ schema.rank mark.type) :
    schema.Ranked (sortInMark schema mark marks) := by
  induction marks with
  | nil => simp [sortInMark, Ranked]
  | cons next rest induction =>
      obtain ⟨below, rankedRest⟩ := List.pairwise_cons.1 ranked
      have differs := apart next (by simp)
      simp only [sortInMark]
      split
      · next le =>
          refine List.pairwise_cons.2 ⟨fun other member => ?_, ranked⟩
          rcases List.mem_cons.1 member with rfl | inRest
          · omega
          · have above := below other inRest
            omega
      · next notLe =>
          have sorted := induction rankedRest fun other member =>
            apart other (List.mem_cons_of_mem _ member)
          refine List.pairwise_cons.2 ⟨fun other member => ?_, sorted⟩
          rcases mem_sortInMark.1 member with rfl | inRest
          · omega
          · exact below other inRest

theorem ranked_orderMarks {marks : List Mark}
    (declared : ∀ mark ∈ marks, (schema.markSpec? mark.type).isSome)
    (distinct : (marks.map Mark.type).Nodup) : schema.Ranked (schema.orderMarks marks) := by
  induction marks with
  | nil => exact .nil
  | cons mark rest induction =>
      obtain ⟨new, distinctRest⟩ := List.nodup_cons.1 distinct
      have ranked := induction
        (fun other member => declared other (List.mem_cons_of_mem _ member)) distinctRest
      apply ranked_sortInMark ranked
      intro other member same
      have inRest := mem_orderMarks.1 member
      have type := eq_of_rank_eq (declared other (List.mem_cons_of_mem _ inRest)) same
      exact new (type ▸ List.mem_map_of_mem inRest)

/-! Taking a mark away. -/

theorem filter_same_of_ranked {mark : Mark} {before after : List Mark}
    (ranked : schema.Ranked (before ++ mark :: after)) :
    (before ++ mark :: after).filter (fun other => !other.same mark) = before ++ after := by
  have kept : ∀ other ∈ before ++ after, (!other.same mark) = true := by
    intro other member
    simp [Mark.same, type_ne_of_ranked ranked other member]
  calc
    (before ++ mark :: after).filter (fun other => !other.same mark) =
        (before ++ after).filter (fun other => !other.same mark) := by simp
    _ = before ++ after := List.filter_eq_self.2 kept

theorem type_ne_of_mem_filter_same {mark other : Mark} {marks : List Mark}
    (member : mark ∈ marks) (ranked : schema.Ranked marks)
    (kept : other ∈ marks.filter fun other => !other.same mark) : other.type ≠ mark.type := by
  obtain ⟨before, after, rfl⟩ := List.append_of_mem member
  rw [filter_same_of_ranked ranked] at kept
  exact type_ne_of_ranked ranked other kept

theorem exists_addMark_of_sublist {mark : Mark} {marks part : List Mark} (member : mark ∈ marks)
    (ranked : schema.Ranked marks)
    (inside : part.Sublist (marks.filter fun other => !other.same mark)) :
    ∃ before after, part = before ++ after ∧
      schema.addMark mark part = before ++ mark :: after ∧
      (before ++ mark :: after).Sublist marks := by
  obtain ⟨left, right, rfl⟩ := List.append_of_mem member
  rw [filter_same_of_ranked ranked] at inside
  obtain ⟨before, after, rfl, inLeft, inRight⟩ := List.sublist_append_iff.1 inside
  have whole : (before ++ mark :: after).Sublist (left ++ mark :: right) :=
    inLeft.append (inRight.cons_cons mark)
  exact ⟨before, after, rfl, addMark_append (ranked.sublist whole), whole⟩

theorem eq_filter_same_of_addMark {mark : Mark} {marks part : List Mark} (member : mark ∈ marks)
    (ranked : schema.Ranked marks)
    (inside : part.Sublist (marks.filter fun other => !other.same mark))
    (whole : schema.addMark mark part = marks) :
    part = marks.filter fun other => !other.same mark := by
  obtain ⟨before, after, rfl, added, -⟩ := exists_addMark_of_sublist member ranked inside
  rw [whole] at added
  subst added
  exact (filter_same_of_ranked ranked).symm

theorem addMark_filter_same {mark : Mark} {marks : List Mark} (member : mark ∈ marks)
    (ranked : schema.Ranked marks) :
    schema.addMark mark (marks.filter fun other => !other.same mark) = marks := by
  obtain ⟨before, after, rfl⟩ := List.append_of_mem member
  rw [filter_same_of_ranked ranked]
  exact addMark_append ranked

end EditorMarkdown.Document.Schema
