import EditorMarkdown.Proofs.Document.Ranks
import Mathlib.Data.List.Induction
import Mathlib.Data.List.Nodup

/-!
Sets of marks. Of marks that are added one after the other, the latest of each type is kept. The
declared types are in the order of their ranks, and types that are not declared come behind them in
the order in which they were first added. So declared marks of different types give the same set in
whatever order they are added.
-/

namespace EditorMarkdown.Document.Schema

variable {schema : Schema} {mark last : Mark} {added marks others : List Mark}

/-- The set of marks that are added one after the other. -/
def markSet (added : List Mark) (schema : Schema) : List Mark :=
  added.foldl (fun marks mark => schema.addMark mark marks) []

@[simp] theorem markSet_concat (added : List Mark) (mark : Mark) :
    schema.markSet (added ++ [mark]) = schema.addMark mark (schema.markSet added) := by
  simp [markSet]

/-- A mark that is added and that no later mark replaces. -/
def IsLatest (added : List Mark) (mark : Mark) : Prop :=
  ∃ before after, added = before ++ mark :: after ∧ ∀ later ∈ after, later.type ≠ mark.type

/-- Declared types in the order of their ranks, and behind them the other types in the order in
which they were first added. -/
def InOrder (schema : Schema) (added types : List String) : Prop :=
  ∃ declared others, types = declared ++ others ∧
    (∀ type ∈ declared, (schema.markSpec? type).isSome) ∧
    (declared.Pairwise fun first second => schema.rank first < schema.rank second) ∧
    (∀ type ∈ others, schema.markSpec? type = none) ∧
    others.Pairwise fun first second => added.idxOf first < added.idxOf second

/-- What a set holds of the marks that are added, and in which order. -/
structure IsMarkSet (schema : Schema) (added marks : List Mark) : Prop where
  distinct : (marks.map Mark.type).Nodup
  types : ∀ type, type ∈ marks.map Mark.type ↔ type ∈ added.map Mark.type
  latest : ∀ mark ∈ marks, IsLatest added mark
  ordered : schema.InOrder (added.map Mark.type) (marks.map Mark.type)

/-! The latest marks. -/

theorem isLatest_concat_self (added : List Mark) (mark : Mark) : IsLatest (added ++ [mark]) mark :=
  ⟨added, [], rfl, fun _ member => nomatch member⟩

theorem IsLatest.concat (latest : IsLatest added mark) (other : mark.type ≠ last.type) :
    IsLatest (added ++ [last]) mark := by
  obtain ⟨before, after, rfl, unreplaced⟩ := latest
  refine ⟨before, after ++ [last], by simp, fun later member => ?_⟩
  rcases List.mem_append.1 member with inAfter | isLast
  · exact unreplaced later inAfter
  · rw [List.mem_singleton.1 isLast]
    exact other.symm

theorem IsLatest.mem (latest : IsLatest added mark) : mark ∈ added := by
  obtain ⟨before, after, rfl, -⟩ := latest
  simp

/-! Order. -/

theorem rank_le (name : String) : schema.rank name ≤ schema.marks.length :=
  List.findIdx_le_length

theorem rank_of_undeclared {name : String} (undeclared : schema.markSpec? name = none) :
    schema.rank name = schema.marks.length := by
  have notBelow : ¬schema.rank name < schema.marks.length := by
    simp [rank_lt_length_iff, undeclared]
  exact Nat.le_antisymm (rank_le name) (Nat.not_lt.1 notBelow)

/-- First places do not change when more is added. -/
theorem InOrder.concat {added types : List String} (ordered : schema.InOrder added types)
    (known : ∀ type ∈ types, type ∈ added) (last : String) :
    schema.InOrder (added ++ [last]) types := by
  obtain ⟨declared, others, rfl, isDeclared, ranked, isOther, came⟩ := ordered
  refine ⟨declared, others, rfl, isDeclared, ranked, isOther, ?_⟩
  refine came.imp_of_mem fun {first second} inFirst inSecond less => ?_
  rwa [List.idxOf_append_of_mem (known first (by simp [inFirst])),
    List.idxOf_append_of_mem (known second (by simp [inSecond]))]

theorem InOrder.sorted {added : List String}
    (ordered : schema.InOrder added (marks.map Mark.type)) :
    marks.Pairwise fun first second => schema.rank first.type ≤ schema.rank second.type := by
  obtain ⟨declared, others, whole, -, ranked, isOther, -⟩ := ordered
  rw [← List.pairwise_map (f := Mark.type) (R := fun first second =>
    schema.rank first ≤ schema.rank second), whole]
  refine List.pairwise_append.2 ⟨ranked.imp Nat.le_of_lt, ?_, ?_⟩
  · refine List.pairwise_of_forall_mem_list fun first inFirst second inSecond => ?_
    exact Nat.le_of_eq ((rank_of_undeclared (isOther first inFirst)).trans
      (rank_of_undeclared (isOther second inSecond)).symm)
  · intro first _ second inOthers
    rw [rank_of_undeclared (isOther second inOthers)]
    exact rank_le first

theorem placeMark_of_undeclared (undeclared : schema.markSpec? mark.type = none)
    (marks : List Mark) : placeMark schema mark marks = marks ++ [mark] := by
  induction marks with
  | nil => rfl
  | cons next rest induction =>
      have notLess : ¬schema.rank mark.type < schema.rank next.type := by
        rw [rank_of_undeclared undeclared]
        exact Nat.not_lt.2 (rank_le next.type)
      rw [placeMark, if_neg notLess, induction, List.cons_append]

theorem placeMark_append_of_lt
    (above : ∀ other ∈ others, schema.rank mark.type < schema.rank other.type)
    (marks : List Mark) :
    placeMark schema mark (marks ++ others) = placeMark schema mark marks ++ others := by
  induction marks with
  | nil =>
      cases others with
      | nil => rfl
      | cons next rest => simp [placeMark, above next List.mem_cons_self]
  | cons next rest induction =>
      simp only [List.cons_append, placeMark, induction]
      split <;> rfl

theorem InOrder.placeMark (ordered : schema.InOrder (added.map Mark.type) (marks.map Mark.type))
    (known : ∀ type ∈ marks.map Mark.type, type ∈ added.map Mark.type)
    (new : mark.type ∉ added.map Mark.type) :
    schema.InOrder ((added ++ [mark]).map Mark.type)
      ((placeMark schema mark marks).map Mark.type) := by
  rw [List.map_append, List.map_singleton]
  obtain ⟨declared, others, whole, isDeclared, ranked, isOther, came⟩ :=
    ordered.concat known mark.type
  cases found : schema.markSpec? mark.type with
  | none =>
      refine ⟨declared, others ++ [mark.type], ?_, isDeclared, ranked, ?_, ?_⟩
      · rw [placeMark_of_undeclared found, List.map_append, whole, List.append_assoc]
        rfl
      · exact List.forall_mem_append.2 ⟨isOther, by simpa using found⟩
      · refine List.pairwise_append.2 ⟨came, List.pairwise_singleton _ _, ?_⟩
        intro first inOthers second isMark
        have inAdded := known first (whole ▸ List.mem_append_right declared inOthers)
        rw [List.mem_singleton.1 isMark, List.idxOf_append_of_mem inAdded,
          List.idxOf_append_of_notMem new]
        exact Nat.lt_add_right _ (List.idxOf_lt_length_of_mem inAdded)
  | some spec =>
      obtain ⟨declaredMarks, otherMarks, rfl, rfl, rfl⟩ := List.map_eq_append_iff.1 whole
      have isSome : (schema.markSpec? mark.type).isSome := by simp [found]
      have above : ∀ other ∈ otherMarks, schema.rank mark.type < schema.rank other.type := by
        intro other member
        rw [rank_of_undeclared (isOther other.type (List.mem_map_of_mem member))]
        exact rank_lt_length_iff.2 isSome
      have apart : ∀ other ∈ declaredMarks, other.type ≠ mark.type := by
        intro other member same
        exact new (same ▸ known other.type (List.mem_map_of_mem (List.mem_append_left _ member)))
      refine ⟨(Schema.placeMark schema mark declaredMarks).map Mark.type,
        otherMarks.map Mark.type, ?_, ?_, ?_, isOther, came⟩
      · rw [placeMark_append_of_lt above, List.map_append]
      · refine List.forall_mem_map.2 fun other member => ?_
        rcases mem_placeMark member with rfl | old
        · exact isSome
        · exact isDeclared other.type (List.mem_map_of_mem old)
      · exact ranked_iff.1 (ranked_placeMark isSome (ranked_iff.2 ranked) apart)

/-! Adding a mark. -/

theorem exists_replaceMark (present : mark.type ∈ marks.map Mark.type) :
    ∃ before old after, marks = before ++ old :: after ∧ old.type = mark.type ∧
      replaceMark mark marks = before ++ mark :: after := by
  induction marks with
  | nil => cases present
  | cons next rest induction =>
      simp only [replaceMark]
      by_cases same : next.type = mark.type
      · exact ⟨[], next, rest, rfl, same, if_pos same⟩
      · have behind : mark.type ∈ rest.map Mark.type := by
          simpa [Ne.symm same] using present
        obtain ⟨before, old, after, rfl, replaced, written⟩ := induction behind
        exact ⟨next :: before, old, after, rfl, replaced, by rw [if_neg same, written]; rfl⟩

theorem isMarkSet_nil (schema : Schema) : schema.IsMarkSet [] [] where
  distinct := .nil
  types := fun _ => .rfl
  latest := fun _ member => nomatch member
  ordered := ⟨[], [], by simp⟩

theorem any_type_iff : (marks.any fun other => other.type = mark.type) ↔
    mark.type ∈ marks.map Mark.type := by
  simp

theorem IsMarkSet.replace (isSet : schema.IsMarkSet added marks)
    (present : mark.type ∈ marks.map Mark.type) :
    schema.IsMarkSet (added ++ [mark]) (replaceMark mark marks) := by
  have sameTypes := types_replaceMark mark marks
  refine ⟨sameTypes ▸ isSet.distinct, ?_, ?_, ?_⟩
  · intro type
    rw [sameTypes, isSet.types, List.map_append, List.mem_append, List.map_singleton,
      List.mem_singleton]
    refine ⟨.inl, fun known => known.elim id ?_⟩
    rintro rfl
    exact (isSet.types _).1 present
  · obtain ⟨before, old, after, rfl, replaced, written⟩ := exists_replaceMark present
    have distinct := isSet.distinct
    rw [List.map_append, List.map_cons, List.nodup_middle, List.nodup_cons, replaced,
      ← List.map_append] at distinct
    rw [written]
    intro other member
    rcases List.mem_cons.1 (List.perm_middle.mem_iff.1 member) with rfl | kept
    · exact isLatest_concat_self added other
    · have inMarks : other ∈ before ++ old :: after :=
        List.perm_middle.mem_iff.2 (List.mem_cons_of_mem old kept)
      exact (isSet.latest other inMarks).concat fun same =>
        distinct.1 (same ▸ List.mem_map_of_mem kept)
  · rw [sameTypes, List.map_append, List.map_singleton]
    exact isSet.ordered.concat (fun type member => (isSet.types type).1 member) mark.type

theorem IsMarkSet.place (isSet : schema.IsMarkSet added marks)
    (new : mark.type ∉ marks.map Mark.type) :
    schema.IsMarkSet (added ++ [mark]) (placeMark schema mark marks) := by
  have perm : (placeMark schema mark marks).Perm (mark :: marks) := placeMark_perm mark marks
  have typesPerm := perm.map Mark.type
  rw [List.map_cons] at typesPerm
  have newAdded : mark.type ∉ added.map Mark.type := fun known => new ((isSet.types _).2 known)
  refine ⟨typesPerm.nodup_iff.2 (List.nodup_cons.2 ⟨new, isSet.distinct⟩), ?_, ?_, ?_⟩
  · intro type
    rw [typesPerm.mem_iff, List.mem_cons, isSet.types, List.map_append, List.mem_append,
      List.map_singleton, List.mem_singleton, or_comm]
  · intro other member
    rcases mem_placeMark member with rfl | old
    · exact isLatest_concat_self added other
    · exact (isSet.latest other old).concat fun same => new (same ▸ List.mem_map_of_mem old)
  · exact isSet.ordered.placeMark (fun type member => (isSet.types type).1 member) newAdded

theorem IsMarkSet.addMark (isSet : schema.IsMarkSet added marks) (mark : Mark) :
    schema.IsMarkSet (added ++ [mark]) (schema.addMark mark marks) := by
  unfold Schema.addMark
  split
  · next present => exact isSet.replace (any_type_iff.1 present)
  · next new => exact isSet.place (mt any_type_iff.2 new)

theorem isMarkSet_markSet (schema : Schema) (added : List Mark) :
    schema.IsMarkSet added (schema.markSet added) := by
  induction added using List.reverseRecOn with
  | nil => exact isMarkSet_nil schema
  | append_singleton added mark induction =>
      rw [markSet_concat]
      exact induction.addMark mark

/-! Sets of declared marks. -/

theorem IsMarkSet.mem_iff (isSet : schema.IsMarkSet added marks)
    (distinct : (added.map Mark.type).Nodup) : mark ∈ marks ↔ mark ∈ added := by
  refine ⟨fun member => (isSet.latest mark member).mem, fun member => ?_⟩
  obtain ⟨other, inMarks, same⟩ :=
    List.mem_map.1 ((isSet.types mark.type).2 (List.mem_map_of_mem member))
  have inAdded := (isSet.latest other inMarks).mem
  exact List.inj_on_of_nodup_map distinct inAdded member same ▸ inMarks

theorem IsMarkSet.ranked (isSet : schema.IsMarkSet added marks)
    (declared : ∀ mark ∈ added, (schema.markSpec? mark.type).isSome) : schema.Ranked marks := by
  obtain ⟨first, others, whole, -, ranked, isOther, -⟩ := isSet.ordered
  have none : others = [] := by
    refine List.eq_nil_iff_forall_not_mem.2 fun type member => ?_
    obtain ⟨mark, inAdded, rfl⟩ := List.mem_map.1
      ((isSet.types type).1 (whole ▸ List.mem_append_right first member))
    have isSome := declared mark inAdded
    simp [isOther mark.type member] at isSome
  rw [ranked_iff, whole, none, List.append_nil]
  exact ranked

theorem markSet_perm {second : List Mark}
    (declared : ∀ mark ∈ added, (schema.markSpec? mark.type).isSome)
    (distinct : (added.map Mark.type).Nodup) (perm : second.Perm added) :
    schema.markSet second = schema.markSet added := by
  have isSet := isMarkSet_markSet schema added
  have isSecond := isMarkSet_markSet schema second
  have declaredSecond : ∀ mark ∈ second, (schema.markSpec? mark.type).isSome :=
    fun mark member => declared mark (perm.mem_iff.1 member)
  have distinctSecond := (perm.map Mark.type).nodup_iff.2 distinct
  have sameMarks : (schema.markSet second).Perm (schema.markSet added) := by
    refine (List.perm_ext_iff_of_nodup (.of_map _ isSecond.distinct)
      (.of_map _ isSet.distinct)).2 fun mark => ?_
    rw [isSecond.mem_iff distinctSecond, isSet.mem_iff distinct, perm.mem_iff]
  exact (isSecond.ranked declaredSecond).eq_of_perm (isSet.ranked declared) sameMarks

/-- Marks that are added one after the other are kept as a set: it has the latest mark of each type,
the declared types in the order of their ranks and behind them the others in the order in which they
were first added. Ordering the set changes nothing, and declared marks of different types give the
same set in every order. -/
theorem markSet_isCanonical (schema : Schema) (added : List Mark) :
    schema.IsMarkSet added (schema.markSet added) ∧
      schema.orderMarks (schema.markSet added) = schema.markSet added ∧
      ((∀ mark ∈ added, (schema.markSpec? mark.type).isSome) → (added.map Mark.type).Nodup →
        ∀ second : List Mark, second.Perm added →
          schema.markSet second = schema.markSet added) := by
  have isSet := isMarkSet_markSet schema added
  exact ⟨isSet, orderMarks_of_sorted isSet.ordered.sorted,
    fun declared distinct _ perm => markSet_perm declared distinct perm⟩

def threeMarks : Schema := ⟨[], [⟨"link", []⟩, ⟨"bold", []⟩, ⟨"italic", []⟩]⟩

def unattributed (type : String) : Mark := ⟨type, .empty⟩

theorem markSet_isCanonical_mixed :
    let mixed := ["ink", "italic", "glow", "bold", "ink"].map unattributed
    let declared := ["italic", "link", "bold"].map unattributed
    let reversed := ["bold", "link", "italic"].map unattributed
    threeMarks.IsMarkSet mixed (threeMarks.markSet mixed) ∧
      (threeMarks.markSet mixed).map Mark.type = ["bold", "italic", "ink", "glow"] ∧
      threeMarks.orderMarks (threeMarks.markSet mixed) = threeMarks.markSet mixed ∧
      (∀ mark ∈ declared, (threeMarks.markSpec? mark.type).isSome) ∧
      (declared.map Mark.type).Nodup ∧ reversed.Perm declared ∧
      threeMarks.markSet reversed = threeMarks.markSet declared := by
  intro mixed declared reversed
  obtain ⟨isSet, ordered, -⟩ := markSet_isCanonical threeMarks mixed
  have isDeclared : ∀ mark ∈ declared, (threeMarks.markSpec? mark.type).isSome := by decide
  have distinct : (declared.map Mark.type).Nodup := by decide
  have perm : reversed.Perm declared := List.Perm.map unattributed (by decide)
  exact ⟨isSet, by decide, ordered, isDeclared, distinct, perm,
    (markSet_isCanonical threeMarks declared).2.2 isDeclared distinct reversed perm⟩

end EditorMarkdown.Document.Schema
