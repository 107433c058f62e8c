import EditorMarkdown.Json.Value

/-!
Normal values: the names in each object are in strictly increasing order. Normalizing gives a
normal value, and a normal value stays as it is.
-/

namespace EditorMarkdown.Json

def isSorted (fields : List (String × Value)) : Bool :=
  decide (fields.Pairwise fun first second => first.1 < second.1)

namespace Value

mutual
def isNormal : Value → Bool
  | .array items => allNormal items
  | .object fields => fieldsNormal fields && isSorted fields
  | _ => true

def allNormal : List Value → Bool
  | [] => true
  | item :: rest => item.isNormal && allNormal rest

def fieldsNormal : List (String × Value) → Bool
  | [] => true
  | (_, value) :: rest => value.isNormal && fieldsNormal rest
end

end Value

theorem mem_insertField {name : String} {value : Value} {field : String × Value} :
    ∀ {fields : List (String × Value)}, field ∈ insertField name value fields →
      field = (name, value) ∨ field ∈ fields
  | [], member => by simpa [insertField] using member
  | (other, old) :: rest, member => by
      simp only [insertField] at member
      split at member
      · simpa using member
      · split at member
        · rcases List.mem_cons.1 member with equality | inRest
          · exact .inl equality
          · exact .inr (List.mem_cons_of_mem _ inRest)
        · rcases List.mem_cons.1 member with equality | inRest
          · exact .inr (by simp [equality])
          · rcases mem_insertField inRest with equality | older
            · exact .inl equality
            · exact .inr (List.mem_cons_of_mem _ older)

theorem pairwise_insertField (name : String) (value : Value) :
    ∀ {fields : List (String × Value)},
      fields.Pairwise (fun first second => first.1 < second.1) →
      (insertField name value fields).Pairwise fun first second => first.1 < second.1
  | [], _ => by simp [insertField]
  | (other, old) :: rest, sorted => by
      obtain ⟨below, sortedRest⟩ := List.pairwise_cons.1 sorted
      simp only [insertField]
      split
      · next less =>
          refine List.pairwise_cons.2 ⟨fun field member => ?_, sorted⟩
          rcases List.mem_cons.1 member with rfl | inRest
          · exact less
          · exact String.lt_trans less (below field inRest)
      · next notLess =>
          split
          · next equality =>
              subst equality
              exact List.pairwise_cons.2 ⟨below, sortedRest⟩
          · next different =>
              have greater : other < name := by
                rcases Std.lt_trichotomy name other with less | equality | greater
                · exact absurd less notLess
                · exact absurd equality different
                · exact greater
              refine List.pairwise_cons.2 ⟨fun field member => ?_,
                pairwise_insertField name value sortedRest⟩
              rcases mem_insertField member with rfl | inRest
              · exact greater
              · exact below field inRest

theorem isSorted_insertField (name : String) (value : Value) {fields : List (String × Value)}
    (h : isSorted fields) : isSorted (insertField name value fields) := by
  simp only [isSorted, decide_eq_true_eq] at h ⊢
  exact pairwise_insertField name value h

theorem fieldsNormal_iff {fields : List (String × Value)} :
    Value.fieldsNormal fields ↔ ∀ field ∈ fields, field.2.isNormal := by
  induction fields with
  | nil => simp [Value.fieldsNormal]
  | cons field rest ih => simp [Value.fieldsNormal, ih]

theorem fieldsNormal_insertField {name : String} {value : Value}
    {fields : List (String × Value)} (hvalue : value.isNormal)
    (h : Value.fieldsNormal fields) : Value.fieldsNormal (insertField name value fields) := by
  rw [fieldsNormal_iff] at h ⊢
  intro field member
  rcases mem_insertField member with rfl | older
  · exact hvalue
  · exact h field older

theorem isNormal_foldl_insertField (fields : List (String × Value))
    (hfields : Value.fieldsNormal fields) :
    ∀ sorted : List (String × Value), (Value.object sorted).isNormal →
      (Value.object (fields.foldl
        (fun sorted (name, value) => insertField name value sorted) sorted)).isNormal := by
  induction fields with
  | nil => exact fun _ h => h
  | cons field rest ih =>
      intro sorted h
      simp only [Value.isNormal, Value.fieldsNormal, Bool.and_eq_true] at h hfields
      refine ih hfields.2 _ ?_
      simp only [Value.isNormal, Bool.and_eq_true]
      exact ⟨fieldsNormal_insertField hfields.1 h.1, isSorted_insertField _ _ h.2⟩

theorem isNormal_sortFields {fields : List (String × Value)}
    (h : Value.fieldsNormal fields) : (Value.object (sortFields fields)).isNormal :=
  isNormal_foldl_insertField fields h [] rfl

namespace Value

mutual
theorem isNormal_normalize : (value : Value) → value.normalize.isNormal
  | .null | .bool _ | .int _ | .float _ | .string _ => rfl
  | .array items => allNormal_normalizeItems items
  | .object fields => isNormal_sortFields (fieldsNormal_normalizeFields fields)

theorem allNormal_normalizeItems : (items : List Value) → allNormal (normalizeItems items)
  | [] => rfl
  | item :: rest => by
      simp [normalizeItems, allNormal, isNormal_normalize item, allNormal_normalizeItems rest]

theorem fieldsNormal_normalizeFields :
    (fields : List (String × Value)) → fieldsNormal (normalizeFields fields)
  | [] => rfl
  | (name, value) :: rest => by
      simp [normalizeFields, fieldsNormal, isNormal_normalize value,
        fieldsNormal_normalizeFields rest]
end

end Value

theorem insertField_append {name : String} {value : Value} :
    ∀ {fields : List (String × Value)}, (∀ field ∈ fields, field.1 < name) →
      insertField name value fields = fields ++ [(name, value)]
  | [], _ => rfl
  | (other, old) :: rest, below => by
      have less : other < name := below (other, old) (by simp)
      have different : name ≠ other := fun equality =>
        String.lt_irrefl name (by rw [equality] at less ⊢; exact less)
      simp only [insertField, String.lt_asymm less, different, if_false, List.cons_append]
      rw [insertField_append fun field member => below field (List.mem_cons_of_mem _ member)]

theorem sortFields_of_isSorted {fields : List (String × Value)} (h : isSorted fields) :
    sortFields fields = fields := by
  suffices general : ∀ rest sorted : List (String × Value),
      (sorted ++ rest).Pairwise (fun first second => first.1 < second.1) →
      rest.foldl (fun sorted (name, value) => insertField name value sorted) sorted =
        sorted ++ rest by
    simpa [sortFields] using general fields [] (by simpa [isSorted] using h)
  intro rest
  induction rest with
  | nil => intro sorted _; simp
  | cons field rest ih =>
      intro sorted ordered
      obtain ⟨name, value⟩ := field
      simp only [List.foldl_cons]
      rw [insertField_append fun earlier member =>
        (List.pairwise_append.1 ordered).2.2 earlier member (name, value) (by simp)]
      rw [ih _ (by simpa using ordered)]
      simp

namespace Value

mutual
theorem normalize_of_isNormal : (value : Value) → value.isNormal → value.normalize = value
  | .null, _ | .bool _, _ | .int _, _ | .float _, _ | .string _, _ => rfl
  | .array items, h => by
      rw [normalize, normalizeItems_of_allNormal items h]
  | .object fields, h => by
      simp only [isNormal, Bool.and_eq_true] at h
      rw [normalize, normalizeFields_of_fieldsNormal fields h.1, sortFields_of_isSorted h.2]

theorem normalizeItems_of_allNormal :
    (items : List Value) → allNormal items → normalizeItems items = items
  | [], _ => rfl
  | item :: rest, h => by
      simp only [allNormal, Bool.and_eq_true] at h
      rw [normalizeItems, normalize_of_isNormal item h.1, normalizeItems_of_allNormal rest h.2]

theorem normalizeFields_of_fieldsNormal :
    (fields : List (String × Value)) → fieldsNormal fields → normalizeFields fields = fields
  | [], _ => rfl
  | (name, value) :: rest, h => by
      simp only [fieldsNormal, Bool.and_eq_true] at h
      rw [normalizeFields, normalize_of_isNormal value h.1,
        normalizeFields_of_fieldsNormal rest h.2]
end

end Value

end EditorMarkdown.Json
