import EditorMarkdown.Proofs.Json.Scalars

/-!
What is written is read. A value without floating-point numbers that nests no deeper than the reader
goes is read from its text, on one line or on many: both forms are the same text but for blanks that
the reader skips.
-/

namespace EditorMarkdown.Json

def isWhole (value : Int) : Bool :=
  -9223372036854775808 ≤ value && value ≤ 18446744073709551615

namespace Value

mutual
/-- Whether a value has no floating-point numbers and no integers that are read as such. -/
def isExact : Value → Bool
  | .int value => isWhole value
  | .float _ => false
  | .array items => areExact items
  | .object fields => fieldsExact fields
  | .null | .bool _ | .string _ => true

def areExact : List Value → Bool
  | [] => true
  | item :: rest => item.isExact && areExact rest

def fieldsExact : List (String × Value) → Bool
  | [] => true
  | (_, value) :: rest => value.isExact && fieldsExact rest
end

mutual
def depth : Value → Nat
  | .array items => depthOf items + 1
  | .object fields => fieldsDepth fields + 1
  | .null | .bool _ | .int _ | .float _ | .string _ => 0

def depthOf : List Value → Nat
  | [] => 0
  | item :: rest => max item.depth (depthOf rest)

def fieldsDepth : List (String × Value) → Nat
  | [] => 0
  | (_, value) :: rest => max value.depth (fieldsDepth rest)
end

mutual
/-- How many steps the reader takes at most. -/
def steps : Value → Nat
  | .array items => stepsOf items + 1
  | .object fields => fieldsSteps fields + 1
  | .null | .bool _ | .int _ | .float _ | .string _ => 1

def stepsOf : List Value → Nat
  | [] => 0
  | item :: rest => item.steps + stepsOf rest + 1

def fieldsSteps : List (String × Value) → Nat
  | [] => 0
  | (_, value) :: rest => value.steps + fieldsSteps rest + 1
end

/-! Both forms of a value are its text with blanks in the gaps; a gap depends on the level. -/

variable (gap : Nat → List Char) (colon : List Char)

mutual
def spaced (level : Nat) : Value → List Char
  | .array [] => ['[', ']']
  | .array (item :: rest) =>
      '[' :: (gap (level + 1) ++ spaced (level + 1) item ++ spacedItems level rest)
  | .object [] => ['{', '}']
  | .object ((name, value) :: rest) =>
      '{' :: (gap (level + 1) ++ quote name ++ ':' :: (colon ++
        (spaced (level + 1) value ++ spacedFields level rest)))
  | scalar => scalar.compact

def spacedItems (level : Nat) : List Value → List Char
  | [] => gap level ++ [']']
  | item :: rest => ',' :: (gap (level + 1) ++ spaced (level + 1) item ++ spacedItems level rest)

def spacedFields (level : Nat) : List (String × Value) → List Char
  | [] => gap level ++ ['}']
  | (name, value) :: rest =>
      ',' :: (gap (level + 1) ++ quote name ++ ':' :: (colon ++
        (spaced (level + 1) value ++ spacedFields level rest)))
end

mutual
theorem compact_eq (level : Nat) (value : Value) :
    value.compact = spaced (fun _ => []) [] level value := by
  match value with
  | .null | .bool _ | .int _ | .float _ | .string _ | .array [] | .object [] => rfl
  | .array (item :: rest) =>
      simp [compact, spaced, compact_eq (level + 1) item, compactItems_eq level rest]
  | .object ((name, value) :: rest) =>
      simp [compact, spaced, compact_eq (level + 1) value, compactFields_eq level rest]

theorem compactItems_eq (level : Nat) (items : List Value) :
    compactItems items = spacedItems (fun _ => []) [] level items := by
  match items with
  | [] => rfl
  | item :: rest =>
      simp [compactItems, spacedItems, compact_eq (level + 1) item, compactItems_eq level rest]

theorem compactFields_eq (level : Nat) (fields : List (String × Value)) :
    compactFields fields = spacedFields (fun _ => []) [] level fields := by
  match fields with
  | [] => rfl
  | (name, value) :: rest =>
      simp [compactFields, spacedFields, compact_eq (level + 1) value, compactFields_eq level rest]
end

mutual
theorem pretty_eq (level : Nat) (value : Value) :
    value.pretty level = spaced newLine [' '] level value := by
  match value with
  | .null | .bool _ | .int _ | .float _ | .string _ | .array [] | .object [] => rfl
  | .array (item :: rest) =>
      simp [pretty, spaced, pretty_eq (level + 1) item, prettyItems_eq level rest]
  | .object ((name, value) :: rest) =>
      simp [pretty, spaced, pretty_eq (level + 1) value, prettyFields_eq level rest]

theorem prettyItems_eq (level : Nat) (items : List Value) :
    prettyItems level items = spacedItems newLine [' '] level items := by
  match items with
  | [] => rfl
  | item :: rest =>
      simp [prettyItems, spacedItems, pretty_eq (level + 1) item, prettyItems_eq level rest]

theorem prettyFields_eq (level : Nat) (fields : List (String × Value)) :
    prettyFields level fields = spacedFields newLine [' '] level fields := by
  match fields with
  | [] => rfl
  | (name, value) :: rest =>
      simp [prettyFields, spacedFields, pretty_eq (level + 1) value, prettyFields_eq level rest]
end

end Value

theorem skipSpace_cons {c : Char} (solid : isSpace c = false) (text : List Char) :
    skipSpace (c :: text) = c :: text := by
  simp [skipSpace, solid]

theorem isSpace_iff {c : Char} : isSpace c ↔ c = ' ' ∨ c = '\n' ∨ c = '\t' ∨ c = '\r' := by
  simp [isSpace, or_assoc]

theorem endsNumber_of_isSpace {c : Char} (space : isSpace c) (rest : List Char) :
    EndsNumber (c :: rest) := by
  rintro _ ⟨⟩
  rcases isSpace_iff.1 space with rfl | rfl | rfl | rfl <;> decide

theorem isSpace_of_isDigit {c : Char} (digit : isDigit c) : isSpace c = false := by
  by_contra space
  rcases isSpace_iff.1 (eq_true_of_ne_false space) with rfl | rfl | rfl | rfl <;> cases digit

theorem readValue_digits (fuel depth : Nat) {c : Char} (digit : isDigit c) (rest : List Char) :
    readValue (fuel + 1) depth (c :: rest) = readDigits false (c :: rest) := by
  rw [readValue, skipSpace_cons (isSpace_of_isDigit digit)]
  -- No digit is the first character of any other value.
  split
  all_goals first | rfl | exact absurd digit (by rename_i same; cases same; decide)

theorem readValue_int (fuel depth : Nat) {value : Int} (whole : isWhole value) {rest : List Char}
    (ends : EndsNumber rest) :
    readValue (fuel + 1) depth ((Value.int value).compact ++ rest) = some (.int value, rest) := by
  simp only [isWhole, Bool.and_eq_true, decide_eq_true_eq] at whole
  cases value with
  | ofNat number =>
      have fits : number ≤ 18446744073709551615 := by
        have bound : (number : Int) ≤ 18446744073709551615 := whole.2
        omega
      have written : (Value.int (.ofNat number)).compact = Nat.toDigits 10 number :=
        Nat.toList_repr
      have read := readDigits_toDigits false fits ends
      rw [written]
      cases digits : Nat.toDigits 10 number with
      | nil => exact absurd digits Nat.toDigits_ne_nil
      | cons c others =>
          have digit : isDigit c := isDigit_of_mem_toDigits (digits ▸ List.mem_cons_self)
          rw [digits] at read
          rw [List.cons_append, readValue_digits fuel depth digit, ← List.cons_append, read]
          rfl
  | negSucc number =>
      have fits : number + 1 ≤ 9223372036854775808 := by
        have := whole.1
        omega
      have written : (Value.int (.negSucc number)).compact =
          '-' :: Nat.toDigits 10 (number + 1) := by
        change ("-" ++ (number + 1).repr).toList = _
        rw [String.toList_append, Nat.toList_repr]
        rfl
      have small : ¬(9223372036854775808 < number + 1) := by omega
      rw [written, List.cons_append, readValue, skipSpace_cons (by decide)]
      simp only [readDigits_toDigits true (Nat.le_trans fits (by decide)) ends, wholeValue?, small]
      rfl

theorem readValue_string (fuel depth : Nat) (text : String) (rest : List Char) :
    readValue (fuel + 1) depth (quote text ++ rest) = some (.string text, rest) := by
  rw [quote, List.cons_append, List.append_assoc, List.singleton_append, readValue,
    skipSpace_cons (by decide)]
  simp only [readChars_quoted, Option.map_some, String.ofList_toList]

/-! What the reader makes of a bracket, of an item and of a field. -/

variable {fuel depth : Nat} {text after more rest : List Char}

theorem readValue_array {items : List Value} {c : Char} {others : List Char}
    (starts : skipSpace text = c :: others) (opens : c ≠ ']')
    (read : readItems fuel depth (c :: others) = some (items, rest)) :
    readValue (fuel + 1) (depth + 1) ('[' :: text) = some (.array items, rest) := by
  rw [readValue, skipSpace_cons (by decide)]
  simp only [starts]
  split
  · rename_i closes
    cases closes
    exact absurd rfl opens
  · rw [read]
    rfl

theorem readValue_object {fields : List (String × Value)} {others : List Char}
    (starts : skipSpace text = '"' :: others)
    (read : readFields fuel depth ('"' :: others) = some (fields, rest)) :
    readValue (fuel + 1) (depth + 1) ('{' :: text) = some (.object fields, rest) := by
  rw [readValue, skipSpace_cons (by decide)]
  simp only [starts]
  split
  · rename_i closes
    cases closes
  · rw [read]
    rfl

theorem readItems_last {item : Value} (read : readValue fuel depth text = some (item, after))
    (closes : skipSpace after = ']' :: rest) :
    readItems (fuel + 1) depth text = some ([item], rest) := by
  rw [readItems, read]
  simp only [closes]

theorem readItems_next {item : Value} {items : List Value}
    (read : readValue fuel depth text = some (item, after))
    (continues : skipSpace after = ',' :: more)
    (others : readItems fuel depth more = some (items, rest)) :
    readItems (fuel + 1) depth text = some (item :: items, rest) := by
  rw [readItems, read]
  simp only [continues, others]
  rfl

theorem readFields_last {name : String} {value : Value}
    (read : readValue fuel depth text = some (value, after))
    (closes : skipSpace after = '}' :: rest) :
    readFields (fuel + 1) depth (quote name ++ ':' :: text) = some ([(name, value)], rest) := by
  rw [quote, List.cons_append, List.append_assoc, List.singleton_append, readFields,
    skipSpace_cons (by decide)]
  simp only [readChars_quoted, skipSpace_cons (show isSpace ':' = false by decide), read, closes,
    String.ofList_toList]

theorem readFields_next {name : String} {value : Value} {fields : List (String × Value)}
    (read : readValue fuel depth text = some (value, after))
    (continues : skipSpace after = ',' :: more)
    (others : readFields fuel depth more = some (fields, rest)) :
    readFields (fuel + 1) depth (quote name ++ ':' :: text) =
      some ((name, value) :: fields, rest) := by
  rw [quote, List.cons_append, List.append_assoc, List.singleton_append, readFields,
    skipSpace_cons (by decide)]
  simp only [readChars_quoted, skipSpace_cons (show isSpace ':' = false by decide), read,
    continues, others, String.ofList_toList]
  rfl

section

open Value

variable {gap : Nat → List Char} {colon : List Char}

variable (gap colon) in
theorem exists_spaced_cons (level : Nat) {value : Value} (exact : value.isExact) :
    ∃ c rest, spaced gap colon level value = c :: rest ∧ isSpace c = false ∧ c ≠ ']' := by
  match value with
  | .null | .bool true | .bool false | .string _ => exact ⟨_, _, rfl, by decide, by decide⟩
  | .array [] | .array (_ :: _) | .object [] | .object (_ :: _) =>
      exact ⟨_, _, rfl, by decide, by decide⟩
  | .int value =>
      cases value with
      | ofNat number =>
          have written : spaced gap colon level (.int (.ofNat number)) = Nat.toDigits 10 number :=
            Nat.toList_repr
          cases digits : Nat.toDigits 10 number with
          | nil => exact absurd digits Nat.toDigits_ne_nil
          | cons c rest =>
              have digit : isDigit c := isDigit_of_mem_toDigits (digits ▸ List.mem_cons_self)
              refine ⟨c, rest, written.trans digits, isSpace_of_isDigit digit, ?_⟩
              rintro rfl
              cases digit
      | negSucc number =>
          refine ⟨'-', (number + 1).repr.toList, ?_, by decide, by decide⟩
          change ("-" ++ (number + 1).repr).toList = _
          rw [String.toList_append]
          rfl

variable (space : ∀ level, AllSpace (gap level)) (colonSpace : AllSpace colon)

include space

theorem endsNumber_gap (level : Nat) {c : Char} (solid : EndsNumber [c]) (rest : List Char) :
    EndsNumber (gap level ++ c :: rest) := by
  cases blanks : gap level with
  | nil => exact solid
  | cons first others =>
      exact endsNumber_of_isSpace (space level first (blanks ▸ List.mem_cons_self)) _

theorem endsNumber_spacedItems (level : Nat) (items : List Value) (rest : List Char) :
    EndsNumber (spacedItems gap colon level items ++ rest) := by
  cases items with
  | nil =>
      rw [spacedItems, List.append_assoc]
      exact endsNumber_gap space level (by rintro _ ⟨⟩; decide) rest
  | cons => rintro _ ⟨⟩; decide

theorem endsNumber_spacedFields (level : Nat) (fields : List (String × Value))
    (rest : List Char) : EndsNumber (spacedFields gap colon level fields ++ rest) := by
  cases fields with
  | nil =>
      rw [spacedFields, List.append_assoc]
      exact endsNumber_gap space level (by rintro _ ⟨⟩; decide) rest
  | cons => rintro _ ⟨⟩; decide

theorem skipSpace_gap (level : Nat) {c : Char} (solid : isSpace c = false) (rest : List Char) :
    skipSpace (gap level ++ c :: rest) = c :: rest := by
  rw [skipSpace_append (space level), skipSpace_cons solid]

omit space

/-- What the reader makes of values, items and fields for which so many steps are enough. -/
structure Reads (gap : Nat → List Char) (colon : List Char) (fuel : Nat) : Prop where
  value : ∀ (value : Value) (level depth : Nat) (rest : List Char), value.isExact →
    value.steps ≤ fuel → value.depth ≤ depth → EndsNumber rest →
      readValue fuel depth (spaced gap colon level value ++ rest) = some (value, rest)
  items : ∀ (item : Value) (items : List Value) (level depth : Nat) (rest : List Char),
    areExact (item :: items) → stepsOf (item :: items) ≤ fuel → depthOf (item :: items) ≤ depth →
      readItems fuel depth
          (spaced gap colon (level + 1) item ++ (spacedItems gap colon level items ++ rest)) =
        some (item :: items, rest)
  fields : ∀ (name : String) (value : Value) (fields : List (String × Value)) (level depth : Nat)
    (rest : List Char), fieldsExact ((name, value) :: fields) →
    fieldsSteps ((name, value) :: fields) ≤ fuel →
    fieldsDepth ((name, value) :: fields) ≤ depth →
      readFields fuel depth
          (quote name ++ ':' :: (colon ++ (spaced gap colon (level + 1) value ++
            (spacedFields gap colon level fields ++ rest)))) =
        some ((name, value) :: fields, rest)

include space

theorem Reads.value_succ (reads : Reads gap colon fuel) {value : Value} (level : Nat)
    (exact : value.isExact) (enough : value.steps ≤ fuel + 1) (shallow : value.depth ≤ depth)
    (ends : EndsNumber rest) :
    readValue (fuel + 1) depth (spaced gap colon level value ++ rest) = some (value, rest) := by
  match value with
  | .null | .bool true | .bool false => rfl
  | .int value => exact readValue_int fuel depth exact ends
  | .float _ => cases exact
  | .string text => exact readValue_string fuel depth text rest
  | .array [] | .object [] =>
      obtain ⟨depth, rfl⟩ : ∃ less, depth = less + 1 := Nat.exists_eq_add_of_le' shallow
      rfl
  | .array (item :: items) =>
      obtain ⟨depth, rfl⟩ : ∃ less, depth = less + 1 :=
        Nat.exists_eq_add_of_le' (Nat.le_trans (Nat.le_add_left 1 _) shallow)
      have first : item.isExact := by
        simp only [isExact, areExact, Bool.and_eq_true] at exact
        exact exact.1
      obtain ⟨c, others, starts, solid, opens⟩ := exists_spaced_cons gap colon (level + 1) first
      have read := reads.items item items level depth rest exact (Nat.le_of_succ_le_succ enough)
        (Nat.le_of_succ_le_succ shallow)
      rw [spaced, List.cons_append, List.append_assoc, List.append_assoc]
      rw [starts] at read ⊢
      exact readValue_array (skipSpace_gap space _ solid _) opens read
  | .object ((name, value) :: fields) =>
      obtain ⟨depth, rfl⟩ : ∃ less, depth = less + 1 :=
        Nat.exists_eq_add_of_le' (Nat.le_trans (Nat.le_add_left 1 _) shallow)
      have read := reads.fields name value fields level depth rest exact
        (Nat.le_of_succ_le_succ enough) (Nat.le_of_succ_le_succ shallow)
      simp only [spaced, List.cons_append, List.append_assoc]
      exact readValue_object (skipSpace_gap space _ (by decide) _) read

theorem Reads.items_succ (reads : Reads gap colon fuel) {item : Value} {items : List Value}
    (level : Nat) (exact : areExact (item :: items)) (enough : stepsOf (item :: items) ≤ fuel + 1)
    (shallow : depthOf (item :: items) ≤ depth) :
    readItems (fuel + 1) depth
        (spaced gap colon (level + 1) item ++ (spacedItems gap colon level items ++ rest)) =
      some (item :: items, rest) := by
  simp only [stepsOf] at enough
  simp only [depthOf] at shallow
  simp only [areExact, Bool.and_eq_true] at exact
  have read := reads.value item (level + 1) depth (spacedItems gap colon level items ++ rest)
    exact.1 (by omega) (Nat.le_trans (Nat.le_max_left _ _) shallow)
    (endsNumber_spacedItems space level items rest)
  cases items with
  | nil =>
      refine readItems_last read ?_
      rw [spacedItems, List.append_assoc]
      exact skipSpace_gap space level (by decide) rest
  | cons next items =>
      rw [spacedItems, List.cons_append] at read ⊢
      refine readItems_next read (skipSpace_cons (by decide) _) ?_
      rw [List.append_assoc, List.append_assoc, readItems_append (space (level + 1))]
      exact reads.items next items level depth rest exact.2 (by omega)
        (Nat.le_trans (Nat.le_max_right _ _) shallow)

include colonSpace

theorem Reads.fields_succ (reads : Reads gap colon fuel) {name : String} {value : Value}
    {fields : List (String × Value)} (level : Nat) (exact : fieldsExact ((name, value) :: fields))
    (enough : fieldsSteps ((name, value) :: fields) ≤ fuel + 1)
    (shallow : fieldsDepth ((name, value) :: fields) ≤ depth) :
    readFields (fuel + 1) depth
        (quote name ++ ':' :: (colon ++ (spaced gap colon (level + 1) value ++
          (spacedFields gap colon level fields ++ rest)))) =
      some ((name, value) :: fields, rest) := by
  simp only [fieldsSteps] at enough
  simp only [fieldsDepth] at shallow
  simp only [fieldsExact, Bool.and_eq_true] at exact
  have read := reads.value value (level + 1) depth (spacedFields gap colon level fields ++ rest)
    exact.1 (by omega) (Nat.le_trans (Nat.le_max_left _ _) shallow)
    (endsNumber_spacedFields space level fields rest)
  rw [← readValue_append colonSpace] at read
  cases fields with
  | nil =>
      refine readFields_last read ?_
      rw [spacedFields, List.append_assoc]
      exact skipSpace_gap space level (by decide) rest
  | cons field fields =>
      obtain ⟨other, next⟩ := field
      rw [spacedFields, List.cons_append] at read ⊢
      refine readFields_next read (skipSpace_cons (by decide) _) ?_
      simp only [List.append_assoc, List.cons_append]
      rw [readFields_append (space (level + 1))]
      exact reads.fields other next fields level depth rest exact.2 (by omega)
        (Nat.le_trans (Nat.le_max_right _ _) shallow)

theorem reads_spaced (fuel : Nat) : Reads gap colon fuel := by
  induction fuel with
  | zero =>
      refine ⟨?_, ?_, ?_⟩
      · intro value _ _ _ _ enough
        cases value <;> cases enough
      · intro _ _ _ _ _ _ enough
        cases enough
      · intro _ _ _ _ _ _ _ enough
        cases enough
  | succ fuel induction =>
      refine ⟨?_, ?_, ?_⟩
      · intro value level depth rest exact enough shallow ends
        exact induction.value_succ space level exact enough shallow ends
      · intro item items level depth rest exact enough shallow
        exact induction.items_succ space level exact enough shallow
      · intro name value fields level depth rest exact enough shallow
        exact induction.fields_succ space colonSpace level exact enough shallow

end

/-! A text has room for the steps of its value. -/

mutual
theorem steps_lt_length (gap : Nat → List Char) (colon : List Char) (level : Nat) (value : Value)
    (exact : value.isExact) :
    value.steps < 2 * (Value.spaced gap colon level value).length := by
  match value with
  | .null | .bool _ | .string _ | .int _ =>
      obtain ⟨c, rest, starts, -, -⟩ := exists_spaced_cons gap colon level exact
      simp only [starts, Value.steps, List.length_cons]
      omega
  | .array [] | .object [] => simp [Value.spaced, Value.steps, Value.stepsOf, Value.fieldsSteps]
  | .array (item :: items) =>
      simp only [Value.isExact, Value.areExact, Bool.and_eq_true] at exact
      have first := steps_lt_length gap colon (level + 1) item exact.1
      have others := stepsOf_le_length gap colon level items exact.2
      simp only [Value.spaced, Value.steps, Value.stepsOf, List.length_cons, List.length_append]
      omega
  | .object ((name, value) :: fields) =>
      simp only [Value.isExact, Value.fieldsExact, Bool.and_eq_true] at exact
      have first := steps_lt_length gap colon (level + 1) value exact.1
      have others := fieldsSteps_le_length gap colon level fields exact.2
      simp only [Value.spaced, Value.steps, Value.fieldsSteps, List.length_cons,
        List.length_append]
      omega

theorem stepsOf_le_length (gap : Nat → List Char) (colon : List Char) (level : Nat)
    (items : List Value) (exact : Value.areExact items) :
    Value.stepsOf items ≤ 2 * (Value.spacedItems gap colon level items).length := by
  match items with
  | [] => exact Nat.zero_le _
  | item :: items =>
      simp only [Value.areExact, Bool.and_eq_true] at exact
      have first := steps_lt_length gap colon (level + 1) item exact.1
      have others := stepsOf_le_length gap colon level items exact.2
      simp only [Value.spacedItems, Value.stepsOf, List.length_cons, List.length_append]
      omega

theorem fieldsSteps_le_length (gap : Nat → List Char) (colon : List Char) (level : Nat)
    (fields : List (String × Value)) (exact : Value.fieldsExact fields) :
    Value.fieldsSteps fields ≤ 2 * (Value.spacedFields gap colon level fields).length := by
  match fields with
  | [] => exact Nat.zero_le _
  | (name, value) :: fields =>
      simp only [Value.fieldsExact, Bool.and_eq_true] at exact
      have first := steps_lt_length gap colon (level + 1) value exact.1
      have others := fieldsSteps_le_length gap colon level fields exact.2
      simp only [Value.spacedFields, Value.fieldsSteps, List.length_cons, List.length_append]
      omega
end

theorem ofText?_spaced (gap : Nat → List Char) (colon : List Char)
    (space : ∀ level, AllSpace (gap level)) (colonSpace : AllSpace colon) {value : Value}
    (exact : value.isExact) (shallow : value.depth ≤ deepest) :
    Value.ofText? (String.ofList (Value.spaced gap colon 0 value) ++ "\n") = some value := by
  have written : (String.ofList (Value.spaced gap colon 0 value) ++ "\n").toList =
      Value.spaced gap colon 0 value ++ ['\n'] := by
    rw [String.toList_append, String.toList_ofList]
    rfl
  have room := steps_lt_length gap colon 0 value exact
  have read := (reads_spaced space colonSpace
    (2 * (Value.spaced gap colon 0 value ++ ['\n']).length + 2)).value value 0 deepest ['\n'] exact
    (by simp only [List.length_append]; omega) shallow (endsNumber_of_isSpace (by decide) [])
  simp only [Value.ofText?, written, read]
  rfl

theorem allSpace_newLine (level : Nat) : AllSpace (Value.newLine level) := by
  intro c member
  rcases List.mem_cons.1 member with rfl | inside
  · rfl
  · rw [List.eq_of_mem_replicate inside]
    rfl

/-- A value is read from what is written for it, if it has no floating-point numbers and does not
nest too deep. -/
theorem Codec.standard_keeps {value : Value} (exact : value.isExact)
    (shallow : value.depth ≤ deepest) : Codec.standard.Keeps value := by
  intro pretty
  cases pretty with
  | false =>
      have none : AllSpace [] := fun _ member => by cases member
      have read := ofText?_spaced (fun _ => []) [] (fun _ => none) none exact shallow
      rwa [← Value.compact_eq] at read
  | true =>
      have blank : AllSpace [' '] := by
        intro c member
        cases List.mem_singleton.1 member
        rfl
      have read := ofText?_spaced Value.newLine [' '] allSpace_newLine blank exact shallow
      rwa [← Value.pretty_eq] at read

end EditorMarkdown.Json
