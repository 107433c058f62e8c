import EditorMarkdown.Json.Value

/-!
Records: fields that are looked up by name, that must not be repeated, and that may be missing. A
record is written as an object; an array that holds the values in the order of the names is read as
one too.
-/

namespace EditorMarkdown.Json

def field? (name : String) : List (String × Value) → Option Value
  | [] => none
  | (other, value) :: rest => if other = name then some value else field? name rest

@[simp] theorem field?_nil (name : String) : field? name [] = none := rfl

@[simp] theorem field?_cons (name other : String) (value : Value)
    (rest : List (String × Value)) :
    field? name ((other, value) :: rest) =
      if other = name then some value else field? name rest := rfl

def repeats (names : List String) (fields : List (String × Value)) : Bool :=
  names.any fun name => 1 < fields.countP fun field => field.1 = name

theorem repeats_of_nodup (names : List String) {fields : List (String × Value)}
    (distinct : (fields.map Prod.fst).Nodup) : repeats names fields = false := by
  simp only [repeats, List.any_eq_false, decide_eq_true_eq, Nat.not_lt]
  intro name _
  have counted : (fields.countP fun field => field.1 = name) =
      (fields.map Prod.fst).count name := by
    simp [List.count, List.countP_map, Function.comp_def, BEq.beq]
  rw [counted]
  exact List.nodup_iff_count.1 distinct name

/-- Fields for the values of an array that are in the order of the names. -/
def fieldsInOrder? (names : List String) (items : List Value) : Option (List (String × Value)) :=
  if items.length ≤ names.length then some (names.zip items) else none

/-- The fields of a record with the given names. -/
def fields? (names : List String) : Value → Option (List (String × Value))
  | .object fields => if repeats names fields then none else some fields
  | .array items => fieldsInOrder? names items
  | _ => none

def required? (read : Value → Option α) (name : String) (fields : List (String × Value)) :
    Option α :=
  (field? name fields).bind read

def optional? (read : Value → Option α) (name : String) (fields : List (String × Value)) :
    Option (Option α) :=
  match field? name fields with
  | none | some .null => some none
  | some value => (read value).map some

def defaulted? (read : Value → Option α) (default : α) (name : String)
    (fields : List (String × Value)) : Option α :=
  match field? name fields with
  | none => some default
  | some value => read value

/-- The name that a value of an enumeration is written as: a string, or an object with nothing in
its only field. -/
def name? : Value → Option String
  | .string name | .object [(name, .null)] | .object [(name, .object [])] => some name
  | _ => none

def nullable (write : α → Value) : Option α → Value
  | none => .null
  | some value => write value

def items? (read : Value → Option α) : Value → Option (List α)
  | .array items => items.mapM read
  | _ => none

theorem items?_map {read : Value → Option α} {write : α → Value} (entries : List α)
    (inverse : ∀ entry ∈ entries, read (write entry) = some entry) :
    items? read (.array (entries.map write)) = some entries := by
  simp only [items?]
  induction entries with
  | nil => rfl
  | cons entry rest induction =>
      simp only [List.map_cons, List.mapM_cons, inverse entry List.mem_cons_self,
        induction fun other member => inverse other (List.mem_cons_of_mem _ member)]
      rfl

end EditorMarkdown.Json
