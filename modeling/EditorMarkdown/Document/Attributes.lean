import EditorMarkdown.Json.Normal
import EditorMarkdown.Json.Record

/-!
Attributes of document nodes and marks: JSON values by name, kept in the order of the names.
-/

namespace EditorMarkdown.Document

open Json (Value)

structure Attributes where
  fields : List (String × Value)
  normal : (Value.object fields).isNormal = true

namespace Attributes

def empty : Attributes := ⟨[], rfl⟩

instance : Inhabited Attributes := ⟨empty⟩

instance : Repr Attributes := ⟨fun attributes => reprPrec attributes.fields⟩

theorem ext {first second : Attributes} (h : first.fields = second.fields) : first = second := by
  cases first
  cases second
  cases h
  rfl

def isEmpty (attributes : Attributes) : Bool := attributes.fields.isEmpty

def get? (name : String) (attributes : Attributes) : Option Value :=
  Json.field? name attributes.fields

def insert (name : String) (value : Value) (attributes : Attributes) : Attributes where
  fields := Json.insertField name value.normalize attributes.fields
  normal := by
    have h := attributes.normal
    simp only [Value.isNormal, Bool.and_eq_true] at h ⊢
    exact ⟨Json.fieldsNormal_insertField value.isNormal_normalize h.1,
      Json.isSorted_insertField _ _ h.2⟩

def ofFields (fields : List (String × Value)) : Attributes :=
  fields.foldl (fun attributes (name, value) => attributes.insert name value) empty

/-- Attributes set one after the other, without those that are null. -/
def ofPresent (fields : List (String × Value)) : Attributes :=
  ofFields (fields.filter fun field => !field.2.isNull)

def same (first second : Attributes) : Bool := Value.sameFields first.fields second.fields

def toJson (attributes : Attributes) : Value := .object attributes.fields

def ofJson? : Value → Option Attributes
  | .object fields => some (ofFields fields)
  | _ => none

@[simp] theorem fields_empty : empty.fields = [] := rfl

@[simp] theorem fields_insert (name : String) (value : Value) (attributes : Attributes) :
    (attributes.insert name value).fields =
      Json.insertField name value.normalize attributes.fields := rfl

theorem fields_ofFields (fields : List (String × Value)) :
    (ofFields fields).fields = Json.sortFields (Value.normalizeFields fields) := by
  suffices general : ∀ attributes : Attributes,
      (fields.foldl (fun attributes (name, value) => attributes.insert name value)
        attributes).fields =
      (Value.normalizeFields fields).foldl
        (fun sorted (name, value) => Json.insertField name value sorted) attributes.fields from
    general empty
  induction fields with
  | nil => exact fun _ => rfl
  | cons field rest ih => exact fun attributes => ih (attributes.insert field.1 field.2)

@[simp] theorem ofJson?_toJson (attributes : Attributes) :
    ofJson? attributes.toJson = some attributes := by
  have h := attributes.normal
  simp only [Value.isNormal, Bool.and_eq_true] at h
  refine congrArg some (ext ?_)
  rw [fields_ofFields, Value.normalizeFields_of_fieldsNormal _ h.1, Json.sortFields_of_isSorted h.2]

end Attributes

end EditorMarkdown.Document
