import EditorMarkdown.Json.Double

/-!
JSON values. Whole numbers and floating-point numbers are different values. The fields of an object
keep their order, and a name may occur more than once; `Value.normalize` sorts them and keeps the
last of each name.
-/

namespace EditorMarkdown.Json

inductive Value where
  | null
  | bool (value : Bool)
  | int (value : Int)
  | float (value : Double)
  | string (value : String)
  | array (items : List Value)
  | object (fields : List (String × Value))
  deriving Repr, Inhabited

namespace Value

mutual
def same : Value → Value → Bool
  | .null, .null => true
  | .bool first, .bool second => first = second
  | .int first, .int second => first = second
  | .float first, .float second => first.same second
  | .string first, .string second => first = second
  | .array first, .array second => sameItems first second
  | .object first, .object second => sameFields first second
  | _, _ => false

def sameItems : List Value → List Value → Bool
  | [], [] => true
  | first :: rest, second :: others => first.same second && sameItems rest others
  | _, _ => false

def sameFields : List (String × Value) → List (String × Value) → Bool
  | [], [] => true
  | (name, first) :: rest, (other, second) :: others =>
      name = other && first.same second && sameFields rest others
  | _, _ => false
end

mutual
@[simp] theorem same_self : (value : Value) → value.same value
  | .null => rfl
  | .bool _ | .int _ | .string _ => by simp [same]
  | .float _ => by simp [same, Double.same]
  | .array items => sameItems_self items
  | .object fields => sameFields_self fields

theorem sameItems_self : (items : List Value) → sameItems items items
  | [] => rfl
  | item :: rest => by simp [sameItems, same_self item, sameItems_self rest]

theorem sameFields_self : (fields : List (String × Value)) → sameFields fields fields
  | [] => rfl
  | (_, value) :: rest => by simp [sameFields, same_self value, sameFields_self rest]
end

end Value

def insertField (name : String) (value : Value) : List (String × Value) → List (String × Value)
  | [] => [(name, value)]
  | (other, old) :: rest =>
      if name < other then (name, value) :: (other, old) :: rest
      else if name = other then (name, value) :: rest
      else (other, old) :: insertField name value rest

def sortFields (fields : List (String × Value)) : List (String × Value) :=
  fields.foldl (fun sorted (name, value) => insertField name value sorted) []

namespace Value

mutual
/-- A value with the fields of its objects sorted and without repeated names. -/
def normalize : Value → Value
  | .array items => .array (normalizeItems items)
  | .object fields => .object (sortFields (normalizeFields fields))
  | other => other

def normalizeItems : List Value → List Value
  | [] => []
  | item :: rest => item.normalize :: normalizeItems rest

def normalizeFields : List (String × Value) → List (String × Value)
  | [] => []
  | (name, value) :: rest => (name, value.normalize) :: normalizeFields rest
end

def isNull : Value → Bool
  | .null => true
  | _ => false

def string? : Value → Option String
  | .string value => some value
  | _ => none

def bool? : Value → Option Bool
  | .bool value => some value
  | _ => none

/-- A whole number from zero up to the greatest one of 64 bits. -/
def natural? : Value → Option Nat
  | .int value => if 0 ≤ value && value ≤ 18446744073709551615 then some value.toNat else none
  | _ => none

end Value

end EditorMarkdown.Json
