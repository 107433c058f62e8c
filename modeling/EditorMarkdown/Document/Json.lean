import EditorMarkdown.Document.Node

/-!
The JSON form of documents. Empty attributes, contents and marks, and a text that is not there, are
not written. Reading ignores other fields and refuses repeated ones.
-/

namespace EditorMarkdown.Document

open Json (Value required? optional? defaulted? items? repeats fieldsInOrder?)

def Mark.ofJson? (value : Value) : Option Mark := do
  let fields ← Json.fields? ["type", "attrs"] value
  let type ← required? Value.string? "type" fields
  let attrs ← defaulted? Attributes.ofJson? .empty "attrs" fields
  return { type, attrs }

/-- A field, unless its value would be empty. -/
private def presentField (name : String) (isEmpty : Bool) (value : Value) :
    List (String × Value) :=
  if isEmpty then [] else [(name, value)]

@[simp] private theorem field?_presentField_append (name other : String) (isEmpty : Bool)
    (value : Value) (rest : List (String × Value)) :
    Json.field? name (presentField other isEmpty value ++ rest) =
      if other = name ∧ isEmpty = false then some value else Json.field? name rest := by
  cases isEmpty <;> simp [presentField]

@[simp] private theorem field?_presentField (name other : String) (isEmpty : Bool) (value : Value) :
    Json.field? name (presentField other isEmpty value) =
      if other = name ∧ isEmpty = false then some value else none := by
  cases isEmpty <;> simp [presentField]

private theorem names_presentField (name : String) (isEmpty : Bool) (value : Value) :
    ((presentField name isEmpty value).map Prod.fst).Sublist [name] := by
  cases isEmpty <;> simp [presentField]

def Mark.toJson (mark : Mark) : Value :=
  .object
    (("type", .string mark.type) :: presentField "attrs" mark.attrs.isEmpty mark.attrs.toJson)

def Node.fieldNames : List String := ["type", "attrs", "content", "marks", "text"]

private def Node.ofFields? (fields : List (String × Value)) (content : List Node) :
    Option Node := do
  let type ← required? Value.string? "type" fields
  let attrs ← defaulted? Attributes.ofJson? .empty "attrs" fields
  let marks ← defaulted? (items? Mark.ofJson?) [] "marks" fields
  let text ← optional? Value.string? "text" fields
  return { type, attrs, content, marks, text }

mutual
def Node.ofJson? : Value → Option Node
  | .object fields =>
      if repeats Node.fieldNames fields then none
      else (contentOfFields? fields).bind (Node.ofFields? fields)
  | .array items =>
      (fieldsInOrder? Node.fieldNames items).bind fun fields =>
        (contentInOrder? items).bind (Node.ofFields? fields)
  | _ => none

def contentOfFields? : List (String × Value) → Option (List Node)
  | [] => some []
  | (name, .array items) :: rest =>
      if name = "content" then nodesOfItems? items else contentOfFields? rest
  | (name, _) :: rest => if name = "content" then none else contentOfFields? rest

def contentInOrder? : List Value → Option (List Node)
  | _ :: _ :: .array items :: _ => nodesOfItems? items
  | _ :: _ :: _ :: _ => none
  | _ => some []

def nodesOfItems? : List Value → Option (List Node)
  | [] => some []
  | item :: rest =>
      match Node.ofJson? item, nodesOfItems? rest with
      | some node, some nodes => some (node :: nodes)
      | _, _ => none
end

mutual
def Node.toJson : Node → Value
  | ⟨type, attrs, content, marks, text⟩ =>
      .object
        (("type", .string type) ::
          (presentField "attrs" attrs.isEmpty attrs.toJson ++
            presentField "content" content.isEmpty (.array (nodesToItems content)) ++
            presentField "marks" marks.isEmpty (.array (marks.map Mark.toJson)) ++
            (match text with
              | none => []
              | some text => [("text", .string text)])))

def nodesToItems : List Node → List Value
  | [] => []
  | node :: rest => node.toJson :: nodesToItems rest
end

/-! What is written is read again as it was, also where a part is empty and is not written. -/

private theorem readAttributes {attrs : Attributes} {fields : List (String × Value)}
    (found : Json.field? "attrs" fields =
      if attrs.isEmpty = false then some attrs.toJson else none) :
    defaulted? Attributes.ofJson? .empty "attrs" fields = some attrs := by
  cases empty : attrs.isEmpty with
  | false => simp [defaulted?, found, empty]
  | true =>
      have bare : attrs = .empty := Attributes.ext (by simpa [Attributes.isEmpty] using empty)
      simp [defaulted?, found, bare, Attributes.isEmpty]

theorem Mark.ofJson?_toJson (mark : Mark) : Mark.ofJson? mark.toJson = some mark := by
  obtain ⟨type, attrs⟩ := mark
  let fields := ("type", Value.string type) :: presentField "attrs" attrs.isEmpty attrs.toJson
  have distinct : (fields.map Prod.fst).Nodup :=
    ((names_presentField "attrs" attrs.isEmpty attrs.toJson).cons_cons "type").nodup (by decide)
  have read : defaulted? Attributes.ofJson? .empty "attrs" fields = some attrs := by
    apply readAttributes
    simp [fields]
  have whole : Mark.ofJson? (.object fields) = some ⟨type, attrs⟩ := by
    simp only [ofJson?, Json.fields?, Json.repeats_of_nodup _ distinct, Option.bind_eq_bind,
      Bool.false_eq_true, if_false, Option.bind_some, read]
    rfl
  exact whole

private def fieldsOf (node : Node) : List (String × Value) :=
  ("type", .string node.type) ::
    (presentField "attrs" node.attrs.isEmpty node.attrs.toJson ++
      (presentField "content" node.content.isEmpty (.array (nodesToItems node.content)) ++
        (presentField "marks" node.marks.isEmpty (.array (node.marks.map Mark.toJson)) ++
          presentField "text" node.text.isNone (.string (node.text.getD "")))))

private theorem toJson_eq (node : Node) : node.toJson = .object (fieldsOf node) := by
  obtain ⟨type, attrs, content, marks, text⟩ := node
  cases text <;> simp [Node.toJson, fieldsOf, presentField]

private theorem distinct_fieldsOf (node : Node) : ((fieldsOf node).map Prod.fst).Nodup := by
  have named : ((fieldsOf node).map Prod.fst).Sublist Node.fieldNames := by
    simp only [fieldsOf, List.map_cons, List.map_append]
    apply List.Sublist.cons_cons
    exact (names_presentField _ _ _).append ((names_presentField _ _ _).append
      ((names_presentField _ _ _).append (names_presentField _ _ _)))
  exact named.nodup (by decide)

private theorem ofFields?_fieldsOf (node : Node) :
    Node.ofFields? (fieldsOf node) node.content = some node := by
  have attrs : defaulted? Attributes.ofJson? .empty "attrs" (fieldsOf node) = some node.attrs := by
    apply readAttributes
    simp [fieldsOf]
  have marks : defaulted? (items? Mark.ofJson?) [] "marks" (fieldsOf node) = some node.marks := by
    have found : Json.field? "marks" (fieldsOf node) =
        if node.marks.isEmpty = false then some (.array (node.marks.map Mark.toJson))
        else none := by
      simp [fieldsOf]
    cases empty : node.marks with
    | nil => simp [defaulted?, found, empty]
    | cons mark rest =>
        simp only [defaulted?, found, empty, List.isEmpty_cons, if_true]
        exact Json.items?_map _ fun mark _ => Mark.ofJson?_toJson mark
  have text : optional? Value.string? "text" (fieldsOf node) = some node.text := by
    have found : Json.field? "text" (fieldsOf node) = node.text.map .string := by
      cases text : node.text <;> simp [fieldsOf, text]
    cases text : node.text <;> simp [optional?, found, text, Value.string?]
  have type : required? Value.string? "type" (fieldsOf node) = some node.type := by
    simp [required?, fieldsOf, Value.string?]
  simp only [Node.ofFields?, type, attrs, marks, text, Option.bind_eq_bind, Option.bind_some]
  cases node
  rfl

private theorem contentOfFields?_eq (fields : List (String × Value)) :
    contentOfFields? fields =
      match Json.field? "content" fields with
      | none => some []
      | some (.array items) => nodesOfItems? items
      | some _ => none := by
  induction fields with
  | nil => rfl
  | cons field rest induction =>
      obtain ⟨name, value⟩ := field
      by_cases named : name = "content"
      · cases value <;> simp [contentOfFields?, Json.field?_cons, named]
      · cases value <;> simp [contentOfFields?, Json.field?_cons, named, induction]

private theorem contentOfFields?_fieldsOf {node : Node}
    (content : nodesOfItems? (nodesToItems node.content) = some node.content) :
    contentOfFields? (fieldsOf node) = some node.content := by
  have found : Json.field? "content" (fieldsOf node) =
      if node.content.isEmpty = false then some (.array (nodesToItems node.content)) else none := by
    simp [fieldsOf]
  rw [contentOfFields?_eq, found]
  cases empty : node.content with
  | nil => simp
  | cons child rest => simpa [empty] using content

mutual
theorem Node.ofJson?_toJson (node : Node) : Node.ofJson? node.toJson = some node := by
  have content : contentOfFields? (fieldsOf node) = some node.content :=
    contentOfFields?_fieldsOf (nodesOfItems?_nodesToItems node.content)
  rw [toJson_eq, Node.ofJson?, Json.repeats_of_nodup _ (distinct_fieldsOf node), content]
  exact ofFields?_fieldsOf node
termination_by sizeOf node
decreasing_by
  cases node
  decreasing_tactic

theorem nodesOfItems?_nodesToItems (nodes : List Node) :
    nodesOfItems? (nodesToItems nodes) = some nodes := by
  cases nodes with
  | nil => rfl
  | cons node rest =>
      simp only [nodesToItems, nodesOfItems?, Node.ofJson?_toJson node,
        nodesOfItems?_nodesToItems rest]
termination_by sizeOf nodes
end

end EditorMarkdown.Document
