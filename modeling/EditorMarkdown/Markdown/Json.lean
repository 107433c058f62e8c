import EditorMarkdown.Json.Record
import EditorMarkdown.Markdown.Node

/-!
The JSON form of markdown nodes: a record with the name of the kind as `type` and a field for each
part of the node. Reading ignores other fields and refuses repeated ones; inside a node it takes the
place of a kind among all kinds for its name.
-/

namespace EditorMarkdown.Markdown

open Json (Value required? optional? nullable repeats fieldsInOrder?)

def Kind.fieldNames : Kind → List String
  | .root | .paragraph | .blockquote | .tableRow | .tableCell | .emphasis | .strong | .delete =>
      ["children"]
  | .heading => ["depth", "children"]
  | .callout => ["kind", "children"]
  | .list => ["ordered", "start", "spread", "children"]
  | .listItem => ["spread", "checked", "children"]
  | .code => ["lang", "meta", "value"]
  | .table => ["align", "children"]
  | .html | .yaml | .text | .inlineCode => ["value"]
  | .link => ["url", "title", "children"]
  | .image => ["url", "title", "alt"]
  | .thematicBreak | .lineBreak => []

private def depth? (value : Value) : Option UInt8 :=
  value.natural?.bind fun depth => if depth < 256 then some (UInt8.ofNat depth) else none

private def start? (value : Value) : Option UInt32 :=
  value.natural?.bind fun start =>
    if start < 4294967296 then some (UInt32.ofNat start) else none

private def calloutKind? (value : Value) : Option CalloutKind :=
  (Json.name? value).bind CalloutKind.ofName?

private def columnAlign? : Value → Option (Option Align)
  | .null => some none
  | value => ((Json.name? value).bind Align.ofName?).map some

private def columnAlignJson (entry : Option Align) : Value :=
  nullable (fun align => .string align.name) entry

def Node.ofFields? (fields : List (String × Value)) (children : Option (List Node)) :
    Kind → Option Node
  | .root => do return .root (← children)
  | .heading => do return .heading (← required? depth? "depth" fields) (← children)
  | .paragraph => do return .paragraph (← children)
  | .thematicBreak => some .thematicBreak
  | .blockquote => do return .blockquote (← children)
  | .callout => do return .callout (← required? calloutKind? "kind" fields) (← children)
  | .list => do
      let ordered ← required? Value.bool? "ordered" fields
      let start ← optional? start? "start" fields
      let spread ← required? Value.bool? "spread" fields
      return .list ordered start spread (← children)
  | .listItem => do
      let spread ← required? Value.bool? "spread" fields
      let checked ← optional? Value.bool? "checked" fields
      return .listItem spread checked (← children)
  | .code => do
      let lang ← optional? Value.string? "lang" fields
      let detail ← optional? Value.string? "meta" fields
      return .code lang detail (← required? Value.string? "value" fields)
  | .table => do
      return .table (← required? (Json.items? columnAlign?) "align" fields) (← children)
  | .tableRow => do return .tableRow (← children)
  | .tableCell => do return .tableCell (← children)
  | .html => do return .html (← required? Value.string? "value" fields)
  | .yaml => do return .yaml (← required? Value.string? "value" fields)
  | .text => do return .text (← required? Value.string? "value" fields)
  | .emphasis => do return .emphasis (← children)
  | .strong => do return .strong (← children)
  | .delete => do return .delete (← children)
  | .inlineCode => do return .inlineCode (← required? Value.string? "value" fields)
  | .lineBreak => some .lineBreak
  | .link => do
      let url ← required? Value.string? "url" fields
      let title ← optional? Value.string? "title" fields
      return .link url title (← children)
  | .image => do
      let url ← required? Value.string? "url" fields
      let title ← optional? Value.string? "title" fields
      return .image url title (← required? Value.string? "alt" fields)

/-- The kind that a value says: its name or, inside another node, its place among all kinds. -/
def Kind.ofJson? (inner : Bool) : Value → Option Kind
  | .string name => Kind.ofName? name
  | value => if inner then value.natural?.bind fun place => Kind.all[place]? else none

def Kind.ofFields? (inner : Bool) (fields : List (String × Value)) : Option Kind := do
  let kind ← required? (Kind.ofJson? inner) "type" fields
  if repeats ("type" :: kind.fieldNames) fields then none else return kind

mutual
/-- The node that a value describes; `inner` tells whether it stands inside another node. -/
def Node.ofJson? (inner : Bool) : Value → Option Node
  | .object fields =>
      (Kind.ofFields? inner fields).bind (Node.ofFields? fields (childrenOfFields? true fields))
  | .array (tag :: items) => do
      let kind ← Kind.ofJson? inner tag
      let fields ← fieldsInOrder? kind.fieldNames items
      Node.ofFields? fields (childrenInOrder? kind.fieldNames items) kind
  | _ => none

def childrenOfFields? (inner : Bool) : List (String × Value) → Option (List Node)
  | [] => none
  | (name, .array items) :: rest =>
      if name = "children" then nodesOfItems? inner items else childrenOfFields? inner rest
  | (name, _) :: rest => if name = "children" then none else childrenOfFields? inner rest

def childrenInOrder? : List String → List Value → Option (List Node)
  | name :: names, .array items :: rest =>
      if name = "children" then nodesOfItems? true items else childrenInOrder? names rest
  | name :: names, _ :: rest => if name = "children" then none else childrenInOrder? names rest
  | _, _ => none

def nodesOfItems? (inner : Bool) : List Value → Option (List Node)
  | [] => some []
  | item :: rest =>
      match Node.ofJson? inner item, nodesOfItems? inner rest with
      | some node, some nodes => some (node :: nodes)
      | _, _ => none
end

/-- The children of a root that is written as a record of its own. -/
def rootOfJson? (value : Value) : Option (List Node) :=
  (Json.fields? ["children"] value).bind (childrenOfFields? false)

private def typed (kind : Kind) (fields : List (String × Value)) : Value :=
  .object (("type", .string kind.name) :: fields)

mutual
def Node.toJson : Node → Value
  | .root children => typed .root [("children", .array (nodesToItems children))]
  | .heading depth children =>
      typed .heading
        [("depth", .int depth.toNat), ("children", .array (nodesToItems children))]
  | .paragraph children => typed .paragraph [("children", .array (nodesToItems children))]
  | .thematicBreak => typed .thematicBreak []
  | .blockquote children => typed .blockquote [("children", .array (nodesToItems children))]
  | .callout kind children =>
      typed .callout
        [("kind", .string kind.name), ("children", .array (nodesToItems children))]
  | .list ordered start spread children =>
      typed .list
        [("ordered", .bool ordered), ("start", nullable (fun start => .int start.toNat) start),
          ("spread", .bool spread), ("children", .array (nodesToItems children))]
  | .listItem spread checked children =>
      typed .listItem
        (("spread", .bool spread) ::
          (match checked with
            | none => [("children", .array (nodesToItems children))]
            | some checked =>
                [("checked", .bool checked), ("children", .array (nodesToItems children))]))
  | .code lang detail value =>
      typed .code
        [("lang", nullable .string lang), ("meta", nullable .string detail),
          ("value", .string value)]
  | .table align children =>
      typed .table
        [("align", .array (align.map columnAlignJson)),
          ("children", .array (nodesToItems children))]
  | .tableRow children => typed .tableRow [("children", .array (nodesToItems children))]
  | .tableCell children => typed .tableCell [("children", .array (nodesToItems children))]
  | .html value => typed .html [("value", .string value)]
  | .yaml value => typed .yaml [("value", .string value)]
  | .text value => typed .text [("value", .string value)]
  | .emphasis children => typed .emphasis [("children", .array (nodesToItems children))]
  | .strong children => typed .strong [("children", .array (nodesToItems children))]
  | .delete children => typed .delete [("children", .array (nodesToItems children))]
  | .inlineCode value => typed .inlineCode [("value", .string value)]
  | .lineBreak => typed .lineBreak []
  | .link url title children =>
      typed .link
        [("url", .string url), ("title", nullable .string title),
          ("children", .array (nodesToItems children))]
  | .image url title alt =>
      typed .image
        [("url", .string url), ("title", nullable .string title), ("alt", .string alt)]

def nodesToItems : List Node → List Value
  | [] => []
  | node :: rest => node.toJson :: nodesToItems rest
end

def rootToJson (children : List Node) : Value :=
  .object [("children", .array (nodesToItems children))]

/-! What is written is read again as it was. -/

private theorem depth?_toNat (depth : UInt8) : depth? (.int depth.toNat) = some depth := by
  have small : depth.toNat < 256 := depth.toNat_lt
  have natural : (Value.int depth.toNat).natural? = some depth.toNat := by
    simp [Value.natural?]
    omega
  simp [depth?, natural, small]

private theorem start?_toNat (start : UInt32) : start? (.int start.toNat) = some start := by
  have small : start.toNat < 4294967296 := start.toNat_lt
  have natural : (Value.int start.toNat).natural? = some start.toNat := by
    simp [Value.natural?]
    omega
  simp [start?, natural, small]

private theorem columnAlign?_columnAlignJson (entry : Option Align) :
    columnAlign? (columnAlignJson entry) = some entry := by
  cases entry <;> simp [columnAlign?, columnAlignJson, nullable, Json.name?]

private theorem childrenOfFields?_eq (inner : Bool) (fields : List (String × Value)) :
    childrenOfFields? inner fields =
      match Json.field? "children" fields with
      | some (.array items) => nodesOfItems? inner items
      | _ => none := by
  induction fields with
  | nil => rfl
  | cons field rest induction =>
      obtain ⟨name, value⟩ := field
      by_cases named : name = "children"
      · cases value <;> simp [childrenOfFields?, named]
      · cases value <;> simp [childrenOfFields?, named, induction]

private theorem ofJson?_typed (inner : Bool) (kind : Kind) {fields : List (String × Value)}
    (distinct : (fields.map Prod.fst).Nodup) (untyped : "type" ∉ fields.map Prod.fst) :
    Node.ofJson? inner (typed kind fields) =
      Node.ofFields? (("type", .string kind.name) :: fields)
        (childrenOfFields? true fields) kind := by
  have single : ((("type", Value.string kind.name) :: fields).map Prod.fst).Nodup :=
    List.nodup_cons.2 ⟨untyped, distinct⟩
  have read : Kind.ofFields? inner (("type", .string kind.name) :: fields) = some kind := by
    simp [Kind.ofFields?, required?, Kind.ofJson?, Json.repeats_of_nodup _ single]
  rw [typed, Node.ofJson?, read, Option.bind_some, childrenOfFields?_eq, childrenOfFields?_eq]
  simp

mutual
theorem Node.ofJson?_toJson (inner : Bool) (node : Node) :
    Node.ofJson? inner node.toJson = some node := by
  cases node with
  | root children | paragraph children | blockquote children | tableRow children
  | tableCell children | emphasis children | strong children | delete children =>
      rw [Node.toJson, ofJson?_typed inner _ (by simp) (by simp), childrenOfFields?_eq]
      simp [Node.ofFields?, nodesOfItems?_nodesToItems true children]
  | heading depth children =>
      rw [Node.toJson, ofJson?_typed inner _ (by simp) (by simp), childrenOfFields?_eq]
      simp [Node.ofFields?, required?, depth?_toNat, nodesOfItems?_nodesToItems true children]
  | callout kind children =>
      rw [Node.toJson, ofJson?_typed inner _ (by simp) (by simp), childrenOfFields?_eq]
      simp [Node.ofFields?, required?, calloutKind?, Json.name?,
        nodesOfItems?_nodesToItems true children]
  | list ordered start spread children =>
      rw [Node.toJson, ofJson?_typed inner _ (by simp) (by simp), childrenOfFields?_eq]
      cases start <;>
        simp [Node.ofFields?, required?, optional?, nullable, Value.bool?, start?_toNat,
          nodesOfItems?_nodesToItems true children]
  | listItem spread checked children =>
      cases checked <;>
        rw [Node.toJson, ofJson?_typed inner _ (by simp) (by simp), childrenOfFields?_eq] <;>
        simp [Node.ofFields?, required?, optional?, Value.bool?,
          nodesOfItems?_nodesToItems true children]
  | code lang detail value =>
      rw [Node.toJson, ofJson?_typed inner _ (by simp) (by simp)]
      cases lang <;> cases detail <;>
        simp [Node.ofFields?, required?, optional?, nullable, Value.string?]
  | table align children =>
      have columns : Json.items? columnAlign? (.array (align.map columnAlignJson)) = some align :=
        Json.items?_map align fun entry _ => columnAlign?_columnAlignJson entry
      rw [Node.toJson, ofJson?_typed inner _ (by simp) (by simp), childrenOfFields?_eq]
      simp [Node.ofFields?, required?, columns, nodesOfItems?_nodesToItems true children]
  | link url title children =>
      rw [Node.toJson, ofJson?_typed inner _ (by simp) (by simp), childrenOfFields?_eq]
      cases title <;>
        simp [Node.ofFields?, required?, optional?, nullable, Value.string?,
          nodesOfItems?_nodesToItems true children]
  | image url title alt =>
      rw [Node.toJson, ofJson?_typed inner _ (by simp) (by simp)]
      cases title <;>
        simp [Node.ofFields?, required?, optional?, nullable, Value.string?]
  | html value | yaml value | text value | inlineCode value =>
      rw [Node.toJson, ofJson?_typed inner _ (by simp) (by simp)]
      simp [Node.ofFields?, required?, Value.string?]
  | thematicBreak | lineBreak =>
      rw [Node.toJson, ofJson?_typed inner _ (by simp) (by simp)]
      rfl

theorem nodesOfItems?_nodesToItems (inner : Bool) (nodes : List Node) :
    nodesOfItems? inner (nodesToItems nodes) = some nodes := by
  cases nodes with
  | nil => rfl
  | cons node rest =>
      simp only [nodesToItems, nodesOfItems?, Node.ofJson?_toJson inner node,
        nodesOfItems?_nodesToItems inner rest]
end

theorem rootOfJson?_rootToJson (children : List Node) :
    rootOfJson? (rootToJson children) = some children := by
  have distinct :
      Json.repeats ["children"] [("children", .array (nodesToItems children))] = false :=
    Json.repeats_of_nodup _ (by simp)
  simp [rootOfJson?, rootToJson, Json.fields?, distinct, childrenOfFields?_eq,
    nodesOfItems?_nodesToItems]

end EditorMarkdown.Markdown
