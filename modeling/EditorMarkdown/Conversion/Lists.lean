import EditorMarkdown.Conversion.Registry
import EditorMarkdown.Document.Inline

/-!
The types of lists and their items. A markdown list is an ordered list, a task list if one of its
items is a task, or a bullet list.
-/

namespace EditorMarkdown.Conversion

open Document (Schema UnknownType)
open Json (Value)

def bulletListToMarkdown : ToMarkdown := fun _ children => [.list false none false children]

def orderedStart (subject : Subject) : UInt32 :=
  match (subject.attr? "start").bind Value.natural? with
  | some start => if start < 4294967296 then UInt32.ofNat start else 1
  | none => 1

def orderedListToMarkdown : ToMarkdown := fun subject children =>
  [.list true (some (orderedStart subject)) false children]

/-- An item as a task that is not done; any other node as it is. -/
def itemToTask (schema : Schema) (item : Document.Node) : Except UnknownType Document.Node :=
  if item.type = "listItem" then
    schema.node "taskItem" (.ofPresent [("checked", .bool false)]) item.content
  else .ok item

/-- One task turns the whole list into a task list. -/
def listFromMarkdown : FromMarkdown
  | .list true start _ _, schema, children, _ => do
      let attrs := .ofPresent [("start", .int (start.getD 1).toNat)]
      return [← schema.node "orderedList" attrs children]
  | .list false _ _ _, schema, children, _ => do
      if children.any fun child => child.type = "taskItem" then
        let items ← children.mapM (itemToTask schema)
        return [← schema.node "taskList" .empty items]
      else return [← schema.node "bulletList" .empty children]
  | _, _, children, _ => .ok children

def bulletList : Extension where
  declares := some (.node ⟨"bulletList", .block, []⟩)
  entry :=
    { name := "bulletList", kindName := some "list", toMarkdown := some bulletListToMarkdown,
      fromMarkdown := some listFromMarkdown }

def orderedList : Extension where
  declares := some (.node ⟨"orderedList", .block, [⟨"start", .int 1⟩]⟩)
  entry :=
    { Entry.named "orderedList" with
      kindName := some "list", toMarkdown := some orderedListToMarkdown }

def taskList : Extension where
  declares := some (.node ⟨"taskList", .block, []⟩)
  entry :=
    { Entry.named "taskList" with
      kindName := some "list", toMarkdown := some bulletListToMarkdown }

def itemToMarkdown : ToMarkdown := fun subject children =>
  let checked :=
    if subject.type = "taskItem" then
      some (((subject.attr? "checked").bind Value.bool?).getD false)
    else none
  [.listItem false checked children]

/-- An item holds blocks, and at least an empty paragraph. -/
def itemFromMarkdown : FromMarkdown := fun node schema children _ => do
  let wrapped ← schema.wrapInline children
  let content ←
    if wrapped.isEmpty then do pure [← schema.node "paragraph" .empty []] else pure wrapped
  match node with
  | .listItem _ (some checked) _ =>
      return [← schema.node "taskItem" (.ofPresent [("checked", .bool checked)]) content]
  | _ => return [← schema.node "listItem" .empty content]

def listItem : Extension where
  declares := some (.node ⟨"listItem", .block, []⟩)
  entry :=
    { Entry.named "listItem" with
      toMarkdown := some itemToMarkdown, fromMarkdown := some itemFromMarkdown }

def taskItem : Extension where
  declares := some (.node ⟨"taskItem", .block, [⟨"checked", .bool false⟩]⟩)
  entry :=
    { Entry.named "taskItem" with
      kindName := some "listItem", toMarkdown := some itemToMarkdown }

def listExtensions : List Extension := [bulletList, orderedList, taskList, listItem, taskItem]

end EditorMarkdown.Conversion
