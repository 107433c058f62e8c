import EditorMarkdown.Conversion.Context
import EditorMarkdown.Document.Schema

/-!
The registry of types: a schema, and for each type the hooks that convert it. Contributions of the
same name are merged, so one can add a direction to a type that another declared. Each kind of
markdown node belongs to the type that claimed it last.
-/

namespace EditorMarkdown.Conversion

open Document (Schema NodeSpec MarkSpec UnknownType)
open Json (Value)

/-- What is converted to markdown: a node or a mark of a document. -/
inductive Subject where
  | node (node : Document.Node)
  | mark (mark : Document.Mark)
  deriving Repr

namespace Subject

def type : Subject → String
  | .node document => document.type
  | .mark inline => inline.type

def attrs : Subject → Document.Attributes
  | .node document => document.attrs
  | .mark inline => inline.attrs

def node? : Subject → Option Document.Node
  | .node document => some document
  | .mark _ => none

/-- An attribute that is not null. -/
def attr? (name : String) (subject : Subject) : Option Value :=
  (subject.attrs.get? name).filter fun value => !value.isNull

def attrString? (name : String) (subject : Subject) : Option String :=
  (subject.attr? name).bind Value.string?

end Subject

abbrev ToMarkdown := Subject → List Markdown.Node → List Markdown.Node

abbrev FromMarkdown :=
  Markdown.Node → Schema → List Document.Node → Context → Except UnknownType (List Document.Node)

structure Entry where
  name : String
  /-- The kind of markdown node that is converted to the type, if it is not named like the type. -/
  kindName : Option String
  toMarkdown : Option ToMarkdown
  fromMarkdown : Option FromMarkdown

namespace Entry

def named (name : String) : Entry := ⟨name, none, none, none⟩

/-- The name of the kind of markdown node that is converted to the type. -/
def markdownKind (entry : Entry) : String := entry.kindName.getD entry.name

/-- An entry with the parts that a later one of the same name provides. -/
def merge (later : Entry) (entry : Entry) : Entry where
  name := entry.name
  kindName := later.kindName.or entry.kindName
  toMarkdown := later.toMarkdown.or entry.toMarkdown
  fromMarkdown := later.fromMarkdown.or entry.fromMarkdown

end Entry

inductive Structure where
  | node (spec : NodeSpec)
  | mark (spec : MarkSpec)
  deriving Repr

/-- A declaration, if any, with the hooks of its type. -/
structure Extension where
  declares : Option Structure
  entry : Entry

structure Registry where
  schema : Schema
  entries : List Entry
  /-- The kinds of markdown nodes, each with the name of the entry that it belongs to. -/
  owners : List (String × String)

def owner? (kind : String) (owners : List (String × String)) : Option String :=
  (owners.find? fun owner => owner.1 = kind).map (·.2)

private def putEntry (entry : Entry) : List Entry → List Entry
  | [] => [entry]
  | other :: rest =>
      if other.name = entry.name then entry :: rest else other :: putEntry entry rest

theorem find?_putEntry (entry : Entry) (name : String) (entries : List Entry) :
    ((putEntry entry entries).find? fun other => other.name = name) =
      if entry.name = name then some entry else entries.find? fun other => other.name = name := by
  induction entries with
  | nil => by_cases named : entry.name = name <;> simp [putEntry, named]
  | cons other rest induction =>
      by_cases replaced : other.name = entry.name
      · by_cases named : entry.name = name <;> simp [putEntry, replaced, named]
      · by_cases named : entry.name = name
        · have different : other.name ≠ name := named ▸ replaced
          simp [putEntry, different, induction, named]
        · simp [putEntry, replaced, List.find?_cons, induction, named]

namespace Registry

def empty : Registry := ⟨.empty, [], []⟩

instance : Inhabited Registry := ⟨empty⟩

def named? (name : String) (registry : Registry) : Option Entry :=
  registry.entries.find? fun entry => entry.name = name

def ofKind? (kind : String) (registry : Registry) : Option Entry :=
  (owner? kind registry.owners).bind fun name => registry.named? name

/-- Contributes an entry. A type owns the kind of its merged entry if that has a hook for it, and
no other kind. -/
def register (entry : Entry) (registry : Registry) : Registry :=
  let merged :=
    match registry.named? entry.name with
    | some earlier => entry.merge earlier
    | none => entry
  let others := registry.owners.filter fun owner => owner.2 ≠ entry.name
  { registry with
    entries := putEntry merged registry.entries
    owners :=
      if merged.fromMarkdown.isSome then
        (merged.markdownKind, entry.name) ::
          others.filter fun owner => owner.1 ≠ merged.markdownKind
      else others }

def declare (declares : Option Structure) (registry : Registry) : Registry :=
  match declares with
  | none => registry
  | some (.node spec) => { registry with schema := registry.schema.declareNode spec }
  | some (.mark spec) => { registry with schema := registry.schema.declareMark spec }

/-- Contributes a declaration and the hooks of its type. -/
def install (extension : Extension) (registry : Registry) : Registry :=
  (registry.declare extension.declares).register extension.entry

def ofExtensions (extensions : List Extension) : Registry :=
  extensions.foldl (fun registry extension => registry.install extension) empty

end Registry

end EditorMarkdown.Conversion
