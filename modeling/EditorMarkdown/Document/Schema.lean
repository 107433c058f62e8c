import EditorMarkdown.Document.Node

/-!
Schemas: which types of nodes and marks there are and which attributes they have. Marks are ranked
in the order in which they are declared, and the marks of a node are kept in the order of their
ranks.
-/

namespace EditorMarkdown.Document

open Json (Value)

inductive UnknownType where
  | node (name : String)
  | mark (name : String)
  deriving DecidableEq, Repr

def UnknownType.message : UnknownType → String
  | .node name => "Unknown node type: " ++ name
  | .mark name => "Unknown mark type: " ++ name

inductive Group where
  | block | inline
  deriving DecidableEq, Repr

def Group.name : Group → String
  | .block => "block"
  | .inline => "inline"

def Group.ofName? : String → Option Group
  | "block" => some .block
  | "inline" => some .inline
  | _ => none

structure AttributeSpec where
  name : String
  default : Value
  deriving Repr, Inhabited

structure NodeSpec where
  name : String
  group : Group
  attrs : List AttributeSpec
  deriving Repr

structure MarkSpec where
  name : String
  attrs : List AttributeSpec
  deriving Repr

/-- The given attributes among the declared ones, and the defaults of the others. A given value is
used up by the first declaration of its name. -/
def fillAttributes (given : Attributes) : List AttributeSpec → Attributes
  | specs => go [] specs .empty
where
  go (used : List String) : List AttributeSpec → Attributes → Attributes
    | [], filled => filled
    | spec :: rest, filled =>
        let value := if spec.name ∈ used then spec.default
          else (given.get? spec.name).getD spec.default
        go (spec.name :: used) rest (filled.insert spec.name value)

structure Schema where
  nodes : List NodeSpec
  marks : List MarkSpec
  deriving Repr

namespace Schema

def empty : Schema := ⟨[], []⟩

instance : Inhabited Schema := ⟨empty⟩

def nodeSpec? (name : String) (schema : Schema) : Option NodeSpec :=
  schema.nodes.find? fun spec => spec.name = name

def markSpec? (name : String) (schema : Schema) : Option MarkSpec :=
  schema.marks.find? fun spec => spec.name = name

/-- The rank of a mark; marks that are not declared come after all others. -/
def rank (name : String) (schema : Schema) : Nat :=
  schema.marks.findIdx fun spec => spec.name = name

def rank? (name : String) (schema : Schema) : Option Nat :=
  schema.marks.findIdx? fun spec => spec.name = name

/-- Declares a type of nodes; a type that is declared already is kept. -/
def declareNode (spec : NodeSpec) (schema : Schema) : Schema :=
  if (schema.nodeSpec? spec.name).isSome then schema
  else { schema with nodes := schema.nodes ++ [spec] }

def declareMark (spec : MarkSpec) (schema : Schema) : Schema :=
  if (schema.markSpec? spec.name).isSome then schema
  else { schema with marks := schema.marks ++ [spec] }

def isInline (node : Node) (schema : Schema) : Bool :=
  node.isText || (schema.nodeSpec? node.type).any fun spec => spec.group = .inline

def node (name : String) (attrs : Attributes) (content : List Node) (schema : Schema) :
    Except UnknownType Node :=
  match schema.nodeSpec? name with
  | none => .error (.node name)
  | some spec => .ok { Node.plain name content with attrs := fillAttributes attrs spec.attrs }

def mark (name : String) (attrs : Attributes) (schema : Schema) : Except UnknownType Mark :=
  match schema.markSpec? name with
  | none => .error (.mark name)
  | some spec => .ok ⟨name, fillAttributes attrs spec.attrs⟩

/-- Replaces the first mark of the same type. -/
def replaceMark (mark : Mark) : List Mark → List Mark
  | [] => []
  | other :: rest =>
      if other.type = mark.type then mark :: rest else other :: replaceMark mark rest

/-- Puts a mark before the first mark of a higher rank. -/
def placeMark (schema : Schema) (mark : Mark) : List Mark → List Mark
  | [] => [mark]
  | other :: rest =>
      if schema.rank mark.type < schema.rank other.type then mark :: other :: rest
      else other :: placeMark schema mark rest

def addMark (mark : Mark) (marks : List Mark) (schema : Schema) : List Mark :=
  if marks.any fun other => other.type = mark.type then replaceMark mark marks
  else placeMark schema mark marks

/-- Puts a mark before the first mark of the same or a higher rank. -/
def sortInMark (schema : Schema) (mark : Mark) : List Mark → List Mark
  | [] => [mark]
  | other :: rest =>
      if schema.rank mark.type ≤ schema.rank other.type then mark :: other :: rest
      else other :: sortInMark schema mark rest

/-- Marks in the order of their ranks; those of the same rank keep their order. -/
def orderMarks (schema : Schema) : List Mark → List Mark
  | [] => []
  | mark :: rest => sortInMark schema mark (orderMarks schema rest)

def text (value : String) (marks : List Mark) (schema : Schema) : Except UnknownType Node :=
  match schema.nodeSpec? "text" with
  | none => .error (.node "text")
  | some _ =>
      let marks := marks.foldl (fun marks mark => schema.addMark mark marks) []
      .ok { Node.plain "text" [] with marks, text := some value }

end Schema

end EditorMarkdown.Document
