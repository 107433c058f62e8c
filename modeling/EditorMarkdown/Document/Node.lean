import EditorMarkdown.Document.Attributes

/-!
The document tree of an editor. Every node has a type, and may have attributes, contents, marks and
a text.
-/

namespace EditorMarkdown.Document

open Json (Value)

structure Mark where
  type : String
  attrs : Attributes
  deriving Repr, Inhabited

def Mark.same (first second : Mark) : Bool :=
  first.type = second.type && first.attrs.same second.attrs

@[simp] theorem Mark.same_self (mark : Mark) : mark.same mark := by
  simp [same, Attributes.same, Value.sameFields_self]

/-- Whether two lists hold the same marks in the same order. -/
def sameMarks : List Mark → List Mark → Bool
  | [], [] => true
  | first :: rest, second :: others => first.same second && sameMarks rest others
  | _, _ => false

def Mark.attrString? (name : String) (mark : Mark) : Option String :=
  (mark.attrs.get? name).bind Value.string?

structure Node where
  type : String
  attrs : Attributes
  content : List Node
  marks : List Mark
  text : Option String
  deriving Repr, Inhabited

namespace Node

def plain (type : String) (content : List Node) : Node :=
  { type, attrs := .empty, content, marks := [], text := none }

def isText (node : Node) : Bool := node.text.isSome

/-- An attribute that is not null. -/
def attr? (name : String) (node : Node) : Option Value :=
  (node.attrs.get? name).filter fun value => !value.isNull

def attrString? (name : String) (node : Node) : Option String :=
  (node.attr? name).bind Value.string?

def attrNatural? (name : String) (node : Node) : Option Nat :=
  (node.attr? name).bind Value.natural?

def attrBool? (name : String) (node : Node) : Option Bool :=
  (node.attr? name).bind Value.bool?

def hasMark (type : String) (node : Node) : Bool := node.marks.any fun mark => mark.type = type

mutual
def textContent : Node → String
  | ⟨_, _, content, _, text⟩ => text.getD "" ++ textContents content

def textContents : List Node → String
  | [] => ""
  | node :: rest => node.textContent ++ textContents rest
end

end Node

end EditorMarkdown.Document
