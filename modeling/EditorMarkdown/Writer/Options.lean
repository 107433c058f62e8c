import EditorMarkdown.Markdown.Node

/-!
How markdown is written: the characters of its markers, and handlers that write nodes of a kind in
place of the default form.
-/

namespace EditorMarkdown.Writer

open Markdown (Kind Node)

/-- The kinds of the nodes around a node, the innermost first. -/
structure Scope where
  ancestors : List Kind
  deriving DecidableEq, Repr, Inhabited

namespace Scope

def within (scope : Scope) (kind : Kind) : Bool := scope.ancestors.contains kind

def enter (kind : Kind) (scope : Scope) : Scope := ⟨kind :: scope.ancestors⟩

@[simp] theorem within_enter (scope : Scope) (outer kind : Kind) :
    (scope.enter outer).within kind = (decide (kind = outer) || scope.within kind) := by
  simp [within, enter]

end Scope

/-- The text of a node, or nothing to leave it to the default form. -/
abbrev Handler := Node → Scope → Option String

structure Options where
  frontMatter : Option String
  bullet : Char
  /-- The bullet of a list right after a list with the other bullet. -/
  bulletOther : Char
  rule : Char
  emphasis : Char
  strong : Char
  /-- Whether the items of an ordered list are counted up. -/
  increment : Bool
  handlers : List (Kind × Handler)
  deriving Inhabited

namespace Options

/-- Dashes for bullets and rules, stars for emphasis, items counted up, no handlers. -/
def standard : Options :=
  { frontMatter := none, bullet := '-', bulletOther := '*', rule := '-', emphasis := '*',
    strong := '*', increment := true, handlers := [] }

def handler? (options : Options) (kind : Kind) : Option Handler :=
  (options.handlers.find? fun entry => entry.1 = kind).map (·.2)

def withHandler (kind : Kind) (handler : Handler) (options : Options) : Options :=
  { options with handlers := (kind, handler) :: options.handlers }

@[simp] theorem handler?_withHandler_self (options : Options) (kind : Kind) (handler : Handler) :
    (options.withHandler kind handler).handler? kind = some handler := by
  simp [withHandler, handler?]

theorem handler?_withHandler_of_ne (options : Options) {kind other : Kind} (handler : Handler)
    (h : kind ≠ other) : (options.withHandler kind handler).handler? other =
      options.handler? other := by
  simp [withHandler, handler?, h]

/-- A break in a table cell as a tag, because a cell is a single line. -/
def cellBreak : Handler := fun _ scope => if scope.within .tableCell then some "<br>" else none

def forDocuments : Options := standard.withHandler .lineBreak cellBreak

def forDocument (frontMatter : Option String) : Options :=
  { forDocuments with frontMatter := frontMatter.filter fun value => !value.isEmpty }

end Options

end EditorMarkdown.Writer
