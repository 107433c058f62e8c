import EditorMarkdown.Source.Link
import EditorMarkdown.Source.Start

/-!
Blocks, and the state of their reader: the containers that are open form a spine, innermost first.
-/

namespace EditorMarkdown.Source

open Markdown (Align)

/-- A finished block. Inline content is cut into parts that are not yet settled. -/
inductive Block where
  | paragraph (content : Content)
  | heading (depth : Nat) (content : Content)
  | rule
  | code (info : Option (List Char)) (lines : List (List Char))
  | html (lines : List (List Char))
  | metadata (lines : List (List Char))
  | table (align : List (Option Align)) (head : List Content) (rows : List (List Content))
  | quote (blocks : List Block)
  | list (tight : Bool) (start : Option Nat) (items : List Block)
  | item (indent : Nat) (blocks : List Block)
  | task (checked : Bool)
  deriving Repr, Inhabited

/-- An open container and its blocks, the last one first. -/
structure Level where
  container : Container
  blocks : List Block
  deriving Repr, Inhabited

def Level.close (level : Level) : Block :=
  match level.container with
  | .quote => .quote level.blocks.reverse
  | .list tight marker number =>
      .list tight (if marker = '.' || marker = ')' then some number else none)
        level.blocks.reverse
  | .item indent => .item indent level.blocks.reverse

/-! The state of the reader. -/

/-- What has been read: the open containers, innermost first; the finished blocks outside all
containers, the last one first; whether the line before was blank and may make a list loose;
whether the innermost item has no content yet; and the definitions, the last one first. -/
structure State where
  spine : List Level
  blocks : List Block
  blank : Bool
  bare : Bool
  definitions : List Definition
  deriving Repr, Inhabited

namespace State

def empty : State := ⟨[], [], false, false, []⟩

def containers (state : State) : List Container := (state.spine.map Level.container).reverse

/-- The place after the marks of a line, and whether the line continues all open containers. -/
def pass (state : State) (line : Spot) : Bool × Cursor :=
  let (count, cursor) := Container.pass state.containers (.start line)
  (count = state.spine.length, cursor)

/-- The place after the marks of a line that continues all open containers. -/
def passAll? (state : State) (line : Spot) : Option Cursor :=
  let (same, cursor) := state.pass line
  if same then some cursor else none

def add (block : Block) (state : State) : State :=
  match state.spine with
  | [] => { state with blocks := block :: state.blocks }
  | level :: rest => { state with spine := { level with blocks := block :: level.blocks } :: rest }

def push (container : Container) (state : State) : State :=
  { state with spine := ⟨container, []⟩ :: state.spine }

def pop (state : State) : State :=
  match state.spine with
  | [] => state
  | level :: rest =>
      let closed := { state with spine := rest }.add level.close
      match level.container with
      | .list true _ _ => { closed with bare := false }
      | _ => closed

def popMany : Nat → State → State
  | 0, state => state
  | count + 1, state => popMany count state.pop

/-- An item that begins with a blank line ends with a second one. -/
def finishBareItem (state : State) : State :=
  let closed :=
    match state.spine with
    | ⟨.item _, _⟩ :: _ => if state.bare && state.blank then state.pop else state
    | _ => state
  { closed with bare := false }

def loosen : List Level → List Level
  | level :: ⟨.list _ marker number, blocks⟩ :: rest =>
      level :: ⟨.list false marker number, blocks⟩ :: rest
  | spine => spine

/-- Ends a list whose last item has ended, before a block that is no item. A blank line before the
block makes the list around it loose. -/
def finishList (state : State) : State :=
  let state := state.finishBareItem
  let state :=
    match state.spine with
    | ⟨.list _ _ _, _⟩ :: _ => state.pop
    | _ => state
  if state.blank then { state with spine := loosen state.spine, blank := false } else state

private def openList (marker : Marker) (state : State) : State :=
  { state.finishList.push (.list true marker.char marker.number) with blank := false }

/-- Goes on with the list that is open, or begins one that fits a marker. -/
def continueList (marker : Marker) (state : State) : State :=
  let state := state.finishBareItem
  match state.spine with
  | ⟨.list _ c number, blocks⟩ :: rest =>
      if c = marker.char then
        if state.blank then
          { state with spine := ⟨.list false c number, blocks⟩ :: rest, blank := false }
        else state
      else state.openList marker
  | _ => state.openList marker

def addBlank (state : State) : State :=
  match state.spine with
  | ⟨.quote, _⟩ :: _ => state
  | ⟨.item indent, blocks⟩ :: rest =>
      { state with
        spine := ⟨.item (if state.bare then 0 else indent), blocks⟩ :: rest, blank := true }
  | _ => { state with blank := true }

end State

end EditorMarkdown.Source
