import EditorMarkdown.Markdown.Node
import EditorMarkdown.Sums

/-!
Where a markdown node stands: the nodes around it with their places among their siblings, and the
level of the heading around it.
-/

namespace EditorMarkdown.Conversion

open Markdown (Kind Node)

/-- A node seen from inside: its kind and its place among its siblings. -/
structure Frame where
  kind : Kind
  index : Nat
  deriving DecidableEq, Repr

/-- The frames of a node and of the nodes around it, the node itself first. -/
structure Context where
  frames : List Frame
  headingLevel : Option UInt8
  deriving DecidableEq, Repr, Inhabited

namespace Context

def top : Context := ⟨[], none⟩

def levelOf? : Node → Option UInt8
  | .heading depth _ => some depth
  | _ => none

def enter (node : Node) (index : Nat) (context : Context) : Context :=
  ⟨⟨node.kind, index⟩ :: context.frames, (levelOf? node).or context.headingLevel⟩

def current? (context : Context) : Option Frame := context.frames.head?

/-- The frame some levels up; none up is the node itself. -/
def frame? (levels : Nat) (context : Context) : Option Frame := context.frames[levels]?

def greatestLevel : UInt64 := 18446744073709551615

/-- The frame some levels up as a run finds it, which counts its place from the outermost frame. -/
def ancestor? (sums : Sums) (levels : UInt64) (context : Context) :
    Except Fault (Option Frame) :=
  (sums.guard (levels = greatestLevel) (levels + 1)).bind fun steps =>
    if context.frames.length < steps.toNat then .ok none
    else
      match context.frames.reverse[context.frames.length - steps.toNat]? with
      | some frame => .ok (some frame)
      | none => .error .outOfBounds

def within (kind : Kind) (context : Context) : Bool :=
  context.frames.tail.any fun frame => frame.kind = kind

@[simp] theorem current?_enter (node : Node) (index : Nat) (context : Context) :
    (context.enter node index).current? = some ⟨node.kind, index⟩ := rfl

@[simp] theorem frame?_enter_zero (node : Node) (index : Nat) (context : Context) :
    (context.enter node index).frame? 0 = some ⟨node.kind, index⟩ := rfl

@[simp] theorem frame?_enter_succ (node : Node) (index levels : Nat) (context : Context) :
    (context.enter node index).frame? (levels + 1) = context.frame? levels := rfl

theorem ancestor?_of_ne {levels : UInt64} (fits : levels ≠ greatestLevel) (sums : Sums)
    (context : Context) : context.ancestor? sums levels = .ok (context.frame? levels.toNat) := by
  have below : levels.toNat < 18446744073709551615 := by
    have bound := levels.toNat_lt
    have differs : levels.toNat ≠ 18446744073709551615 := fun same => fits (UInt64.toNat_inj.1 same)
    omega
  have steps : (levels + 1).toNat = levels.toNat + 1 := by
    rw [UInt64.toNat_add, UInt64.toNat_one]
    exact Nat.mod_eq_of_lt (by omega)
  have checked : sums.guard (levels = greatestLevel) (levels + 1) = .ok (levels + 1) := by
    simp [fits]
  rw [ancestor?, checked, Except.bind, steps]
  by_cases inside : levels.toNat < context.frames.length
  · have place : context.frames.reverse[context.frames.length - (levels.toNat + 1)]? =
        context.frames[levels.toNat]? := by
      rw [List.getElem?_reverse (by omega)]
      congr 1
      omega
    rw [if_neg (by omega), place, frame?, List.getElem?_eq_getElem inside]
  · rw [if_pos (by omega), frame?, List.getElem?_eq_none (by omega)]

/-- The steps to the greatest level are one more than fits, or none, and lead behind the innermost
frame. -/
theorem ancestor?_greatestLevel (sums : Sums) (context : Context) :
    context.ancestor? sums greatestLevel =
      .error (if sums = .checked then .overflow else .outOfBounds) := by
  cases sums with
  | checked => rfl
  | wrapping =>
      -- zero steps: the place behind the last of the frames
      have wrapped : (greatestLevel + 1).toNat = 0 := rfl
      simp [ancestor?, Except.bind, wrapped]

end Context

end EditorMarkdown.Conversion
