import EditorMarkdown.Conversion.Tree
import EditorMarkdown.Proofs.Markdown.Parts
import Mathlib.Data.List.Infix
import Mathlib.Data.List.Induction

/-!
Every hook is given the true place of its node. What a context says about a node follows from the
path to the node alone, and a walk that keeps a single context, entering it before a node and
leaving it after the node, finds the context unchanged behind every node, also where a hook fails.
-/

namespace EditorMarkdown.Conversion

open Document (UnknownType)
open Markdown (Kind Node)

variable {root node child : Node} {path : List Nat}

/-! What a path says. -/

def frameAt? (root : Node) (path : List Nat) : Option Frame :=
  (root.at? path).map fun node => ⟨node.kind, path.getLast?.getD 0⟩

def levelAt? (root : Node) (path : List Nat) : Option UInt8 :=
  (root.at? path).bind Context.levelOf?

def Context.ofPath (root : Node) (path : List Nat) : Context where
  frames := path.inits.reverse.filterMap (frameAt? root)
  headingLevel := path.inits.reverse.findSome? (levelAt? root)

/-- What is true of the place of a node that a path leads to. No run has an answer for the greatest
number of levels, because one more does not fit. -/
structure Context.IsAt (root : Node) (path : List Nat) (context : Context) : Prop where
  current : context.current? = frameAt? root path
  ancestor : ∀ sums levels, context.ancestor? sums levels =
    if levels = greatestLevel then .error (if sums = .checked then .overflow else .outOfBounds)
    else .ok (if levels.toNat ≤ path.length then
      frameAt? root (path.take (path.length - levels.toNat)) else none)
  within : ∀ kind, context.within kind ↔ ∃ outer, outer <+: path ∧ outer ≠ path ∧
    ∃ node, root.at? outer = some node ∧ node.kind = kind
  heading : ∀ level, context.headingLevel = some level ↔ ∃ outer, outer <+: path ∧
    levelAt? root outer = some level ∧
      ∀ inner, inner <+: path → outer.length < inner.length → levelAt? root inner = none

namespace Context

variable {context : Context} {index : Nat}

theorem any_frames (kind : Kind) :
    context.frames.any (fun frame => frame.kind = kind) =
      (context.current?.any (fun frame => frame.kind = kind) || context.within kind) := by
  cases equality : context.frames with
  | nil => simp [current?, within, equality]
  | cons first rest => simp [current?, within, equality]

def HasFrames (root : Node) (path : List Nat) (context : Context) : Prop :=
  ∀ levels, context.frame? levels =
    if levels ≤ path.length then frameAt? root (path.take (path.length - levels)) else none

theorem HasFrames.top (root : Node) : HasFrames root [] (top.enter root 0) := by
  intro levels
  cases levels with
  | zero => rfl
  | succ levels => rfl

theorem HasFrames.enter (frames : context.HasFrames root path)
    (reached : root.at? (path ++ [index]) = some child) :
    (context.enter child index).HasFrames root (path ++ [index]) := by
  intro levels
  cases levels with
  | zero =>
      rw [frame?_enter_zero, if_pos (Nat.zero_le _), Nat.sub_zero, List.take_length]
      simp [frameAt?, reached]
  | succ levels =>
      have shorter : (path ++ [index]).length - (levels + 1) = path.length - levels := by simp
      rw [frame?_enter_succ, frames, shorter, List.take_append_of_le_length (Nat.sub_le _ _)]
      simp

theorem HasFrames.ancestor (frames : context.HasFrames root path) (sums : Sums) (levels : UInt64) :
    context.ancestor? sums levels =
      if levels = greatestLevel then .error (if sums = .checked then .overflow else .outOfBounds)
      else .ok (if levels.toNat ≤ path.length then
        frameAt? root (path.take (path.length - levels.toNat)) else none) := by
  split
  · next greatest => rw [greatest, ancestor?_greatestLevel]
  · next fits => rw [ancestor?_of_ne fits, frames]

theorem IsAt.top (root : Node) : IsAt root [] (top.enter root 0) where
  current := rfl
  ancestor := (HasFrames.top root).ancestor
  within := by
    intro kind
    have alone : (Context.top.enter root 0).within kind = false := rfl
    simp [alone]
  heading := by
    intro level
    simp [enter, Context.top, levelAt?]

theorem IsAt.enter (isAt : context.IsAt root path) (frames : context.HasFrames root path)
    (reached : root.at? (path ++ [index]) = some child) :
    (context.enter child index).IsAt root (path ++ [index]) where
  current := by simp [frameAt?, reached]
  ancestor := (frames.enter reached).ancestor
  within := by
    intro kind
    have found : (context.enter child index).within kind =
        context.frames.any fun frame => frame.kind = kind := rfl
    have parent : (∃ node, root.at? path = some node ∧ node.kind = kind) ↔
        context.current?.any (fun frame => frame.kind = kind) := by
      rw [isAt.current, frameAt?]
      cases root.at? path <;> simp
    rw [found, any_frames, Bool.or_eq_true, ← parent, isAt.within]
    constructor
    · rintro (named | ⟨outer, above, -, named⟩)
      · exact ⟨path, List.prefix_append _ _, by simp, named⟩
      · refine ⟨outer, above.trans (List.prefix_append _ _), ?_, named⟩
        rintro rfl
        have longer := above.length_le
        simp only [List.length_append, List.length_singleton] at longer
        omega
    · rintro ⟨outer, above, proper, named⟩
      rcases List.prefix_concat_iff.1 above with whole | above
      · exact absurd whole proper
      · by_cases last : outer = path
        · exact .inl (last ▸ named)
        · exact .inr ⟨outer, above, last, named⟩
  heading := by
    intro level
    have own : levelAt? root (path ++ [index]) = levelOf? child := by simp [levelAt?, reached]
    have entered : (context.enter child index).headingLevel =
        (levelOf? child).or context.headingLevel := rfl
    rw [entered]
    cases given : levelOf? child with
    | none =>
        rw [Option.none_or, isAt.heading]
        constructor
        · rintro ⟨outer, above, isHeading, nearest⟩
          refine ⟨outer, above.trans (List.prefix_append _ _), isHeading, ?_⟩
          intro inner below longer
          rcases List.prefix_concat_iff.1 below with rfl | below
          · exact own.trans given
          · exact nearest inner below longer
        · rintro ⟨outer, above, isHeading, nearest⟩
          rcases List.prefix_concat_iff.1 above with rfl | above
          · rw [own, given] at isHeading
            cases isHeading
          · exact ⟨outer, above, isHeading, fun inner below =>
              nearest inner (below.trans (List.prefix_append _ _))⟩
    | some depth =>
        rw [Option.some_or]
        constructor
        · rintro ⟨⟩
          refine ⟨path ++ [index], List.prefix_rfl, own.trans given, ?_⟩
          intro inner below longer
          exact absurd below.length_le (by omega)
        · rintro ⟨outer, above, isHeading, nearest⟩
          rcases List.prefix_concat_iff.1 above with rfl | above
          · rw [← given, ← own, isHeading]
          · have shorter : outer.length < (path ++ [index]).length := by
              have := above.length_le
              simp
              omega
            have none := nearest _ List.prefix_rfl shorter
            rw [own, given] at none
            cases none

end Context

/-! The walk in which a path decides on the context. -/

namespace Registry

mutual
def fromPath (registry : Registry) (root : Node) (path : List Nat) (node : Node) :
    Except UnknownType (List Document.Node) :=
  let children :=
    match node with
    | .root children | .heading _ children | .paragraph children | .blockquote children
    | .callout _ children | .list _ _ _ children | .listItem _ _ children
    | .table _ children | .tableRow children | .tableCell children | .emphasis children
    | .strong children | .delete children | .link _ _ children =>
        fromPaths registry root path 0 children
    | .thematicBreak | .code _ _ _ | .html _ | .yaml _ | .text _ | .inlineCode _ | .lineBreak
    | .image _ _ _ => .ok []
  children.bind (registry.applyFrom (Context.ofPath root path) node)

def fromPaths (registry : Registry) (root : Node) (path : List Nat) (index : Nat) :
    List Node → Except UnknownType (List Document.Node)
  | [] => .ok []
  | node :: rest => do
      let nodes ← fromPath registry root (path ++ [index]) node
      return nodes ++ (← fromPaths registry root path (index + 1) rest)
end

end Registry

namespace Context

def push (frame : Frame) (context : Context) : Context :=
  { context with frames := frame :: context.frames }

def pop (context : Context) : Context := { context with frames := context.frames.tail }

/-- Sets the level of the heading that a node is, if it is one. -/
def raise (node : Node) (context : Context) : Context :=
  match levelOf? node with
  | some level => { context with headingLevel := some level }
  | none => context

def lower (node : Node) (outer : Option UInt8) (context : Context) : Context :=
  match levelOf? node with
  | some _ => { context with headingLevel := outer }
  | none => context

end Context

namespace Registry

mutual
/-- The document nodes of a node, and the context as it is after them. -/
def visit (registry : Registry) (index : Nat) (node : Node) (context : Context) :
    Except UnknownType (List Document.Node) × Context :=
  let entered := (context.push ⟨node.kind, index⟩).raise node
  let (children, after) :=
    match node with
    | .root children | .heading _ children | .paragraph children | .blockquote children
    | .callout _ children | .list _ _ _ children | .listItem _ _ children
    | .table _ children | .tableRow children | .tableCell children | .emphasis children
    | .strong children | .delete children | .link _ _ children =>
        visitEach registry 0 children entered
    | .thematicBreak | .code _ _ _ | .html _ | .yaml _ | .text _ | .inlineCode _ | .lineBreak
    | .image _ _ _ => (.ok [], entered)
  (children.bind (registry.applyFrom after node), (after.lower node context.headingLevel).pop)

def visitEach (registry : Registry) (index : Nat) :
    List Node → Context → Except UnknownType (List Document.Node) × Context
  | [], context => (.ok [], context)
  | node :: rest, context =>
      match visit registry index node context with
      | (.error unknown, after) => (.error unknown, after)
      | (.ok nodes, after) =>
          match visitEach registry (index + 1) rest after with
          | (.error unknown, last) => (.error unknown, last)
          | (.ok others, last) => (.ok (nodes ++ others), last)
end

end Registry

end EditorMarkdown.Conversion
