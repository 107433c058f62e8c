import Mathlib.Logic.Relation
import EditorMarkdown.Proofs.Markdown.Parts
import EditorMarkdown.Proofs.Writer.Place

/-!
Where the writer comes to. The nodes that are written in the default form, one from the other, are
the visits of a writer. The scope of a visit is what is around its node in the tree, but for the
lists that continue a list: nobody is asked about those, and what is in them does not know of them.
-/

namespace EditorMarkdown.Writer

open Markdown (Kind Node)

/-- A node that is written: its path from the root, what it sees around it, and whether it is
offered to the handler of its kind. -/
structure Visit where
  path : List Nat
  node : Node
  scope : Scope
  offered : Bool

namespace Visit

/-- What a visit is written as if it is offered and its handler has an answer. -/
def handled? (options : Options) (visit : Visit) : Option (List Char) :=
  if visit.offered then
    ((options.handler? visit.node.kind).bind fun handler =>
      handler visit.node visit.scope).map String.toList
  else none

theorem handled?_eq (options : Options) (visit : Visit) :
    (if !visit.offered then none else options.handled? visit.scope visit.node) =
      visit.handled? options := by
  unfold Visit.handled? Options.handled?
  cases visit.offered <;> cases options.handler? visit.node.kind <;> rfl

/-- The scope of what the node of a visit holds, in the default form. -/
def inside (visit : Visit) : Scope :=
  match visit.node with
  | .list _ _ _ _ => if visit.offered then visit.scope.enter .list else visit.scope
  | .listItem _ _ _ =>
      if visit.offered then (visit.scope.enter .listItem).enter .listItem
      else visit.scope.enter .listItem
  | node => visit.scope.enter node.kind

theorem within_inside (visit : Visit) (kind : Kind) :
    visit.inside.within kind ↔
      visit.scope.within kind ∨
        kind = visit.node.kind ∧ ¬(visit.node.kind = .list ∧ visit.offered = false) := by
  obtain ⟨path, node, scope, offered⟩ := visit
  cases node <;> cases offered <;> simp [inside, Node.kind, or_comm]

end Visit

def before (previous : Option Node) (nodes : List Node) : Nat → Option Node
  | 0 => previous
  | index + 1 => nodes[index]?

def holdsBlocks : Kind → Bool
  | .root | .blockquote | .callout | .listItem => true
  | _ => false

/-- Whether a child is offered to a handler, if it is written at all: not if it is a list that
continues the one before it, and neither are the items of a list or the rows of a table. -/
def offers? (parent : Node) (index : Nat) (child : Node) : Option Bool :=
  if holdsBlocks parent.kind then some !continuesList (before none parent.children index) child
  else
    match parent.kind with
    | .list => if child.kind = .listItem then some false else none
    | .table => if child.kind = .tableRow then some false else none
    | .tableRow => if child.kind = .tableCell then some true else none
    | _ => some true

inductive Leads (options : Options) : Visit → Visit → Prop
  | child {visit : Visit} {index : Nat} {child : Node} {offered : Bool}
      (unhandled : visit.handled? options = none)
      (found : visit.node.children[index]? = some child)
      (way : offers? visit.node index child = some offered) :
      Leads options visit ⟨visit.path ++ [index], child, visit.inside, offered⟩

abbrev Reaches (options : Options) : Visit → Visit → Prop := Relation.ReflTransGen (Leads options)

def Visit.start (children : List Node) : Visit := ⟨[], .root children, ⟨[]⟩, false⟩

def Visits (options : Options) (children : List Node) (visit : Visit) : Prop :=
  Reaches options (.start children) visit

/-! Where visits are. -/

/-- Whether a path ends at a list right behind a list of the same flavour, among blocks. -/
def IsAlternate (root : Node) (path : List Nat) : Prop :=
  ∃ outer index parent first second,
    path = outer ++ [index + 1] ∧ root.at? outer = some parent ∧ holdsBlocks parent.kind ∧
      parent.children[index]? = some first ∧ parent.children[index + 1]? = some second ∧
      continuesList (some first) second

theorem not_isAlternate_nil (root : Node) : ¬IsAlternate root [] := by
  rintro ⟨outer, index, _, _, _, empty, -⟩
  simp at empty

theorem kind_of_continuesList {previous : Option Node} {node : Node}
    (continues : continuesList previous node) : node.kind = .list := by
  cases node with
  | list => rfl
  | _ => simp [continuesList] at continues

theorem isAlternate_concat {root parent child : Node} {path : List Nat} {index : Nat}
    (found : root.at? path = some parent) (next : parent.children[index]? = some child) :
    IsAlternate root (path ++ [index]) ↔
      holdsBlocks parent.kind ∧ continuesList (before none parent.children index) child := by
  constructor
  · rintro ⟨outer, place, other, first, second, same, at_outer, blocks, isFirst, isSecond,
      continues⟩
    obtain ⟨rfl, rfl⟩ : path = outer ∧ index = place + 1 := by simpa using same
    cases found.symm.trans at_outer
    cases next.symm.trans isSecond
    refine ⟨blocks, ?_⟩
    rwa [before, isFirst]
  · rintro ⟨blocks, continues⟩
    cases index with
    | zero => simp [before, continuesList] at continues
    | succ index =>
        cases isFirst : parent.children[index]? with
        | none => simp [before, isFirst, continuesList] at continues
        | some first =>
            rw [before, isFirst] at continues
            exact ⟨path, index, parent, first, child, rfl, found, blocks, isFirst, next, continues⟩

/-- Whether a node of a kind is around the end of a path, lists that continue a list apart. -/
def Around (root : Node) (path : List Nat) (kind : Kind) : Prop :=
  ∃ outer part, outer <+: path ∧ outer ≠ path ∧ root.at? outer = some part ∧ part.kind = kind ∧
    ¬IsAlternate root outer

theorem not_around_nil (root : Node) (kind : Kind) : ¬Around root [] kind := by
  rintro ⟨outer, _, shorter, different, -⟩
  exact different (List.prefix_nil.1 shorter)

theorem around_concat {root parent : Node} {path : List Nat}
    (found : root.at? path = some parent) (index : Nat) (kind : Kind) :
    Around root (path ++ [index]) kind ↔
      Around root path kind ∨ kind = parent.kind ∧ ¬IsAlternate root path := by
  constructor
  · rintro ⟨outer, part, shorter, different, at_outer, isKind, counted⟩
    rcases List.prefix_concat_iff.1 shorter with whole | within
    · exact absurd whole different
    · by_cases same : outer = path
      · subst same
        cases found.symm.trans at_outer
        exact .inr ⟨isKind.symm, counted⟩
      · exact .inl ⟨outer, part, within, same, at_outer, isKind, counted⟩
  · rintro (⟨outer, part, within, different, at_outer, isKind, counted⟩ | ⟨isKind, counted⟩)
    · refine ⟨outer, part, within.trans (List.prefix_append _ _), ?_, at_outer, isKind, counted⟩
      rintro rfl
      exact absurd within.length_le (by simp)
    · exact ⟨path, parent, List.prefix_append _ _, by simp, found, isKind.symm, counted⟩

/-- What a visit says of its node is so in the tree. -/
structure Placed (root : Node) (visit : Visit) : Prop where
  found : root.at? visit.path = some visit.node
  alternate : IsAlternate root visit.path ↔ visit.node.kind = .list ∧ visit.offered = false
  within : ∀ kind, visit.scope.within kind ↔ Around root visit.path kind

theorem placed_start (children : List Node) : Placed (.root children) (.start children) where
  found := rfl
  alternate := by simp [Visit.start, not_isAlternate_nil, Node.kind]
  within kind := by simp [Visit.start, not_around_nil, Scope.within]

theorem alternate_of_offers? {parent child : Node} {index : Nat} {offered : Bool}
    (way : offers? parent index child = some offered) :
    (holdsBlocks parent.kind ∧ continuesList (before none parent.children index) child) ↔
      child.kind = .list ∧ offered = false := by
  unfold offers? at way
  by_cases blocks : holdsBlocks parent.kind
  · rw [if_pos blocks, Option.some.injEq] at way
    subst way
    simpa [blocks] using kind_of_continuesList
  · rw [if_neg blocks] at way
    have apart : ¬(child.kind = .list ∧ offered = false) := by
      rintro ⟨isList, rfl⟩
      split at way <;> simp [isList] at way
    simp [blocks, apart]

theorem Placed.leads {options : Options} {root : Node} {visit next : Visit}
    (placed : Placed root visit) (leads : Leads options visit next) : Placed root next := by
  cases leads with
  | child unhandled found way =>
      have isAlternate := isAlternate_concat placed.found found
      refine ⟨?_, ?_, ?_⟩
      · rw [Node.at?_concat, placed.found]
        exact found
      · exact isAlternate.trans (alternate_of_offers? way)
      · intro kind
        rw [Visit.within_inside, around_concat placed.found, placed.within, placed.alternate]

theorem placed_of_visits {options : Options} {children : List Node} {visit : Visit}
    (visits : Visits options children visit) : Placed (.root children) visit := by
  induction visits with
  | refl => exact placed_start children
  | tail _ leads placed => exact placed.leads leads

/-- Without lists that continue one another every list is offered, and handlers are told of all that
is around a node. -/
theorem Placed.of_apart {root : Node} {visit : Visit} (placed : Placed root visit)
    (apart : ∀ path, ¬IsAlternate root path) :
    (visit.node.kind = .list → visit.offered) ∧
    ∀ kind, visit.scope.within kind ↔
      ∃ outer part, outer <+: visit.path ∧ outer ≠ visit.path ∧
        root.at? outer = some part ∧ part.kind = kind := by
  constructor
  · intro isList
    apply eq_true_of_ne_false
    intro unoffered
    exact apart visit.path (placed.alternate.2 ⟨isList, unoffered⟩)
  · intro kind
    simpa [Around, apart] using placed.within kind

end EditorMarkdown.Writer
