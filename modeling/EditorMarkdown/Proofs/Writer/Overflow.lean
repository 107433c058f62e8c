import EditorMarkdown.Proofs.Writer.Visits
import EditorMarkdown.Writer.Numbers

/-!
Where a sum of the writer does not fit. The numbers of a list fit just if there are as many of them
from the first one on as the list has items, and one more. A run that checks its sums writes a tree
just if they fit in all lists that are written in the default form.
-/

namespace EditorMarkdown.Writer

open Markdown (Kind Node)

variable {options : Options} {scope : Scope} {visit : Visit}

def isItem (node : Node) : Bool := node.kind = .listItem

/-- Whether a list has more items than there are numbers from its first one on, the one behind the
last item included. -/
def RunsOut (options : Options) : Node → Prop
  | .list ordered start _ items =>
      options.counts ordered ∧ UInt32.size ≤ (firstNumber start).toNat + items.countP isItem
  | _ => False

/-! What the walks look at. -/

theorem inlinesOverflow_iff {nodes : List Node} :
    inlinesOverflow options scope nodes ↔
      ∃ child ∈ nodes, nodeOverflows options scope false child := by
  induction nodes with
  | nil => simp [inlinesOverflow]
  | cons node rest induction => simp [inlinesOverflow, induction]

theorem blocksOverflow_iff {previous : Option Node} {nodes : List Node} :
    blocksOverflow options scope previous nodes ↔
      ∃ index child, nodes[index]? = some child ∧
        nodeOverflows options scope (continuesList (before previous nodes index) child) child := by
  induction nodes generalizing previous with
  | nil => simp [blocksOverflow]
  | cons node rest induction =>
      rw [blocksOverflow, Bool.or_eq_true, induction]
      constructor
      · rintro (first | ⟨index, child, found, overflows⟩)
        · exact ⟨0, node, rfl, first⟩
        · refine ⟨index + 1, child, found, ?_⟩
          cases index <;> exact overflows
      · rintro ⟨index, child, found, overflows⟩
        cases index with
        | zero =>
            cases found
            exact .inl overflows
        | succ index =>
            refine .inr ⟨index, child, found, ?_⟩
            cases index <;> exact overflows

theorem toNat_next_of_ne {ordered : Bool} {number : UInt32} (counts : options.counts ordered)
    (fits : number ≠ greatestNumber) : (options.next ordered number).toNat = number.toNat + 1 := by
  have below : number.toNat < 4294967295 := by
    have bound := number.toNat_lt
    have differs : number.toNat ≠ 4294967295 := fun same => fits (UInt32.toNat_inj.1 same)
    omega
  rw [Options.next, if_pos counts, UInt32.toNat_add, UInt32.toNat_one]
  exact Nat.mod_eq_of_lt (by omega)

theorem le_add_succ_iff {ordered : Bool} (counts : options.counts ordered) (number : UInt32)
    (items : Nat) :
    UInt32.size ≤ number.toNat + (items + 1) ↔
      number = greatestNumber ∨ UInt32.size ≤ (options.next ordered number).toNat + items := by
  by_cases greatest : number = greatestNumber
  · have all : greatestNumber.toNat + 1 = UInt32.size := rfl
    simp only [greatest, true_or, iff_true]
    omega
  · rw [toNat_next_of_ne counts greatest]
    simp only [greatest, false_or]
    omega

theorem itemsOverflow_iff {ordered : Bool} {number : UInt32} {nodes : List Node} :
    itemsOverflow options scope ordered number nodes ↔
      options.counts ordered ∧ UInt32.size ≤ number.toNat + nodes.countP isItem ∨
        ∃ child ∈ nodes, child.kind = .listItem ∧
          blocksOverflow options (scope.enter .listItem) none child.children := by
  induction nodes generalizing number with
  | nil =>
      have fits := number.toNat_lt_size
      simp [itemsOverflow]
      omega
  | cons node rest induction =>
      cases node with
      | listItem itemSpread checked children =>
          have counted : (Node.listItem itemSpread checked children :: rest).countP isItem =
              rest.countP isItem + 1 := by simp [isItem, Node.kind]
          have numbers := and_congr_right fun counts : options.counts ordered =>
            le_add_succ_iff counts number (rest.countP isItem)
          rw [itemsOverflow, counted, numbers]
          simp only [Bool.or_eq_true, Bool.and_eq_true, decide_eq_true_eq, induction,
            List.mem_cons, exists_eq_or_imp]
          grind [Node.kind, Node.children]
      | _ => simp [itemsOverflow, induction, isItem, Node.kind]

theorem rowsOverflow_iff {nodes : List Node} :
    rowsOverflow options scope nodes ↔
      ∃ child ∈ nodes, child.kind = .tableRow ∧
        cellsOverflow options (scope.enter .tableRow) child.children := by
  induction nodes with
  | nil => simp [rowsOverflow]
  | cons node rest induction =>
      cases node <;> simp [rowsOverflow, induction, Node.kind, Node.children]

theorem cellsOverflow_iff {nodes : List Node} :
    cellsOverflow options scope nodes ↔
      ∃ child ∈ nodes, child.kind = .tableCell ∧ nodeOverflows options scope false child := by
  induction nodes with
  | nil => simp [cellsOverflow]
  | cons node rest induction => simp [cellsOverflow, induction]

/-! What visits come to. -/

/-- Whether a sum does not fit from a visit on. -/
def Visit.overflows (options : Options) (visit : Visit) : Bool :=
  match visit.node, visit.offered with
  | .listItem _ _ children, false => blocksOverflow options visit.inside none children
  | node, offered => nodeOverflows options visit.scope (!offered) node

theorem Visit.overflows_offered (path : List Nat) (node : Node) (scope : Scope) :
    Visit.overflows options ⟨path, node, scope, true⟩ = nodeOverflows options scope false node := by
  cases node <;> rfl

theorem Visit.overflows_block (path : List Nat) (previous : Option Node) (node : Node)
    (scope : Scope) :
    Visit.overflows options ⟨path, node, scope, !continuesList previous node⟩ =
      nodeOverflows options scope (continuesList previous node) node := by
  cases continues : continuesList previous node with
  | false => exact Visit.overflows_offered path node scope
  | true =>
      cases node with
      | list => rfl
      | _ => simp [continuesList] at continues

theorem Visit.overflows_item (path : List Nat) (scope : Scope) {item : Node}
    (isItem : item.kind = .listItem) :
    Visit.overflows options ⟨path, item, scope, false⟩ =
      blocksOverflow options (scope.enter .listItem) none item.children := by
  cases item with
  | listItem => rfl
  | _ => cases isItem

theorem Visit.overflows_row (path : List Nat) (scope : Scope) {row : Node}
    (isRow : row.kind = .tableRow) :
    Visit.overflows options ⟨path, row, scope, false⟩ =
      cellsOverflow options (scope.enter .tableRow) row.children := by
  cases row with
  | tableRow => simp [Visit.overflows, nodeOverflows, Node.children]
  | _ => cases isRow

theorem Visit.not_overflows_of_handled {text : List Char}
    (handled : visit.handled? options = some text) : visit.overflows options = false := by
  obtain ⟨path, node, scope, offered⟩ := visit
  cases offered with
  | false => cases handled
  | true =>
      have asked : options.handled? scope node = some text :=
        (Visit.handled?_eq options ⟨path, node, scope, true⟩).trans handled
      rw [Visit.overflows_offered]
      unfold nodeOverflows
      simp [asked]

theorem exists_leads_iff (unhandled : visit.handled? options = none) {holds : Visit → Prop} :
    (∃ next, Leads options visit next ∧ holds next) ↔
      ∃ index child offered, visit.node.children[index]? = some child ∧
        offers? visit.node index child = some offered ∧
          holds ⟨visit.path ++ [index], child, visit.inside, offered⟩ := by
  constructor
  · rintro ⟨next, leads, held⟩
    cases leads with
    | child _ found way => exact ⟨_, _, _, found, way, held⟩
  · rintro ⟨index, child, offered, found, way, held⟩
    exact ⟨_, .child unhandled found way, held⟩

section

variable (path : List Nat) (scope : Scope) (nodes : List Node)

theorem exists_block_iff :
    (∃ index child offered, nodes[index]? = some child ∧
        some (!continuesList (before none nodes index) child) = some offered ∧
          Visit.overflows options ⟨path ++ [index], child, scope, offered⟩) ↔
      blocksOverflow options scope none nodes := by
  rw [blocksOverflow_iff]
  constructor
  · rintro ⟨index, child, _, found, ⟨⟩, overflows⟩
    rw [Visit.overflows_block] at overflows
    exact ⟨index, child, found, overflows⟩
  · rintro ⟨index, child, found, overflows⟩
    rw [← Visit.overflows_block (path ++ [index])] at overflows
    exact ⟨index, child, _, found, rfl, overflows⟩

theorem exists_inline_iff :
    (∃ index child offered, nodes[index]? = some child ∧ some true = some offered ∧
        Visit.overflows options ⟨path ++ [index], child, scope, offered⟩) ↔
      inlinesOverflow options scope nodes := by
  rw [inlinesOverflow_iff]
  constructor
  · rintro ⟨index, child, _, found, ⟨⟩, overflows⟩
    rw [Visit.overflows_offered] at overflows
    exact ⟨child, List.mem_of_getElem? found, overflows⟩
  · rintro ⟨child, member, overflows⟩
    obtain ⟨index, found⟩ := List.mem_iff_getElem?.1 member
    rw [← Visit.overflows_offered (path ++ [index])] at overflows
    exact ⟨index, child, _, found, rfl, overflows⟩

theorem exists_only_iff (kind : Kind) (asked : Bool) :
    (∃ index child offered, nodes[index]? = some child ∧
        (if child.kind = kind then some asked else none) = some offered ∧
          Visit.overflows options ⟨path ++ [index], child, scope, offered⟩) ↔
      ∃ child ∈ nodes, child.kind = kind ∧
        Visit.overflows options ⟨path, child, scope, asked⟩ := by
  constructor
  · rintro ⟨index, child, offered, found, way, overflows⟩
    split at way
    · next isKind =>
        cases way
        exact ⟨child, List.mem_of_getElem? found, isKind, overflows⟩
    · cases way
  · rintro ⟨child, member, isKind, overflows⟩
    obtain ⟨index, found⟩ := List.mem_iff_getElem?.1 member
    exact ⟨index, child, asked, found, if_pos isKind, overflows⟩

end

theorem Visit.overflows_iff :
    visit.overflows options ↔
      visit.handled? options = none ∧ RunsOut options visit.node ∨
        ∃ next, Leads options visit next ∧ next.overflows options := by
  cases handled : visit.handled? options with
  | some text =>
      have silent : ¬∃ next, Leads options visit next ∧ next.overflows options := by
        rintro ⟨_, ⟨unhandled, _, _⟩, _⟩
        simp [handled] at unhandled
      simp [Visit.not_overflows_of_handled handled, silent]
  | none =>
      rw [exists_leads_iff handled]
      obtain ⟨path, node, scope, offered⟩ := visit
      have unhandled : (if !offered then none else options.handled? scope node) = none :=
        (Visit.handled?_eq options ⟨path, node, scope, offered⟩).trans handled
      cases node with
      | root children | blockquote children | callout _ children =>
          rw [or_iff_right fun both => both.2]
          simp only [Visit.overflows, nodeOverflows, unhandled]
          exact (exists_block_iff path _ children).symm
      | listItem _ _ children =>
          rw [or_iff_right fun both => both.2]
          refine Iff.trans ?_ (exists_block_iff path _ children).symm
          cases offered with
          | false => rfl
          | true =>
              simp only [Visit.overflows, nodeOverflows, unhandled]
              rfl
      | heading _ children | paragraph children | tableCell children | delete children
      | link _ _ children | emphasis children | strong children =>
          rw [or_iff_right fun both => both.2]
          simp only [Visit.overflows, nodeOverflows, unhandled]
          exact (exists_inline_iff path _ children).symm
      | list ordered start spread children =>
          simp only [Visit.overflows, nodeOverflows, unhandled, itemsOverflow_iff]
          refine or_congr (and_iff_right trivial).symm ?_
          refine Iff.trans ?_ (exists_only_iff path _ children .listItem false).symm
          refine exists_congr fun child => and_congr_right fun _ => and_congr_right fun isItem => ?_
          rw [Visit.overflows_item _ _ isItem]
          cases offered <;> rfl
      | table _ children =>
          rw [or_iff_right fun both => both.2]
          simp only [Visit.overflows, nodeOverflows, unhandled, rowsOverflow_iff]
          refine Iff.trans ?_ (exists_only_iff path _ children .tableRow false).symm
          refine exists_congr fun child => and_congr_right fun _ => and_congr_right fun isRow => ?_
          rw [Visit.overflows_row _ _ isRow]
          rfl
      | tableRow children =>
          rw [or_iff_right fun both => both.2]
          simp only [Visit.overflows, nodeOverflows, unhandled, cellsOverflow_iff]
          refine Iff.trans ?_ (exists_only_iff path _ children .tableCell true).symm
          refine exists_congr fun child => and_congr_right fun _ => and_congr_right fun _ => ?_
          rw [Visit.overflows_offered]
          rfl
      | thematicBreak | code _ _ _ | html _ | yaml _ | text _ | inlineCode _ | lineBreak
      | image _ _ _ =>
          rw [or_iff_right fun both => both.2]
          simp only [Visit.overflows, nodeOverflows, unhandled]
          simp [Node.children]

/-- A sum does not fit from a visit on just if the numbers of a list run out that is written in the
default form. -/
theorem Visit.overflows_iff_reaches :
    visit.overflows options ↔ ∃ later, Reaches options visit later ∧
      later.handled? options = none ∧ RunsOut options later.node := by
  constructor
  · intro overflows
    generalize equality : visit.node = node at overflows
    induction node using Node.children_induction generalizing visit with
    | step node induction =>
        subst equality
        rcases Visit.overflows_iff.1 overflows with ⟨unhandled, runsOut⟩ | ⟨next, leads, goesOn⟩
        · exact ⟨visit, .refl, unhandled, runsOut⟩
        · have member : next.node ∈ visit.node.children := by
            cases leads with
            | child _ found _ => exact List.mem_of_getElem? found
          obtain ⟨later, reaches, found⟩ := induction next.node member goesOn rfl
          exact ⟨later, .head leads reaches, found⟩
  · rintro ⟨later, reaches, unhandled, runsOut⟩
    induction reaches using Relation.ReflTransGen.head_induction_on with
    | refl => exact Visit.overflows_iff.2 (.inl ⟨unhandled, runsOut⟩)
    | head leads _ goesOn => exact Visit.overflows_iff.2 (.inr ⟨_, leads, goesOn⟩)

/-- Whether the numbers of a list run out that is written in the default form among the children of
a root. -/
def NumbersRunOut (options : Options) (children : List Node) : Prop :=
  ∃ visit, Visits options children visit ∧ visit.handled? options = none ∧
    RunsOut options visit.node

theorem blocksOverflow_root_iff {children : List Node} :
    blocksOverflow options ⟨[.root]⟩ none children ↔ NumbersRunOut options children := by
  have start : Visit.overflows options (.start children) =
      blocksOverflow options ⟨[.root]⟩ none children := by
    simp [Visit.start, Visit.overflows, nodeOverflows, Scope.enter]
  rw [← start, Visit.overflows_iff_reaches]
  rfl

/-! Without handlers it does not matter where blocks stand. -/

theorem Visit.overflows_of_bare (bare : options.handlers = []) {first second : Visit}
    (same : first.node = second.node) (overflows : first.overflows options) :
    second.overflows options := by
  generalize equality : first.node = node at same
  induction node using Node.children_induction generalizing first second with
  | step node induction =>
      subst equality
      have unhandled : second.handled? options = none := by
        rw [← Visit.handled?_eq, handled?_of_bare bare, ite_self]
      rcases Visit.overflows_iff.1 overflows with ⟨-, runsOut⟩ | ⟨next, leads, goesOn⟩
      · rw [same] at runsOut
        exact Visit.overflows_iff.2 (.inl ⟨unhandled, runsOut⟩)
      · cases leads with
        | child _ found way =>
            have member := List.mem_of_getElem? found
            rw [same] at found way
            have leads : Leads options second _ := .child unhandled found way
            exact Visit.overflows_iff.2 (.inr ⟨_, leads, induction _ member goesOn rfl rfl⟩)

theorem blocksOverflow_of_bare (bare : options.handlers = []) (scope : Scope)
    (previous : Option Node) (blocks : List Node) :
    blocksOverflow options scope previous blocks =
      blocks.any (nodeOverflows options ⟨[]⟩ false) := by
  induction blocks generalizing previous with
  | nil => rfl
  | cons node rest induction =>
      have first : nodeOverflows options scope (continuesList previous node) node =
          nodeOverflows options ⟨[]⟩ false node := by
        rw [← Visit.overflows_block [], ← Visit.overflows_offered []]
        exact Bool.eq_iff_iff.2
          ⟨Visit.overflows_of_bare bare rfl, Visit.overflows_of_bare bare rfl⟩
      rw [blocksOverflow, first, induction, List.any_cons]

theorem blocksOverflow_iff_of_bare (bare : options.handlers = []) {blocks : List Node} :
    blocksOverflow options scope none blocks ↔ NumbersRunOut options blocks := by
  rw [← blocksOverflow_root_iff, blocksOverflow_of_bare bare, blocksOverflow_of_bare bare]

end EditorMarkdown.Writer
