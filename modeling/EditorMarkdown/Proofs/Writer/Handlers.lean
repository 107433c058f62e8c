import EditorMarkdown.Proofs.Writer.Headings
import EditorMarkdown.Proofs.Writer.Visits
import EditorMarkdown.Proofs.Writer.Words

/-!
What handlers are asked and what becomes of their answers. The text of a tree depends on the
handlers only through what they make of the visits, and what a handler makes of a visit stands in
the text. So a handler is asked at every visit that is offered, and nowhere else.
-/

namespace EditorMarkdown.Writer

open Markdown (Kind Node)
open Text (Holds Keeps)

/-! Writing asks handlers of visits only. -/

def Options.withHandlers (handlers : List (Kind × Handler)) (options : Options) : Options :=
  { options with handlers }

/-- Whether other handlers make the same of all that writing comes to from a visit. -/
def Agrees (options : Options) (handlers : List (Kind × Handler)) (visit : Visit) : Prop :=
  ∀ later, Reaches options visit later →
    later.handled? (options.withHandlers handlers) = later.handled? options

variable {options : Options} {handlers : List (Kind × Handler)}

theorem Agrees.child {visit : Visit} (agrees : Agrees options handlers visit)
    (unhandled : visit.handled? options = none) {index : Nat} {child : Node} {offered : Bool}
    (found : visit.node.children[index]? = some child)
    (way : offers? visit.node index child = some offered) :
    Agrees options handlers ⟨visit.path ++ [index], child, visit.inside, offered⟩ := by
  intro later reaches
  exact agrees later (.head (.child unhandled found way) reaches)

def EachAgrees (options : Options) (handlers : List (Kind × Handler)) (scope : Scope)
    (offers : Nat → Node → Option Bool) (nodes : List Node) : Prop :=
  ∀ (index : Nat) (child : Node) (offered : Bool), nodes[index]? = some child →
    offers index child = some offered →
      ∃ path, Agrees options handlers ⟨path, child, scope, offered⟩

namespace EachAgrees

variable {scope : Scope} {node : Node} {nodes : List Node}

theorem head {offers : Nat → Node → Option Bool} {offered : Bool}
    (each : EachAgrees options handlers scope offers (node :: nodes))
    (way : offers 0 node = some offered) :
    ∃ path, Agrees options handlers ⟨path, node, scope, offered⟩ :=
  each 0 node offered rfl way

theorem tail {offers : Nat → Node → Option Bool}
    (each : EachAgrees options handlers scope offers (node :: nodes)) :
    EachAgrees options handlers scope (fun index => offers (index + 1)) nodes := by
  intro index child offered found way
  exact each (index + 1) child offered found way

end EachAgrees

def offersBlocks (previous : Option Node) (nodes : List Node) (index : Nat) (child : Node) :
    Option Bool :=
  some !continuesList (before previous nodes index) child

def offersOnly (kind : Kind) (offered : Bool) (child : Node) : Option Bool :=
  if child.kind = kind then some offered else none

theorem offersBlocks_tail (previous : Option Node) (node : Node) (rest : List Node) :
    (fun index => offersBlocks previous (node :: rest) (index + 1)) =
      offersBlocks (some node) rest := by
  funext index child
  cases index <;> rfl

theorem Agrees.each {visit : Visit} (agrees : Agrees options handlers visit)
    (unhandled : visit.handled? options = none) :
    EachAgrees options handlers visit.inside (offers? visit.node) visit.node.children := by
  intro index child offered found way
  exact ⟨_, agrees.child unhandled found way⟩

mutual
theorem writeNode_withHandlers : ∀ (node : Node) {path : List Nat} {scope : Scope}
    {offered : Bool}, (offered = false → node.kind = .list) →
      Agrees options handlers ⟨path, node, scope, offered⟩ → ∀ buffer : Buffer,
        writeNode (options.withHandlers handlers) scope (!offered) node buffer =
          writeNode options scope (!offered) node buffer := by
  intro node path scope offered passed agrees buffer
  have same := agrees _ .refl
  have ours := Visit.handled?_eq (options.withHandlers handlers) ⟨path, node, scope, offered⟩
  have theirs := Visit.handled?_eq options ⟨path, node, scope, offered⟩
  cases handled : Visit.handled? options ⟨path, node, scope, offered⟩ with
  | some text =>
      rw [same, handled] at ours
      rw [handled] at theirs
      rw [writeNode_of_handled ours, writeNode_of_handled theirs]
  | none =>
      rw [same, handled] at ours
      rw [handled] at theirs
      have each := agrees.each handled
      cases node with
      | root children | blockquote children | callout _ children =>
          simp only [Visit.inside, Node.kind] at each
          simp only [writeNode, ours, theirs, writeBlocks_withHandlers children false none each]
      | listItem _ _ children =>
          have asked := eq_true_of_ne_false fun unoffered => by cases passed unoffered
          subst asked
          simp only [Visit.inside, if_true] at each
          simp only [writeNode, ours, theirs, writeBlocks_withHandlers children _ none each]
          rfl
      | heading _ children | paragraph children | tableCell children | delete children
      | link _ _ children =>
          simp only [Visit.inside, Node.kind] at each
          simp only [writeNode, ours, theirs, writeInlines_withHandlers children each]
      | emphasis children | strong children =>
          simp only [Visit.inside, Node.kind] at each
          simp only [writeNode, ours, theirs, writeInlines_withHandlers children each]
          rfl
      | list ordered start spread children =>
          simp only [Visit.inside] at each
          simp only [writeNode, ours, theirs]
          cases offered <;>
            exact writeItems_withHandlers children ordered _ spread [] _ each buffer
      | table _ children =>
          simp only [Visit.inside, Node.kind] at each
          simp only [writeNode, ours, theirs, rowTexts_withHandlers children each]
      | tableRow children =>
          simp only [Visit.inside, Node.kind] at each
          simp only [writeNode, ours, theirs, cellTexts_withHandlers children each]
      | thematicBreak =>
          simp only [writeNode, ours, theirs]
          rfl
      | code _ _ _ | html _ | yaml _ | text _ | inlineCode _ | lineBreak | image _ _ _ =>
          simp only [writeNode, ours, theirs]

theorem writeInlines_withHandlers : ∀ (nodes : List Node) {scope : Scope},
    EachAgrees options handlers scope (fun _ _ => some true) nodes → ∀ buffer : Buffer,
      writeInlines (options.withHandlers handlers) scope nodes buffer =
        writeInlines options scope nodes buffer
  | [], _, _, _ => rfl
  | node :: rest, _, each, buffer => by
      obtain ⟨_, agrees⟩ := each.head rfl
      have first := writeNode_withHandlers node (fun offered => by cases offered) agrees buffer
      rw [writeInlines, writeInlines, writeInlines_withHandlers rest each.tail]
      exact congrArg _ first

theorem writeBlocks_withHandlers : ∀ (nodes : List Node) {scope : Scope} (tight : Bool)
    (previous : Option Node),
    EachAgrees options handlers scope (offersBlocks previous nodes) nodes → ∀ buffer : Buffer,
      writeBlocks (options.withHandlers handlers) scope tight previous nodes buffer =
        writeBlocks options scope tight previous nodes buffer
  | [], _, _, _, _, _ => rfl
  | node :: rest, _, tight, previous, each, buffer => by
      obtain ⟨_, agrees⟩ := each.head rfl
      have passed : (!continuesList previous node) = false → node.kind = .list := by
        intro continues
        exact kind_of_continuesList (by simpa using continues)
      have first := writeNode_withHandlers node passed agrees
      have others := each.tail
      rw [offersBlocks_tail] at others
      rw [writeBlocks, writeBlocks, writeBlocks_withHandlers rest tight (some node) others]
      rw [Bool.not_not] at first
      rw [first]

theorem writeItems_withHandlers : ∀ (nodes : List Node) {scope : Scope}
    (ordered alternate spread : Bool) (lead : List Char) (number : UInt32),
    EachAgrees options handlers scope (fun _ => offersOnly .listItem false) nodes →
    ∀ buffer : Buffer,
      writeItems (options.withHandlers handlers) scope ordered alternate spread lead number nodes
          buffer =
        writeItems options scope ordered alternate spread lead number nodes buffer
  | [], _, _, _, _, _, _, _, _ => rfl
  | node :: rest, scope, ordered, alternate, spread, lead, number, each, buffer => by
      cases node with
      | listItem itemSpread checked children =>
          obtain ⟨_, agrees⟩ := each.head rfl
          have blocks : EachAgrees options handlers (scope.enter .listItem)
              (offersBlocks none children) children := agrees.each rfl
          simp only [writeItems, writeBlocks_withHandlers children _ none blocks]
          exact writeItems_withHandlers rest ordered alternate spread _ _ each.tail _
      | _ =>
          simp only [writeItems]
          exact writeItems_withHandlers rest ordered alternate spread _ _ each.tail _

theorem rowTexts_withHandlers : ∀ (nodes : List Node) {scope : Scope},
    EachAgrees options handlers scope (fun _ => offersOnly .tableRow false) nodes →
      rowTexts (options.withHandlers handlers) scope nodes = rowTexts options scope nodes
  | [], _, _ => rfl
  | node :: rest, scope, each => by
      cases node with
      | tableRow cells =>
          obtain ⟨_, agrees⟩ := each.head rfl
          have inner := agrees.each rfl
          simp only [rowTexts]
          rw [rowTexts_withHandlers rest each.tail]
          exact congrArg (· :: _) (cellTexts_withHandlers cells inner)
      | _ =>
          simp only [rowTexts]
          exact rowTexts_withHandlers rest each.tail

theorem cellTexts_withHandlers : ∀ (nodes : List Node) {scope : Scope},
    EachAgrees options handlers scope (fun _ => offersOnly .tableCell true) nodes →
      cellTexts (options.withHandlers handlers) scope nodes = cellTexts options scope nodes
  | [], _, _ => rfl
  | node :: rest, scope, each => by
      rw [cellTexts, cellTexts, cellTexts_withHandlers rest each.tail]
      split
      · next isCell =>
          obtain ⟨_, agrees⟩ := each.head (if_pos isCell)
          have first := writeNode_withHandlers node (fun offered => by cases offered) agrees .empty
          rw [Bool.not_true] at first
          rw [first]
      · rfl
end

/-- The text of a tree depends on the handlers only through what they make of the visits. -/
theorem toText_withHandlers {children : List Node}
    (same : ∀ visit, Visits options children visit →
      visit.handled? (options.withHandlers handlers) = visit.handled? options) :
    Markdown.toText (options.withHandlers handlers) children =
      Markdown.toText options children := by
  have agrees : Agrees options handlers (.start children) := same
  have each : EachAgrees options handlers ⟨[.root]⟩ (offersBlocks none children) children :=
    agrees.each rfl
  simp only [Markdown.toText, rootText, writeBlocks_withHandlers children false none each]
  rfl

/-! What is answered is written. -/

section Answers

variable {scope : Scope} {words : List (List Char)} {nodes : List Node} {node child : Node}

theorem adds_writeInlines (member : child ∈ nodes)
    (adds : ∀ buffer, Adds words buffer (writeNode options scope false child buffer))
    (buffer : Buffer) : Adds words buffer (writeInlines options scope nodes buffer) := by
  induction nodes generalizing buffer with
  | nil => cases member
  | cons node rest induction =>
      rw [writeInlines]
      rcases List.mem_cons.1 member with rfl | behind
      · exact (adds buffer).grows (grows_writeInlines options scope rest _)
      · exact (adds_of_grows (grows_writeNode options scope false node buffer)).trans
          (induction behind _)

theorem adds_writeBlocks {index : Nat} {previous : Option Node} (tight : Bool)
    (found : nodes[index]? = some child)
    (adds : ∀ buffer, Adds words buffer
      (writeNode options scope (continuesList (before previous nodes index) child) child buffer))
    (buffer : Buffer) :
    Adds words buffer (writeBlocks options scope tight previous nodes buffer) := by
  induction nodes generalizing index previous buffer with
  | nil => simp at found
  | cons first rest induction =>
      rw [writeBlocks]
      cases index with
      | zero =>
          cases found
          exact (adds _).of_push.grows
            (grows_writeBlocks options scope tight (some child) rest _)
      | succ index =>
          have shifted : before previous (first :: rest) (index + 1) =
              before (some first) rest index := by cases index <;> rfl
          rw [shifted] at adds
          exact (adds_of_grows (grows_writeNode options scope _ first _)).of_push.trans
            (induction found adds _)

theorem adds_writeItems (member : child ∈ nodes) (isItem : child.kind = .listItem)
    (holds : ∀ tight, Holds words
      (writeBlocks options (scope.enter .listItem) tight none child.children .empty).text)
    (ordered alternate spread : Bool) (lead : List Char) (number : UInt32) (buffer : Buffer) :
    Adds words buffer
      (writeItems options scope ordered alternate spread lead number nodes buffer) := by
  induction nodes generalizing lead number buffer with
  | nil => cases member
  | cons node rest induction =>
      rcases List.mem_cons.1 member with rfl | behind
      · cases child with
        | listItem itemSpread checked children =>
            simp only [writeItems]
            have item := holds_itemText (holds (!spread && !itemSpread))
              (options.marker ordered alternate number) checked
            exact (adds_push item _).of_push.grows
              (grows_writeItems options scope ordered alternate spread _ _ rest _)
        | _ => cases isItem
      · cases node with
        | listItem itemSpread checked children =>
            simp only [writeItems]
            exact ((induction behind _ _ _).of_push).of_push
        | _ =>
            simp only [writeItems]
            exact induction behind _ _ _

theorem exists_cellText (member : child ∈ nodes) (isCell : child.kind = .tableCell)
    (adds : ∀ buffer, Adds words buffer (writeNode options scope false child buffer)) :
    ∃ cell ∈ cellTexts options scope nodes, Holds words cell := by
  induction nodes with
  | nil => cases member
  | cons node rest induction =>
      rw [cellTexts]
      rcases List.mem_cons.1 member with rfl | behind
      · rw [if_pos isCell]
        exact ⟨_, List.mem_cons_self, (adds .empty).holds⟩
      · obtain ⟨cell, inRest, holds⟩ := induction behind
        split
        · exact ⟨cell, List.mem_cons_of_mem _ inRest, holds⟩
        · exact ⟨cell, inRest, holds⟩

theorem exists_rowText (member : child ∈ nodes) (isRow : child.kind = .tableRow)
    (shown : ∃ cell ∈ cellTexts options (scope.enter .tableRow) child.children,
      Holds words cell) :
    ∃ row ∈ rowTexts options scope nodes, ∃ cell ∈ row, Holds words cell := by
  induction nodes with
  | nil => cases member
  | cons node rest induction =>
      rcases List.mem_cons.1 member with rfl | behind
      · cases child with
        | tableRow cells =>
            rw [rowTexts]
            exact ⟨_, List.mem_cons_self, shown⟩
        | _ => cases isRow
      · obtain ⟨row, inRest, shown⟩ := induction behind
        cases node with
        | tableRow cells =>
            rw [rowTexts]
            exact ⟨row, List.mem_cons_of_mem _ inRest, shown⟩
        | _ => exact ⟨row, by simpa [rowTexts] using inRest, shown⟩

theorem holds_escapeClosingHashes {content : List Char} (holds : Holds words content) :
    Holds words (escapeClosingHashes content) := by
  obtain ⟨body, hashes, rfl, hash, -, escaped | ⟨kept, -⟩⟩ := escapeClosingHashes_cases content
  · rw [escaped]
    cases hashes with
    | nil => simpa using holds.before ['\\']
    | cons c hashes =>
        obtain rfl := hash c List.mem_cons_self
        obtain ⟨before, after, rfl, inBody, behind⟩ := holds.split (by decide)
        exact inBody.append ((behind.behind ['#']).behind ['\\'])
  · rwa [kept]

theorem adds_heading {depth : UInt8}
    (adds : ∀ buffer, Adds words buffer (writeInlines options scope nodes buffer))
    (buffer : Buffer) :
    let start := (buffer.push (List.replicate (headingDepth depth) '#' ++ [' '])).startLine
    Adds words buffer
      ((writeInlines options scope nodes start).closeHeading start.text.length) := by
  intro start held before
  rw [text_heading]
  have opened : Holds held start.text := by
    simpa [start, Buffer.startLine] using before.before _
  exact opened.append (holds_escapeClosingHashes (adds (.fresh true)).holds)

/-- Whether what a visit is written as has words behind those before it. -/
def Visit.Shows (options : Options) (words : List (List Char)) (visit : Visit) : Prop :=
  match visit.node, visit.offered with
  | .listItem _ _ children, false =>
      ∀ tight, Holds words (writeBlocks options visit.inside tight none children .empty).text
  | .tableRow cells, false => ∃ cell ∈ cellTexts options visit.inside cells, Holds words cell
  | node, offered =>
      ∀ buffer, Adds words buffer (writeNode options visit.scope (!offered) node buffer)

theorem Visit.Shows.adds {path : List Nat} {node : Node} {offered : Bool}
    (shows : Visit.Shows options words ⟨path, node, scope, offered⟩)
    (passed : offered = false → node.kind = .list) (buffer : Buffer) :
    Adds words buffer (writeNode options scope (!offered) node buffer) := by
  cases offered with
  | true => cases node <;> exact shows buffer
  | false =>
      cases node with
      | list => exact shows buffer
      | _ => cases passed rfl

theorem Visit.Shows.adds_block {path : List Nat} {previous : Option Node} {offered : Bool}
    (shows : Visit.Shows options words ⟨path, node, scope, offered⟩)
    (way : offered = !continuesList previous node) (buffer : Buffer) :
    Adds words buffer (writeNode options scope (continuesList previous node) node buffer) := by
  have passed : offered = false → node.kind = .list := by
    rintro rfl
    exact kind_of_continuesList (by simpa using way)
  have same : continuesList previous node = !offered := by simp [way]
  rw [same]
  exact shows.adds passed buffer

theorem Visit.Shows.holds_item {path : List Nat}
    (shows : Visit.Shows options words ⟨path, node, scope, false⟩) (isItem : node.kind = .listItem)
    (tight : Bool) : Holds words
      (writeBlocks options (scope.enter .listItem) tight none node.children .empty).text := by
  cases node with
  | listItem => exact shows tight
  | _ => cases isItem

theorem Visit.Shows.exists_cell {path : List Nat}
    (shows : Visit.Shows options words ⟨path, node, scope, false⟩)
    (isRow : node.kind = .tableRow) :
    ∃ cell ∈ cellTexts options (scope.enter .tableRow) node.children, Holds words cell := by
  cases node with
  | tableRow => exact shows
  | _ => cases isRow

theorem Visit.Shows.of_leads {visit next : Visit} (leads : Leads options visit next)
    (shows : next.Shows options words) : visit.Shows options words := by
  cases leads with
  | @child index child asked unhandled found way =>
      obtain ⟨path, node, scope, offered⟩ := visit
      have handled : (if !offered then none else options.handled? scope node) = none :=
        (Visit.handled?_eq options ⟨path, node, scope, offered⟩).trans unhandled
      have member := List.mem_of_getElem? found
      cases node with
      | root children =>
          have adds := shows.adds_block (Option.some.inj way).symm
          intro buffer
          simp only [writeNode, handled]
          exact adds_writeBlocks false found adds buffer
      | blockquote children =>
          have adds := shows.adds_block (Option.some.inj way).symm
          intro buffer
          simp only [writeNode, handled]
          exact adds_push (holds_quoteText (adds_writeBlocks false found adds _).holds) buffer
      | callout _ children =>
          have adds := shows.adds_block (Option.some.inj way).symm
          intro buffer
          simp only [writeNode, handled]
          exact adds_push (holds_calloutText (adds_writeBlocks false found adds _).holds _ _) buffer
      | listItem _ _ children =>
          have adds := shows.adds_block (Option.some.inj way).symm
          cases offered with
          | false => exact fun tight => (adds_writeBlocks tight found adds _).holds
          | true =>
              intro buffer
              simp only [writeNode, handled]
              exact adds_push (holds_itemText (adds_writeBlocks _ found adds _).holds _ _) buffer
      | paragraph children | tableCell children =>
          cases Option.some.inj way
          intro buffer
          simp only [writeNode, handled]
          exact adds_writeInlines member (shows.adds nofun) buffer
      | heading _ children =>
          cases Option.some.inj way
          intro buffer
          simp only [writeNode, handled]
          exact adds_heading (adds_writeInlines member (shows.adds nofun)) buffer
      | emphasis children | strong children | delete children =>
          cases Option.some.inj way
          intro buffer
          simp only [writeNode, handled]
          exact (adds_writeInlines member (shows.adds nofun) _).of_push.push _
      | link _ _ children =>
          cases Option.some.inj way
          intro buffer
          simp only [writeNode, handled]
          have inside := adds_writeInlines member (shows.adds nofun)
          exact (adds_of_grows (grows_escapeBang buffer)).trans ((inside _).of_push.push _)
      | list ordered start spread children =>
          obtain ⟨isItem, same⟩ := Option.ite_none_right_eq_some.1 way
          cases same
          intro buffer
          simp only [writeNode, handled]
          cases offered <;>
            exact adds_writeItems member isItem (shows.holds_item isItem) ordered _ spread []
              _ buffer
      | table _ children =>
          obtain ⟨isRow, same⟩ := Option.ite_none_right_eq_some.1 way
          cases same
          obtain ⟨row, inRows, cell, inRow, holds⟩ :=
            exists_rowText member isRow (shows.exists_cell isRow)
          intro buffer
          simp only [writeNode, handled]
          exact adds_push (holds_tableText inRows inRow holds) buffer
      | tableRow children =>
          obtain ⟨isCell, same⟩ := Option.ite_none_right_eq_some.1 way
          cases same
          obtain ⟨cell, written, holds⟩ := exists_cellText member isCell (shows.adds nofun)
          cases offered with
          | false => exact ⟨cell, written, holds⟩
          | true =>
              intro buffer
              simp only [writeNode, handled]
              exact adds_push (holds_tableLine written holds (Nat.le_refl _)) buffer
      | thematicBreak | code _ _ _ | html _ | yaml _ | text _ | inlineCode _ | lineBreak
      | image _ _ _ => cases member

theorem Visit.Shows.of_reaches {visit later : Visit} (reaches : Reaches options visit later)
    (shows : later.Shows options words) : visit.Shows options words := by
  induction reaches using Relation.ReflTransGen.head_induction_on with
  | refl => exact shows
  | head leads _ goesOn => exact goesOn.of_leads leads

theorem Visit.shows_of_handled {visit : Visit} {text : List Char} (holds : Holds words text)
    (answered : visit.handled? options = some text) : visit.Shows options words := by
  obtain ⟨path, node, scope, offered⟩ := visit
  cases offered with
  | false => cases answered
  | true =>
      have handled : options.handled? scope node = some text :=
        (Visit.handled?_eq options ⟨path, node, scope, true⟩).trans answered
      have adds : ∀ buffer, Adds words buffer (writeNode options scope false node buffer) := by
        intro buffer
        rw [writeNode_of_handled ((if_neg Bool.false_ne_true).trans handled)]
        exact adds_push holds buffer
      cases node <;> exact adds

/-- The words of what a visit is answered with stand in the text of the tree. -/
theorem keeps_toText {children : List Node} {visit : Visit} (visits : Visits options children visit)
    {text : List Char} (answered : visit.handled? options = some text) :
    Keeps text (Markdown.toText options children).toList := by
  intro words holds
  have whole := (Visit.shows_of_handled holds answered).of_reaches visits
  have written : ∀ buffer, writeNode options ⟨[]⟩ true (.root children) buffer =
      writeBlocks options ⟨[.root]⟩ false none children buffer := by
    intro buffer
    simp only [writeNode]
    rfl
  have adds : ∀ buffer, Adds words buffer
      (writeBlocks options ⟨[.root]⟩ false none children buffer) := by
    intro buffer
    rw [← written]
    exact whole buffer
  rw [Markdown.toText, String.toList_ofList]
  exact holds_finishLine (adds _).holds

end Answers

/-- A handler is asked about a node of the tree, and what it is told to be around the node is around
it. Lists right behind a list of the same flavour are the exception: nobody is asked about them, and
what is in them is not told of them. What a handler answers is written for its node, and the text of
the tree depends on handlers through their answers alone. -/
theorem handlers_see_position (options : Options) (children : List Node) :
    let root := Node.root children
    (∀ visit, Visits options children visit →
      root.at? visit.path = some visit.node ∧
      (visit.node.kind = .list → (visit.offered ↔ ¬IsAlternate root visit.path)) ∧
      (∀ kind, visit.scope.within kind ↔
        ∃ outer part, outer <+: visit.path ∧ outer ≠ visit.path ∧
          root.at? outer = some part ∧ part.kind = kind ∧ ¬IsAlternate root outer) ∧
      (∀ handler text, visit.offered → options.handler? visit.node.kind = some handler →
        handler visit.node visit.scope = some text →
          (∀ buffer, writeNode options visit.scope false visit.node buffer =
            buffer.push text.toList) ∧
          Keeps text.toList (Markdown.toText options children).toList) ∧
      (visit.handled? options = none → holdsBlocks visit.node.kind → ∀ index list,
        visit.node.children[index]? = some list → list.kind = .list →
          ¬IsAlternate root (visit.path ++ [index]) →
            Visits options children ⟨visit.path ++ [index], list, visit.inside, true⟩)) ∧
    ((∀ path, ¬IsAlternate root path) → ∀ visit, Visits options children visit →
      (visit.node.kind = .list → visit.offered) ∧
      ∀ kind, visit.scope.within kind ↔
        ∃ outer part, outer <+: visit.path ∧ outer ≠ visit.path ∧
          root.at? outer = some part ∧ part.kind = kind) ∧
    ∀ handlers : List (Kind × Handler),
      (∀ visit, Visits options children visit → visit.offered →
        ((options.withHandlers handlers).handler? visit.node.kind).bind
            (fun handler => handler visit.node visit.scope) =
          (options.handler? visit.node.kind).bind fun handler =>
            handler visit.node visit.scope) →
      Markdown.toText (options.withHandlers handlers) children =
        Markdown.toText options children := by
  intro root
  refine ⟨?_, ?_, ?_⟩
  · intro visit visits
    have placed := placed_of_visits visits
    refine ⟨placed.found, ?_, placed.within, ?_, ?_⟩
    · intro isList
      have alternate : IsAlternate root visit.path ↔ _ := placed.alternate
      simp [alternate, isList]
    · intro handler text asked registered answer
      have answered : visit.handled? options = some text.toList := by
        simp [Visit.handled?, asked, registered, answer]
      have handled := (Visit.handled?_eq options visit).trans answered
      rw [asked] at handled
      exact ⟨writeNode_of_handled handled, keeps_toText visits answered⟩
    · intro unhandled blocks index list found isList separate
      have way : offers? visit.node index list = some true := by
        rw [isAlternate_concat placed.found found, not_and] at separate
        simpa [offers?, blocks] using separate blocks
      exact visits.tail (.child unhandled found way)
  · intro apart visit visits
    exact (placed_of_visits visits).of_apart apart
  · intro handlers same
    apply toText_withHandlers
    intro visit visits
    unfold Visit.handled?
    split
    · next asked => rw [same visit visits asked]
    · rfl

def neighbours : List Node :=
  [.list false none false [.listItem false none [.paragraph [.text "a"]]],
    .list false none false [.listItem false none [.paragraph [.text "b"]]]]

/-- A text is marked by whether it is in a list, and so is a list. -/
def markListed : Handler := fun _ scope => some (if scope.within .list then "listed" else "loose")

def markedTexts : Options := Options.standard.withHandler .text markListed

theorem not_isAlternate_of_parts {root : Node}
    (single : ∀ part ∈ root.parts, part.children.length ≤ 1) (path : List Nat) :
    ¬IsAlternate root path := by
  rintro ⟨outer, index, parent, _, _, -, found, -, -, isSecond, -⟩
  have short := single parent (Node.mem_parts_of_at? found)
  have long := (List.getElem?_eq_some_iff.1 isSecond).1
  omega

/-- The text in the first of two lists is told of the list, and the text in the second of the item
around it. -/
theorem handlers_see_position_lists :
    let visit : Visit := ⟨[0, 0, 0, 0], .text "a", ⟨[.paragraph, .listItem, .list, .root]⟩, true⟩
    Visits markedTexts neighbours visit ∧ visit.offered ∧
      markedTexts.handler? visit.node.kind = some markListed ∧
      markListed visit.node visit.scope = some "listed" ∧
      Keeps "listed".toList (Markdown.toText markedTexts neighbours).toList ∧
      (∃ outer part, outer <+: [1, 0, 0, 0] ∧ outer ≠ [1, 0, 0, 0] ∧
        (Node.root neighbours).at? outer = some part ∧ part.kind = .listItem ∧
        ¬IsAlternate (.root neighbours) outer) ∧
      (∀ path, ¬IsAlternate (.root (neighbours.take 1)) path) ∧
      Visits markedTexts (neighbours.take 1) visit ∧
      (visit.scope.within .list ↔
        ∃ outer part, outer <+: visit.path ∧ outer ≠ visit.path ∧
          (Node.root (neighbours.take 1)).at? outer = some part ∧ part.kind = .list) := by
  intro visit
  have visits : Visits markedTexts neighbours visit :=
    .head (@Leads.child _ _ 0 _ _ rfl rfl rfl) (.head (@Leads.child _ _ 0 _ _ rfl rfl rfl)
      (.head (@Leads.child _ _ 0 _ _ rfl rfl rfl) (.single (@Leads.child _ _ 0 _ _ rfl rfl rfl))))
  have second : Visits markedTexts neighbours
      ⟨[1, 0, 0, 0], .text "b", ⟨[.paragraph, .listItem, .root]⟩, true⟩ :=
    .head (@Leads.child _ _ 1 _ _ rfl rfl rfl) (.head (@Leads.child _ _ 0 _ _ rfl rfl rfl)
      (.head (@Leads.child _ _ 0 _ _ rfl rfl rfl) (.single (@Leads.child _ _ 0 _ _ rfl rfl rfl))))
  have alone : Visits markedTexts (neighbours.take 1) visit :=
    .head (@Leads.child _ _ 0 _ _ rfl rfl rfl) (.head (@Leads.child _ _ 0 _ _ rfl rfl rfl)
      (.head (@Leads.child _ _ 0 _ _ rfl rfl rfl) (.single (@Leads.child _ _ 0 _ _ rfl rfl rfl))))
  have apart : ∀ path, ¬IsAlternate (.root (neighbours.take 1)) path :=
    not_isAlternate_of_parts (by decide)
  obtain ⟨seen, -⟩ := handlers_see_position markedTexts neighbours
  obtain ⟨-, -, -, answered, -⟩ := seen visit visits
  obtain ⟨-, -, within, -, -⟩ := seen _ second
  obtain ⟨-, told, -⟩ := handlers_see_position markedTexts (neighbours.take 1)
  exact ⟨visits, rfl, rfl, rfl, (answered markListed "listed" rfl rfl rfl).2,
    (within .listItem).1 rfl, apart, alone, (told apart visit alone).2 .list⟩

set_option maxRecDepth 100000 in
theorem handlers_miss_neighbours :
    Markdown.toText markedTexts neighbours = "- listed\n\n* loose\n" ∧
      Markdown.toText (Options.standard.withHandler .list markListed) neighbours =
        "loose\n\n* b\n" ∧
      ¬∀ visit, Visits .standard neighbours visit →
        (visit.node.kind = .list → visit.offered) ∧
        ∀ kind, visit.scope.within kind ↔
          ∃ outer part, outer <+: visit.path ∧ outer ≠ visit.path ∧
            (Node.root neighbours).at? outer = some part ∧ part.kind = kind := by
  refine ⟨by decide +kernel, by decide +kernel, ?_⟩
  intro all
  have second : Visits .standard neighbours
      ⟨[1], .list false none false [.listItem false none [.paragraph [.text "b"]]], ⟨[.root]⟩,
        false⟩ := .single (.child rfl rfl rfl)
  have offered := (all _ second).1 rfl
  cases offered

end EditorMarkdown.Writer
