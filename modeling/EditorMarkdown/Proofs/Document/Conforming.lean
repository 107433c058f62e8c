import EditorMarkdown.Document.Inline
import EditorMarkdown.Proofs.Document.Parts
import EditorMarkdown.Proofs.Document.Ranks

/-!
Trees that conform to a schema: every node and every mark has a declared type with exactly the
declared attributes, and the nodes are nested as their types ask for.
-/

namespace EditorMarkdown.Document

open Json (Value)

namespace Attributes

def names (attributes : Attributes) : List String := attributes.fields.map Prod.fst

theorem mem_names_insert {name other : String} {value : Value} {attributes : Attributes} :
    other ∈ (attributes.insert name value).names ↔ other = name ∨ other ∈ attributes.names := by
  simp only [names, fields_insert]
  induction attributes.fields with
  | nil => simp [Json.insertField]
  | cons field rest induction =>
      obtain ⟨next, old⟩ := field
      simp only [Json.insertField]
      split
      · simp
      · split
        · next equality => simp [equality]
        · simp [induction, or_left_comm]

theorem mem_names_fillAttributes {given : Attributes} {specs : List AttributeSpec}
    {name : String} :
    name ∈ (fillAttributes given specs).names ↔ name ∈ specs.map AttributeSpec.name := by
  suffices general : ∀ (used : List String) (filled : Attributes),
      name ∈ (fillAttributes.go given used specs filled).names ↔
        name ∈ specs.map AttributeSpec.name ∨ name ∈ filled.names by
    simpa [fillAttributes, names] using general [] .empty
  induction specs with
  | nil => simp [fillAttributes.go]
  | cons spec rest induction =>
      intro used filled
      simp only [fillAttributes.go]
      rw [induction, mem_names_insert, List.map_cons, List.mem_cons, or_left_comm, or_assoc]

end Attributes

def Mark.Fits (schema : Schema) (mark : Mark) : Prop :=
  ∃ spec, schema.markSpec? mark.type = some spec ∧
    ∀ name, name ∈ mark.attrs.names ↔ name ∈ spec.attrs.map AttributeSpec.name

theorem Mark.Fits.declared {schema : Schema} {mark : Mark} (fits : mark.Fits schema) :
    (schema.markSpec? mark.type).isSome := by
  obtain ⟨spec, found, _⟩ := fits
  simp [found]

namespace Node

structure Fits (schema : Schema) (node : Node) : Prop where
  declared : ∃ spec, schema.nodeSpec? node.type = some spec ∧
    ∀ name, name ∈ node.attrs.names ↔ name ∈ spec.attrs.map AttributeSpec.name
  marked : node.marks ≠ [] → schema.isInline node
  marks : ∀ mark ∈ node.marks, mark.Fits schema
  ranked : schema.Ranked node.marks
  text : node.text.isSome ↔ node.type = "text"
  filled : node.text ≠ some ""

/-- What the type of a node says of its content. -/
structure Nests (schema : Schema) (node : Node) : Prop where
  blocks : node.type ∈ ["blockquote", "callout", "listItem", "taskItem"] →
    ∀ child ∈ node.content, schema.isInline child = false
  item : node.type ∈ ["listItem", "taskItem"] → node.content ≠ []
  cell : node.type ∈ ["tableHeader", "tableCell"] →
    node.content ≠ [] ∧ ∀ child ∈ node.content, child.type = "paragraph"
  level : node.type = "heading" →
    ∃ level : Int, node.attrs.get? "level" = some (.int level) ∧ 1 ≤ level ∧ level ≤ 6
  unbroken : node.type = "heading" → ∀ part ∈ node.parts, part.type ≠ "hardBreak"
  bulletList : node.type = "bulletList" → ∀ child ∈ node.content, child.type ≠ "taskItem"
  taskList : node.type = "taskList" → ∀ child ∈ node.content, child.type ≠ "listItem"

def Conforms (schema : Schema) (node : Node) : Prop :=
  ∀ part ∈ node.parts, part.Fits schema ∧ part.Nests schema

def Unbroken (node : Node) : Prop := ∀ part ∈ node.parts, part.type ≠ "hardBreak"

theorem conforms_iff {schema : Schema} {node : Node} :
    node.Conforms schema ↔
      (node.Fits schema ∧ node.Nests schema) ∧ ∀ child ∈ node.content, child.Conforms schema :=
  forall_mem_parts

theorem unbroken_iff {node : Node} :
    node.Unbroken ↔ node.type ≠ "hardBreak" ∧ ∀ child ∈ node.content, child.Unbroken :=
  forall_mem_parts

theorem Nests.congr {schema : Schema} {node other : Node} (nests : node.Nests schema)
    (type : other.type = node.type) (attrs : other.attrs = node.attrs)
    (content : other.content = node.content) : other.Nests schema := by
  have unbroken : node.type = "heading" → other.Unbroken := by
    intro heading
    have below := (unbroken_iff.1 (nests.unbroken heading)).2
    rw [unbroken_iff, content, type, heading]
    exact ⟨by decide, below⟩
  constructor
  · rw [type, content]
    exact nests.blocks
  · rw [type, content]
    exact nests.item
  · rw [type, content]
    exact nests.cell
  · rw [type, attrs]
    exact nests.level
  · rw [type]
    exact unbroken
  · rw [type, content]
    exact nests.bulletList
  · rw [type, content]
    exact nests.taskList

theorem nests_of_free {schema : Schema} {node : Node}
    (free : node.type ∉ ["blockquote", "callout", "listItem", "taskItem", "tableHeader",
      "tableCell", "heading", "bulletList", "taskList"]) : node.Nests schema := by
  simp only [List.mem_cons, List.not_mem_nil, or_false, not_or] at free
  constructor <;> simp [free]

end Node

namespace Schema

variable {schema : Schema}

theorem node_of_declared {name : String} {spec : NodeSpec}
    (declared : schema.nodeSpec? name = some spec) (attrs : Attributes) (content : List Node) :
    schema.node name attrs content =
      .ok { Node.plain name content with attrs := fillAttributes attrs spec.attrs } := by
  simp [node, declared]

theorem exists_spec_of_node {name : String} {attrs : Attributes} {content : List Node} {made : Node}
    (equality : schema.node name attrs content = .ok made) :
    ∃ spec, schema.nodeSpec? name = some spec ∧
      made = { Node.plain name content with attrs := fillAttributes attrs spec.attrs } := by
  simp only [node] at equality
  split at equality
  · cases equality
  · next spec declared =>
      cases equality
      exact ⟨spec, declared, rfl⟩

theorem type_node {name : String} {attrs : Attributes} {content : List Node} {made : Node}
    (equality : schema.node name attrs content = .ok made) : made.type = name := by
  obtain ⟨_, _, rfl⟩ := exists_spec_of_node equality
  rfl

theorem content_node {name : String} {attrs : Attributes} {content : List Node} {made : Node}
    (equality : schema.node name attrs content = .ok made) : made.content = content := by
  obtain ⟨_, _, rfl⟩ := exists_spec_of_node equality
  rfl

theorem text_node {name : String} {attrs : Attributes} {content : List Node} {made : Node}
    (equality : schema.node name attrs content = .ok made) : made.text = none := by
  obtain ⟨_, _, rfl⟩ := exists_spec_of_node equality
  rfl

theorem fits_node {name : String} {attrs : Attributes} {content : List Node} {made : Node}
    (equality : schema.node name attrs content = .ok made) (other : name ≠ "text") :
    made.Fits schema := by
  obtain ⟨spec, declared, rfl⟩ := exists_spec_of_node equality
  exact
    { declared := ⟨spec, declared, fun _ => Attributes.mem_names_fillAttributes⟩
      marked := fun marked => absurd rfl marked
      marks := by simp [Node.plain]
      ranked := List.Pairwise.nil
      text := by simp [Node.plain, other]
      filled := by simp [Node.plain] }

theorem fits_mark {name : String} {attrs : Attributes} {made : Mark}
    (equality : schema.mark name attrs = .ok made) : made.Fits schema := by
  simp only [mark] at equality
  split at equality
  · cases equality
  · next spec declared =>
      cases equality
      exact ⟨spec, declared, fun _ => Attributes.mem_names_fillAttributes⟩

theorem isInline_of_type {node : Node} {spec : NodeSpec} (text : node.text = none)
    (declared : schema.nodeSpec? node.type = some spec) :
    schema.isInline node = decide (spec.group = .inline) := by
  simp [isInline, Node.isText, text, declared]

end Schema

/-! Marking nodes that stand in a line. -/

theorem Node.Conforms.addMark {schema : Schema} {node : Node} (conforms : node.Conforms schema)
    {mark : Mark} (fits : mark.Fits schema) (inline : schema.isInline node) :
    ({ node with marks := schema.addMark mark node.marks } : Node).Conforms schema := by
  obtain ⟨⟨old, nests⟩, below⟩ := Node.conforms_iff.1 conforms
  refine Node.conforms_iff.2 ⟨⟨?_, nests.congr rfl rfl rfl⟩, below⟩
  exact
    { declared := old.declared
      marked := fun _ => inline
      marks := by
        intro other member
        rcases Schema.mem_addMark member with rfl | older
        · exact fits
        · exact old.marks other older
      ranked := Schema.ranked_addMark fits.declared old.ranked
      text := old.text
      filled := old.filled }

theorem conforms_markInline {schema : Schema} {mark : Mark} (fits : mark.Fits schema)
    {nodes : List Node} (conforms : ∀ node ∈ nodes, node.Conforms schema) :
    ∀ node ∈ schema.markInline mark nodes, node.Conforms schema := by
  intro node member
  obtain ⟨child, inNodes, rfl⟩ := List.mem_map.1 member
  split
  · next inline => exact (conforms child inNodes).addMark fits inline
  · exact conforms child inNodes

theorem unbroken_markInline {schema : Schema} {mark : Mark} {nodes : List Node}
    (unbroken : ∀ node ∈ nodes, node.Unbroken) :
    ∀ node ∈ schema.markInline mark nodes, node.Unbroken := by
  intro node member
  obtain ⟨child, inNodes, rfl⟩ := List.mem_map.1 member
  have old := unbroken child inNodes
  split
  · obtain ⟨type, below⟩ := Node.unbroken_iff.1 old
    exact Node.unbroken_iff.2 ⟨type, below⟩
  · exact old

/-! Merging texts. -/

theorem forall_mem_mergeTexts {property : Node → Prop}
    (continued : ∀ (node : Node) (text more : String), node.text = some text → property node →
      property { node with text := some (text ++ more) })
    {nodes : List Node} (holds : ∀ node ∈ nodes, property node) :
    ∀ node ∈ mergeTexts nodes, property node := by
  suffices general : ∀ done : List Node, (∀ node ∈ done, property node) →
      ∀ node ∈ nodes.foldl (fun done node => pushText node done) done, property node by
    intro node member
    exact general [] (by simp) node (by simpa [mergeTexts] using member)
  induction nodes with
  | nil => exact fun _ holdsDone => holdsDone
  | cons next rest induction =>
      intro done holdsDone
      refine induction (fun node member => holds node (List.mem_cons_of_mem _ member)) _ ?_
      have holdsNext := holds next (by simp)
      have both : ∀ node ∈ next :: done, property node := by
        simpa using ⟨holdsNext, holdsDone⟩
      cases done with
      | nil => exact both
      | cons previous others =>
          simp only [pushText]
          split
          · next text more found _ =>
              split
              · intro node member
                rcases List.mem_cons.1 member with rfl | older
                · exact continued previous text more found (holdsDone previous (by simp))
                · exact holdsDone node (List.mem_cons_of_mem _ older)
              · exact both
          · exact both

theorem Node.Conforms.append_text {schema : Schema} {node : Node} (conforms : node.Conforms schema)
    {text : String} (found : node.text = some text) (more : String) :
    ({ node with text := some (text ++ more) } : Node).Conforms schema := by
  obtain ⟨⟨old, nests⟩, below⟩ := Node.conforms_iff.1 conforms
  refine Node.conforms_iff.2 ⟨⟨?_, nests.congr rfl rfl rfl⟩, below⟩
  exact
    { declared := old.declared
      marked := fun _ => by simp [Schema.isInline, Node.isText]
      marks := old.marks
      ranked := old.ranked
      text := by simpa [found] using old.text
      filled := by
        intro empty
        have parts := String.append_eq_empty_iff.1 (Option.some.inj empty)
        exact old.filled (by rw [found, parts.1]) }

/-! Wrapping lines in paragraphs. -/

theorem Schema.wrapRun_ok {schema : Schema} {spec : NodeSpec}
    (declared : schema.nodeSpec? "paragraph" = some spec) :
    ∀ (nodes run : List Node), ∃ wrapped, schema.wrapRun run nodes = .ok wrapped ∧
      ∀ node ∈ wrapped, (node ∈ nodes ∧ schema.isInline node = false) ∨
        ∃ line, schema.node "paragraph" .empty line = .ok node ∧
          ∀ child ∈ line, child ∈ run ∨ child ∈ nodes
  | [], run => by
      have made := node_of_declared declared .empty run.reverse
      simp only [wrapRun]
      split
      · exact ⟨[], rfl, by simp⟩
      · refine ⟨_, by rw [made]; rfl, fun node member => .inr ⟨run.reverse, ?_, by simp⟩⟩
        rw [List.mem_singleton.1 member]
        exact made
  | node :: rest, run => by
      have made := node_of_declared declared .empty run.reverse
      simp only [wrapRun]
      split
      · obtain ⟨wrapped, equality, origin⟩ := wrapRun_ok declared rest (node :: run)
        refine ⟨wrapped, equality, fun part member => ?_⟩
        rcases origin part member with ⟨inRest, outside⟩ | ⟨line, paragraph, inside⟩
        · exact .inl ⟨List.mem_cons_of_mem _ inRest, outside⟩
        · refine .inr ⟨line, paragraph, fun child inLine => ?_⟩
          rcases inside child inLine with inRun | inRest
          · rcases List.mem_cons.1 inRun with rfl | older
            · exact .inr (by simp)
            · exact .inl older
          · exact .inr (List.mem_cons_of_mem _ inRest)
      · next outside =>
          obtain ⟨wrapped, equality, origin⟩ := wrapRun_ok declared rest []
          have later : ∀ part ∈ node :: wrapped,
              (part ∈ node :: rest ∧ schema.isInline part = false) ∨
                ∃ line, schema.node "paragraph" .empty line = .ok part ∧
                  ∀ child ∈ line, child ∈ run ∨ child ∈ node :: rest := by
            intro part member
            rcases List.mem_cons.1 member with rfl | inWrapped
            · exact .inl ⟨by simp, by simpa using outside⟩
            · rcases origin part inWrapped with ⟨inRest, outside⟩ | ⟨line, paragraph, inside⟩
              · exact .inl ⟨List.mem_cons_of_mem _ inRest, outside⟩
              · refine .inr ⟨line, paragraph, fun child inLine => .inr ?_⟩
                exact List.mem_cons_of_mem _ (by simpa using inside child inLine)
          split
          · exact ⟨node :: wrapped, by rw [equality]; rfl, later⟩
          · refine ⟨_, by rw [made, equality]; rfl, fun part member => ?_⟩
            rcases List.mem_cons.1 member with rfl | inRest
            · refine .inr ⟨run.reverse, made, fun child inRun => .inl ?_⟩
              exact List.mem_reverse.1 inRun
            · exact later part inRest

end EditorMarkdown.Document
