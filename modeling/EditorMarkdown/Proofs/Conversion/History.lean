import EditorMarkdown.Conversion.Marks
import Mathlib.Data.List.Induction

/-!
A registry as the history of what was contributed to it. Every part of an entry is the last one that
was given for it, every kind of markdown node belongs to the type that claimed it last and has not
contributed since, and every declaration is the first one of its name.
-/

namespace EditorMarkdown.Conversion

open Document (NodeSpec MarkSpec Schema)

/-- What is contributed to a registry: hooks alone, or hooks with a declaration. -/
inductive Contribution where
  | register (entry : Entry)
  | install (extension : Extension)

namespace Contribution

def entry : Contribution → Entry
  | .register entry => entry
  | .install extension => extension.entry

def name (contribution : Contribution) : String := contribution.entry.name

def declares : Contribution → Option Structure
  | .register _ => none
  | .install extension => extension.declares

def nodeSpec? (contribution : Contribution) : Option NodeSpec :=
  match contribution.declares with
  | some (.node spec) => some spec
  | _ => none

def markSpec? (contribution : Contribution) : Option MarkSpec :=
  match contribution.declares with
  | some (.mark spec) => some spec
  | _ => none

end Contribution

namespace Registry

variable {registry : Registry} {history : List Contribution} {last : Contribution}
  {kind name : String}

def contribute (registry : Registry) : Contribution → Registry
  | .register entry => registry.register entry
  | .install extension => registry.install extension

def ofHistory (history : List Contribution) : Registry := history.foldl contribute empty

theorem contribute_eq (registry : Registry) (contribution : Contribution) :
    registry.contribute contribution =
      (registry.declare contribution.declares).register contribution.entry := by
  cases contribution <;> rfl

theorem ofHistory_concat (history : List Contribution) (last : Contribution) :
    ofHistory (history ++ [last]) = (ofHistory history).contribute last := by
  simp [ofHistory]

@[simp] theorem schema_register (entry : Entry) (registry : Registry) :
    (registry.register entry).schema = registry.schema := rfl

@[simp] theorem entries_declare (declares : Option Structure) (registry : Registry) :
    (registry.declare declares).entries = registry.entries := by
  rcases declares with _ | _ | _ <;> rfl

@[simp] theorem owners_declare (declares : Option Structure) (registry : Registry) :
    (registry.declare declares).owners = registry.owners := by
  rcases declares with _ | _ | _ <;> rfl

/-! Entries. -/

def merged (entry : Entry) (registry : Registry) : Entry :=
  match registry.named? entry.name with
  | some earlier => entry.merge earlier
  | none => entry

theorem name_of_named? {entry : Entry} (found : registry.named? name = some entry) :
    entry.name = name := by
  simpa using List.find?_some found

theorem named?_register (entry : Entry) (name : String) (registry : Registry) :
    named? name (registry.register entry) =
      if entry.name = name then some (registry.merged entry) else registry.named? name := by
  have named : (registry.merged entry).name = entry.name := by
    unfold merged
    cases found : registry.named? entry.name with
    | none => rfl
    | some earlier =>
        have same : earlier.name = entry.name := name_of_named? found
        exact same
  have replaced := find?_putEntry (registry.merged entry) name registry.entries
  rw [named] at replaced
  exact replaced

theorem named?_contribute (contribution : Contribution) (name : String) (registry : Registry) :
    named? name (registry.contribute contribution) =
      if contribution.name = name then some (registry.merged contribution.entry)
      else registry.named? name := by
  have declared : ∀ other, named? other (registry.declare contribution.declares) =
      registry.named? other := by
    simp [named?]
  rw [contribute_eq, named?_register, merged, declared, declared]
  rfl

/-- The last thing that the contributions of a name give for a part of their entry. -/
def lastGiven? {Part : Type} (part : Entry → Option Part) (name : String)
    (history : List Contribution) : Option Part :=
  (history.reverse.filter fun contribution => contribution.name = name).findSome?
    fun contribution => part contribution.entry

theorem lastGiven?_concat {Part : Type} (part : Entry → Option Part) (name : String)
    (history : List Contribution) (last : Contribution) :
    lastGiven? part name (history ++ [last]) =
      if last.name = name then (part last.entry).or (lastGiven? part name history)
      else lastGiven? part name history := by
  by_cases named : last.name = name
  · cases given : part last.entry <;> simp [lastGiven?, named, given]
  · simp [lastGiven?, named]

theorem lastGiven?_of_absent {Part : Type} (part : Entry → Option Part)
    (absent : ∀ contribution ∈ history, contribution.name ≠ name) :
    lastGiven? part name history = none := by
  have empty : (history.reverse.filter fun contribution => contribution.name = name) = [] := by
    simpa [List.filter_eq_nil_iff] using absent
  rw [lastGiven?, empty, List.findSome?_nil]

def lastEntry (name : String) (history : List Contribution) : Entry where
  name := name
  kindName := lastGiven? Entry.kindName name history
  toMarkdown := lastGiven? Entry.toMarkdown name history
  fromMarkdown := lastGiven? Entry.fromMarkdown name history

theorem lastEntry_of_absent (absent : ∀ contribution ∈ history, contribution.name ≠ name) :
    lastEntry name history = .named name := by
  simp only [lastEntry, lastGiven?_of_absent _ absent, Entry.named]

theorem lastEntry_concat (history : List Contribution) (last : Contribution) :
    lastEntry last.name (history ++ [last]) =
      last.entry.merge (lastEntry last.name history) := by
  simp [lastEntry, lastGiven?_concat, Entry.merge]

theorem lastEntry_concat_of_ne (other : last.name ≠ name) :
    lastEntry name (history ++ [last]) = lastEntry name history := by
  simp [lastEntry, lastGiven?_concat, other]

theorem named?_ofHistory (history : List Contribution) (name : String) :
    named? name (ofHistory history) =
      if ∃ contribution ∈ history, contribution.name = name then some (lastEntry name history)
      else none := by
  induction history using List.reverseRecOn generalizing name with
  | nil => simp [ofHistory, named?, empty]
  | append_singleton history last induction =>
      rw [ofHistory_concat, named?_contribute]
      by_cases named : last.name = name
      · subst named
        have contributed : ∃ contribution ∈ history ++ [last], contribution.name = last.name :=
          ⟨last, by simp, rfl⟩
        rw [if_pos rfl, if_pos contributed, lastEntry_concat, merged]
        have earlier := induction last.entry.name
        split at earlier
        · simp only [earlier]
          rfl
        · next absent =>
            simp only [not_exists, not_and] at absent
            simp only [earlier]
            rw [Contribution.name, lastEntry_of_absent absent]
            cases last.entry
            simp [Entry.merge, Entry.named]
      · rw [if_neg named, induction, lastEntry_concat_of_ne named]
        simp [named]

/-! Owners of kinds. -/

structure Owned (registry : Registry) : Prop where
  distinct : (registry.owners.map (·.1)).Nodup
  hooked : ∀ owner ∈ registry.owners, ∃ entry, registry.named? owner.2 = some entry ∧
    entry.fromMarkdown.isSome ∧ entry.markdownKind = owner.1

/-- Whether a contribution claims a kind: the entry that it is merged into has a hook for it. -/
def Claims (kind : String) (registry : Registry) (contribution : Contribution) : Prop :=
  ∃ entry, named? contribution.name (registry.contribute contribution) = some entry ∧
    entry.fromMarkdown.isSome ∧ entry.markdownKind = kind

theorem claims_iff {contribution : Contribution} : Claims kind registry contribution ↔
    (registry.merged contribution.entry).fromMarkdown.isSome ∧
      (registry.merged contribution.entry).markdownKind = kind := by
  simp [Claims, named?_contribute]

theorem owner?_eq_some_iff {owners : List (String × String)}
    (distinct : (owners.map (·.1)).Nodup) :
    owner? kind owners = some name ↔ (kind, name) ∈ owners := by
  induction owners with
  | nil => simp [owner?]
  | cons first rest induction =>
      obtain ⟨fresh, apart⟩ := List.nodup_cons.1 distinct
      obtain ⟨claimed, owner⟩ := first
      by_cases same : claimed = kind
      · subst same
        have absent : (claimed, name) ∉ rest := fun member =>
          fresh (List.mem_map.2 ⟨_, member, rfl⟩)
        simp [owner?, absent, eq_comm]
      · have different : kind ≠ claimed := fun equality => same equality.symm
        simpa [owner?, same, different] using induction apart

theorem owners_contribute (registry : Registry) (contribution : Contribution) :
    (registry.contribute contribution).owners =
      let entry := registry.merged contribution.entry
      let others := registry.owners.filter fun owner => owner.2 ≠ contribution.name
      if entry.fromMarkdown.isSome then
        (entry.markdownKind, contribution.name) ::
          others.filter fun owner => owner.1 ≠ entry.markdownKind
      else others := by
  have declared : (registry.declare contribution.declares).merged contribution.entry =
      registry.merged contribution.entry := by
    simp [merged, named?]
  rw [contribute_eq, ← declared, ← owners_declare contribution.declares registry]
  rfl

theorem mem_owners_contribute {contribution : Contribution} :
    (kind, name) ∈ (registry.contribute contribution).owners ↔
      (Claims kind registry contribution ∧ contribution.name = name) ∨
        (¬Claims kind registry contribution ∧ contribution.name ≠ name ∧
          (kind, name) ∈ registry.owners) := by
  have swapped : ¬name = contribution.name ↔ ¬contribution.name = name := ne_comm
  rw [claims_iff, owners_contribute]
  by_cases hooked : (registry.merged contribution.entry).fromMarkdown.isSome
  · by_cases claimed : (registry.merged contribution.entry).markdownKind = kind
    · simp [hooked, claimed, eq_comm]
    · have different : kind ≠ (registry.merged contribution.entry).markdownKind :=
        fun equality => claimed equality.symm
      simp [hooked, claimed, different, swapped, and_comm]
  · simp [hooked, swapped, and_comm]

theorem Owned.contribute (owned : registry.Owned) (contribution : Contribution) :
    (registry.contribute contribution).Owned where
  distinct := by
    have apart : ∀ keep : String × String → Bool,
        ((registry.owners.filter keep).map (·.1)).Nodup := fun keep =>
      owned.distinct.sublist (List.filter_sublist.map _)
    rw [owners_contribute]
    dsimp only
    split
    · rw [List.map_cons, List.nodup_cons, List.filter_filter]
      refine ⟨fun member => ?_, apart _⟩
      obtain ⟨owner, inside, equality⟩ := List.mem_map.1 member
      simp [equality] at inside
    · exact apart _
  hooked := by
    rintro ⟨kind, name⟩ member
    rcases mem_owners_contribute.1 member with ⟨⟨entry, found, hooked⟩, rfl⟩ | ⟨_, other, earlier⟩
    · exact ⟨entry, found, hooked⟩
    · obtain ⟨entry, found, hooked⟩ := owned.hooked _ earlier
      refine ⟨entry, ?_, hooked⟩
      rw [named?_contribute, if_neg other]
      exact found

theorem owned_ofHistory (history : List Contribution) : (ofHistory history).Owned := by
  induction history using List.reverseRecOn with
  | nil => exact ⟨List.nodup_nil, by simp [ofHistory, empty]⟩
  | append_singleton history last induction =>
      rw [ofHistory_concat]
      exact induction.contribute last

/-- Of the contributions that claim a kind the latest one has a name, and no later contribution has
that name. -/
def LatestClaim (kind name : String) (history : List Contribution) : Prop :=
  ∃ before contribution after, history = before ++ contribution :: after ∧
    contribution.name = name ∧ Claims kind (ofHistory before) contribution ∧
    (∀ between later rest, after = between ++ later :: rest →
      ¬Claims kind (ofHistory (before ++ contribution :: between)) later) ∧
    ∀ later ∈ after, later.name ≠ name

theorem latestClaim_concat :
    LatestClaim kind name (history ++ [last]) ↔
      (Claims kind (ofHistory history) last ∧ last.name = name) ∨
        (¬Claims kind (ofHistory history) last ∧ last.name ≠ name ∧
          LatestClaim kind name history) := by
  constructor
  · rintro ⟨before, contribution, after, split, named, claims, unclaimed, unnamed⟩
    rcases List.eq_nil_or_concat after with rfl | ⟨earlier, final, rfl⟩
    · obtain ⟨rfl, single⟩ := List.append_inj' split rfl
      cases single
      exact .inl ⟨claims, named⟩
    · rw [List.concat_eq_append, ← List.cons_append, ← List.append_assoc] at split
      obtain ⟨rfl, single⟩ := List.append_inj' split rfl
      cases single
      refine .inr ⟨unclaimed earlier last [] (by simp), unnamed last (by simp), ?_⟩
      refine ⟨before, contribution, earlier, rfl, named, claims, ?_, ?_⟩
      · rintro between later rest rfl
        exact unclaimed between later (rest ++ [last]) (by simp)
      · exact fun later member => unnamed later (by simp [member])
  · rintro (⟨claims, named⟩ | ⟨unclaimed, unnamed, before, contribution, after, rfl, named, claims,
      between, later⟩)
    · exact ⟨history, last, [], rfl, named, claims, by simp, by simp⟩
    · refine ⟨before, contribution, after ++ [last], by simp, named, claims, ?_, ?_⟩
      · intro inner next rest split
        rcases List.eq_nil_or_concat rest with rfl | ⟨others, final, rfl⟩
        · obtain ⟨rfl, single⟩ := List.append_inj' split rfl
          cases single
          exact unclaimed
        · rw [List.concat_eq_append, ← List.cons_append, ← List.append_assoc] at split
          exact between inner next others (List.append_inj' split rfl).1
      · intro next member
        rcases List.mem_append.1 member with inside | final
        · exact later next inside
        · rw [List.mem_singleton.1 final]
          exact unnamed

theorem mem_owners_ofHistory (history : List Contribution) :
    (kind, name) ∈ (ofHistory history).owners ↔ LatestClaim kind name history := by
  induction history using List.reverseRecOn with
  | nil => simp [ofHistory, empty, LatestClaim]
  | append_singleton history last induction =>
      rw [ofHistory_concat, mem_owners_contribute, latestClaim_concat, induction]

theorem ofKind?_ofHistory (history : List Contribution) (kind : String) (entry : Entry) :
    (ofHistory history).ofKind? kind = some entry ↔
      named? entry.name (ofHistory history) = some entry ∧
        LatestClaim kind entry.name history := by
  simp only [ofKind?, Option.bind_eq_some_iff,
    owner?_eq_some_iff (owned_ofHistory history).distinct, mem_owners_ofHistory]
  constructor
  · rintro ⟨name, claimed, found⟩
    rw [name_of_named? found]
    exact ⟨found, claimed⟩
  · rintro ⟨found, claimed⟩
    exact ⟨entry.name, claimed, found⟩

theorem hooked_of_ofKind? {entry : Entry} (owned : registry.Owned)
    (found : registry.ofKind? kind = some entry) :
    entry.fromMarkdown.isSome ∧ entry.markdownKind = kind := by
  obtain ⟨name, owner, named⟩ := Option.bind_eq_some_iff.1 found
  rw [owner?_eq_some_iff owned.distinct] at owner
  obtain ⟨other, same, hooked⟩ := owned.hooked _ owner
  rw [named] at same
  cases same
  exact hooked

/-! Declarations. -/

theorem find?_addNew {Spec : Type} (key : Spec → String) (spec : Spec) (specs : List Spec)
    (name : String) :
    ((if (specs.find? fun other => key other = key spec).isSome then specs
      else specs ++ [spec]).find? fun other => key other = name) =
      (specs ++ [spec]).find? fun other => key other = name := by
  split
  · next known =>
      rw [List.find?_append]
      by_cases named : key spec = name
      · subst named
        obtain ⟨earlier, found⟩ := Option.isSome_iff_exists.1 known
        simp [found]
      · simp [named]
  · rfl

theorem nodes_declareNode (spec : NodeSpec) (schema : Schema) :
    (schema.declareNode spec).nodes =
      if (schema.nodeSpec? spec.name).isSome then schema.nodes else schema.nodes ++ [spec] := by
  unfold Schema.declareNode
  split <;> rfl

theorem marks_declareMark (spec : MarkSpec) (schema : Schema) :
    (schema.declareMark spec).marks =
      if (schema.markSpec? spec.name).isSome then schema.marks else schema.marks ++ [spec] := by
  unfold Schema.declareMark
  split <;> rfl

theorem nodeSpec?_contribute (contribution : Contribution) (name : String) (registry : Registry) :
    (registry.contribute contribution).schema.nodeSpec? name =
      (registry.schema.nodes ++ contribution.nodeSpec?.toList).find? fun spec =>
        spec.name = name := by
  rw [contribute_eq, schema_register, Contribution.nodeSpec?]
  rcases contribution.declares with _ | spec | spec
  · simp [declare, Schema.nodeSpec?]
  · simp only [declare, Schema.nodeSpec?, nodes_declareNode]
    exact find?_addNew NodeSpec.name spec registry.schema.nodes name
  · simp only [declare, Schema.declareMark, Schema.nodeSpec?]
    split <;> simp

theorem markSpec?_contribute (contribution : Contribution) (name : String) (registry : Registry) :
    (registry.contribute contribution).schema.markSpec? name =
      (registry.schema.marks ++ contribution.markSpec?.toList).find? fun spec =>
        spec.name = name := by
  rw [contribute_eq, schema_register, Contribution.markSpec?]
  rcases contribution.declares with _ | spec | spec
  · simp [declare, Schema.markSpec?]
  · simp only [declare, Schema.declareNode, Schema.markSpec?]
    split <;> simp
  · simp only [declare, Schema.markSpec?, marks_declareMark]
    exact find?_addNew MarkSpec.name spec registry.schema.marks name

theorem filterMap_concat {Spec : Type} (declared : Contribution → Option Spec)
    (history : List Contribution) (last : Contribution) :
    (history ++ [last]).filterMap declared =
      history.filterMap declared ++ (declared last).toList := by
  cases found : declared last <;> simp [found]

theorem nodeSpec?_ofHistory (history : List Contribution) (name : String) :
    (ofHistory history).schema.nodeSpec? name =
      (history.filterMap Contribution.nodeSpec?).find? fun spec => spec.name = name := by
  induction history using List.reverseRecOn with
  | nil => rfl
  | append_singleton history last induction =>
      rw [ofHistory_concat, nodeSpec?_contribute, List.find?_append, ← Schema.nodeSpec?, induction,
        filterMap_concat, List.find?_append]

theorem markSpec?_ofHistory (history : List Contribution) (name : String) :
    (ofHistory history).schema.markSpec? name =
      (history.filterMap Contribution.markSpec?).find? fun spec => spec.name = name := by
  induction history using List.reverseRecOn with
  | nil => rfl
  | append_singleton history last induction =>
      rw [ofHistory_concat, markSpec?_contribute, List.find?_append, ← Schema.markSpec?, induction,
        filterMap_concat, List.find?_append]

/-- Marks are only ever declared after those that are there. -/
theorem marks_contribute (contribution : Contribution) (registry : Registry) :
    registry.schema.marks <+: (registry.contribute contribution).schema.marks := by
  rw [contribute_eq, schema_register]
  rcases contribution.declares with _ | spec | spec
  · exact List.prefix_rfl
  · simp only [declare, Schema.declareNode]
    split <;> exact List.prefix_rfl
  · simp only [declare, Schema.declareMark]
    split
    · exact List.prefix_rfl
    · exact List.prefix_append _ _

theorem marks_ofHistory_append (history later : List Contribution) :
    (ofHistory history).schema.marks <+: (ofHistory (history ++ later)).schema.marks := by
  induction later using List.reverseRecOn with
  | nil => simp
  | append_singleton later last induction =>
      rw [← List.append_assoc, ofHistory_concat]
      exact induction.trans (marks_contribute last _)

theorem rank?_of_prefix {before after : Schema} (kept : before.marks <+: after.marks) {rank : Nat}
    (ranked : before.rank? name = some rank) : after.rank? name = some rank := by
  obtain ⟨added, equality⟩ := kept
  rw [Schema.rank?] at ranked ⊢
  rw [← equality, List.findIdx?_append, ranked]
  rfl

/-- A registry is determined by the history of what was contributed to it. The parts of an entry are
the last ones given under its name; a kind belongs to the type that claimed it last and has not
contributed since, so that its entry still has a hook for it; and declarations and ranks are those
of the first declaration of a name. -/
theorem ofHistory_determined (history : List Contribution) :
    (∀ name, named? name (ofHistory history) =
      if ∃ contribution ∈ history, contribution.name = name then
        some
          { name
            kindName := lastGiven? Entry.kindName name history
            toMarkdown := lastGiven? Entry.toMarkdown name history
            fromMarkdown := lastGiven? Entry.fromMarkdown name history }
      else none) ∧
    ((∀ kind entry, (ofHistory history).ofKind? kind = some entry ↔
        named? entry.name (ofHistory history) = some entry ∧
          LatestClaim kind entry.name history) ∧
      (∀ kind entry, (ofHistory history).ofKind? kind = some entry →
        entry.fromMarkdown.isSome ∧ entry.markdownKind = kind) ∧
      ∀ first second entry other, (ofHistory history).ofKind? first = some entry →
        (ofHistory history).ofKind? second = some other → entry.name = other.name →
          first = second) ∧
    ((∀ name, (ofHistory history).schema.nodeSpec? name =
        (history.filterMap Contribution.nodeSpec?).find? fun spec => spec.name = name) ∧
      (∀ name, (ofHistory history).schema.markSpec? name =
        (history.filterMap Contribution.markSpec?).find? fun spec => spec.name = name) ∧
      ∀ later name rank, (ofHistory history).schema.rank? name = some rank →
        (ofHistory (history ++ later)).schema.rank? name = some rank) := by
  have owned := owned_ofHistory history
  refine ⟨named?_ofHistory history, ⟨ofKind?_ofHistory history, ?_, ?_⟩,
    nodeSpec?_ofHistory history, markSpec?_ofHistory history, ?_⟩
  · intro kind entry found
    exact hooked_of_ofKind? owned found
  · intro first second entry other foundFirst foundSecond named
    have firstEntry := ((ofKind?_ofHistory history first entry).1 foundFirst).1
    have secondEntry := ((ofKind?_ofHistory history second other).1 foundSecond).1
    rw [named, secondEntry] at firstEntry
    cases firstEntry
    rw [← (hooked_of_ofKind? owned foundFirst).2, ← (hooked_of_ofKind? owned foundSecond).2]
  · intro later name rank ranked
    exact rank?_of_prefix (marks_ofHistory_append history later) ranked

theorem ofHistory_determined_loud :
    let loud : Entry := { bold.entry with name := "loud", toMarkdown := none }
    let moved : Entry := { Entry.named "loud" with kindName := some "emphasis" }
    let history : List Contribution := [.install bold, .register loud, .register moved]
    (ofHistory history).ofKind? "emphasis" = some { loud with kindName := some "emphasis" } ∧
      loud.fromMarkdown.isSome ∧ (ofHistory history).ofKind? "strong" = none ∧
      (∀ kind, (ofHistory history).ofKind? kind = some { loud with kindName := some "emphasis" } →
        kind = "emphasis") ∧
      (ofHistory history).schema.rank? "bold" = some 0 ∧
      (ofHistory (history ++ [.install italic, .install bold])).schema.rank? "bold" = some 0 := by
  intro loud moved history
  have owner : (ofHistory history).ofKind? "emphasis" =
      some { loud with kindName := some "emphasis" } := rfl
  have ranked : (ofHistory history).schema.rank? "bold" = some 0 := rfl
  obtain ⟨-, ⟨-, hooked, single⟩, -, -, ranks⟩ := ofHistory_determined history
  exact ⟨owner, (hooked _ _ owner).1, rfl, fun kind found => single _ _ _ _ found owner rfl,
    ranked, ranks [.install italic, .install bold] "bold" 0 ranked⟩

end Registry

end EditorMarkdown.Conversion
