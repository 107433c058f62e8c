import EditorMarkdown.Proofs.Conversion.History

/-!
What a contribution to one direction does to the other. A contribution with neither a kind nor a
hook for markdown leaves every hook for markdown as it is, but its type claims its kind with it once
more. So the kinds keep the types that read them if and only if the type still has its kind; a kind
that it has lost comes back to it.
-/

namespace EditorMarkdown.Conversion

structure Entry.WritesOnly (entry : Entry) : Prop where
  kindless : entry.kindName = none
  hookless : entry.fromMarkdown = none

namespace Registry

variable {registry : Registry} {contribution : Contribution} {kind name : String}

/-- The name of the type that a kind of markdown node belongs to, and its hook for the kind. -/
def reader? (kind : String) (registry : Registry) : Option (String × Option FromMarkdown) :=
  (registry.ofKind? kind).map fun entry => (entry.name, entry.fromMarkdown)

/-- Whether a type has a hook for a kind, be it that the kind belongs to it or to another type. -/
def Reads (kind name : String) (registry : Registry) : Prop :=
  ∃ entry, registry.named? name = some entry ∧ entry.fromMarkdown.isSome ∧
    entry.markdownKind = kind

def HoldsKind (name : String) (registry : Registry) : Prop :=
  ∀ kind, registry.Reads kind name → (registry.reader? kind).map Prod.fst = some name

theorem reader?_eq (owned : registry.Owned) (kind : String) :
    registry.reader? kind = (owner? kind registry.owners).map fun name =>
      (name, (registry.named? name).bind Entry.fromMarkdown) := by
  cases found : owner? kind registry.owners with
  | none => simp [reader?, ofKind?, found]
  | some name =>
      have owner := (owner?_eq_some_iff owned.distinct).1 found
      obtain ⟨entry, registered, -⟩ := owned.hooked _ owner
      have named : entry.name = name := name_of_named? registered
      simp only [reader?, ofKind?, found, Option.bind_some, Option.map_some] at registered ⊢
      rw [registered, Option.map_some, Option.bind_some, named]

section

variable (writes : contribution.entry.WritesOnly)

include writes

theorem hook_contribute (name : String) :
    (named? name (registry.contribute contribution)).bind Entry.fromMarkdown =
      (registry.named? name).bind Entry.fromMarkdown := by
  rw [named?_contribute]
  split
  · next named =>
      subst named
      rw [Option.bind_some, merged, Contribution.name]
      cases registry.named? contribution.entry.name with
      | none => exact writes.hookless
      | some earlier => simp [Entry.merge, writes.hookless]
  · rfl

theorem claims_iff_reads :
    Claims kind registry contribution ↔ registry.Reads kind contribution.name := by
  rw [claims_iff, merged, Reads, Contribution.name]
  cases registry.named? contribution.entry.name with
  | none => simp [writes.hookless]
  | some earlier =>
      simp [Entry.merge, Entry.markdownKind, writes.kindless, writes.hookless]

theorem owner?_contribute_of_reads (owned : registry.Owned)
    (reads : registry.Reads kind contribution.name) :
    owner? kind (registry.contribute contribution).owners = some contribution.name := by
  rw [owner?_eq_some_iff (owned.contribute contribution).distinct, mem_owners_contribute]
  exact .inl ⟨(claims_iff_reads writes).2 reads, rfl⟩

theorem owner?_contribute_of_not_reads (owned : registry.Owned)
    (other : ¬registry.Reads kind contribution.name) :
    owner? kind (registry.contribute contribution).owners = owner? kind registry.owners := by
  ext name
  rw [owner?_eq_some_iff (owned.contribute contribution).distinct,
    owner?_eq_some_iff owned.distinct, mem_owners_contribute, claims_iff_reads writes]
  constructor
  · rintro (⟨reads, -⟩ | ⟨-, -, owner⟩)
    · exact absurd reads other
    · exact owner
  · intro owner
    refine .inr ⟨other, ?_, owner⟩
    rintro rfl
    exact other (owned.hooked _ owner)

theorem reader?_contribute_of_reads (owned : registry.Owned)
    (reads : registry.Reads kind contribution.name) :
    (registry.contribute contribution).reader? kind =
      some (contribution.name, (registry.named? contribution.name).bind Entry.fromMarkdown) := by
  rw [reader?_eq (owned.contribute contribution), owner?_contribute_of_reads writes owned reads,
    Option.map_some, hook_contribute writes]

theorem reader?_contribute_of_not_reads (owned : registry.Owned)
    (other : ¬registry.Reads kind contribution.name) :
    (registry.contribute contribution).reader? kind = registry.reader? kind := by
  rw [reader?_eq (owned.contribute contribution), reader?_eq owned,
    owner?_contribute_of_not_reads writes owned other]
  apply congrArg (Option.map · _)
  funext name
  rw [hook_contribute writes]

end

/-- A contribution with neither a kind nor a hook for markdown gives the kind that its type has a
hook for to this type, and changes nothing for any other kind. So it changes nothing at all if and
only if that kind belongs to the type. -/
theorem readers_kept_iff (history : List Contribution) {contribution : Contribution}
    (writes : contribution.entry.WritesOnly) :
    let before := ofHistory history
    let after := before.contribute contribution
    (∀ kind, before.Reads kind contribution.name → after.reader? kind =
      some (contribution.name, (before.named? contribution.name).bind Entry.fromMarkdown)) ∧
      (∀ kind, ¬before.Reads kind contribution.name →
        after.reader? kind = before.reader? kind) ∧
      ((∀ kind, after.reader? kind = before.reader? kind) ↔
        before.HoldsKind contribution.name) := by
  intro before after
  have owned : before.Owned := owned_ofHistory history
  refine ⟨fun kind => reader?_contribute_of_reads writes owned,
    fun kind => reader?_contribute_of_not_reads writes owned, ?_, ?_⟩
  · intro same kind reads
    rw [← same, reader?_contribute_of_reads writes owned reads, Option.map_some]
  · intro holds kind
    by_cases reads : before.Reads kind contribution.name
    · -- the kind goes to the type that it belongs to
      have held := holds kind reads
      rw [reader?_eq owned, Option.map_map, Option.map_eq_some_iff] at held
      obtain ⟨name, owner, rfl⟩ := held
      rw [reader?_contribute_of_reads writes owned reads, reader?_eq owned, owner]
      rfl
    · exact reader?_contribute_of_not_reads writes owned reads

def plainBold : Entry := { Entry.named "bold" with toMarkdown := some fun _ children => children }

theorem writesOnly_plainBold : plainBold.WritesOnly := ⟨rfl, rfl⟩

theorem readers_kept_iff_bold :
    let history : List Contribution := [.install bold, .install italic]
    plainBold.WritesOnly ∧ (ofHistory history).HoldsKind "bold" ∧
      (ofHistory history).Reads "strong" "bold" ∧
      ((ofHistory history).register plainBold).reader? "strong" =
        some ("bold", some (applyPlainMark "bold")) ∧
      ∀ kind, ((ofHistory history).register plainBold).reader? kind =
        (ofHistory history).reader? kind := by
  intro history
  have holds : (ofHistory history).HoldsKind "bold" := by
    rintro kind ⟨entry, registered, -, rfl⟩
    cases registered
    rfl
  have reads : (ofHistory history).Reads "strong" "bold" := ⟨bold.entry, rfl, rfl, rfl⟩
  obtain ⟨taken, -, keeps⟩ :=
    @readers_kept_iff history (.register plainBold) writesOnly_plainBold
  exact ⟨writesOnly_plainBold, holds, reads, taken "strong" reads, keeps.2 holds⟩

/-- What is bold is read by the type that claimed it last, and after a contribution to writing by
another one. The same happens if that type has gone over to another kind, so that no type reads
what is bold. -/
theorem readers_taken_back :
    let loud : Entry := { bold.entry with name := "loud", toMarkdown := none }
    let away : Entry := { Entry.named "loud" with kindName := some "emphasis" }
    let taken := ofHistory [.install bold, .register loud]
    let left := ofHistory [.install bold, .register loud, .register away]
    plainBold.WritesOnly ∧
      (taken.reader? "strong").map Prod.fst = some "loud" ∧
      ((taken.register plainBold).reader? "strong").map Prod.fst = some "bold" ∧
      left.reader? "strong" = none ∧
      ((left.register plainBold).reader? "strong").map Prod.fst = some "bold" ∧
      ¬∀ (history : List Contribution) (entry : Entry), entry.WritesOnly →
        ∀ kind, ((ofHistory history).register entry).reader? kind =
          (ofHistory history).reader? kind := by
  intro loud away taken left
  refine ⟨writesOnly_plainBold, rfl, rfl, rfl, rfl, fun same => ?_⟩
  have unchanged := same [.install bold, .register loud] plainBold writesOnly_plainBold "strong"
  exact absurd (congrArg (Option.map Prod.fst) unchanged) (by decide)

end Registry

end EditorMarkdown.Conversion
