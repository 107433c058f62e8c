/-!
Sums of bounded numbers. Where a sum does not fit, a run that checks its sums stops, and another
run goes on from zero.
-/

namespace EditorMarkdown

/-- What stops a run. -/
inductive Fault
  | overflow
  | outOfBounds
  deriving DecidableEq, Repr

inductive Sums
  | checked
  | wrapping
  deriving DecidableEq, Repr

namespace Sums

variable {α β γ : Type}

/-- A value, unless one of the sums on the way to it is checked and does not fit. -/
def guard (sums : Sums) (overflows : Bool) (value : α) : Except Fault α :=
  if overflows && sums = .checked then .error .overflow else .ok value

@[simp] theorem guard_wrapping (overflows : Bool) (value : α) :
    wrapping.guard overflows value = .ok value := by
  simp [guard]

@[simp] theorem guard_false (sums : Sums) (value : α) : sums.guard false value = .ok value := by
  simp [guard]

theorem map_guard (sums : Sums) (overflows : Bool) (value : α) (f : α → β) :
    (sums.guard overflows value).map f = sums.guard overflows (f value) := by
  unfold guard
  split <;> rfl

/-- Of two parts of a run the second is not come to if the first stops it. -/
theorem guard_or (sums : Sums) (first second : Bool) (one : α) (two : β) (f : α → β → γ) :
    sums.guard (first || second) (f one two) =
      (sums.guard first one).bind fun a => (sums.guard second two).map (f a) := by
  cases sums <;> cases first <;> cases second <;> rfl

theorem guard_eq_ok_iff {sums : Sums} {overflows : Bool} {value found : α} :
    sums.guard overflows value = .ok found ↔
      value = found ∧ ¬(sums = .checked ∧ overflows) := by
  cases sums <;> cases overflows <;> simp [guard]

theorem guard_eq_error_iff {sums : Sums} {overflows : Bool} {value : α} {fault : Fault} :
    sums.guard overflows value = .error fault ↔
      fault = .overflow ∧ sums = .checked ∧ overflows := by
  cases sums <;> cases overflows <;> simp [guard, eq_comm]

end Sums

end EditorMarkdown
