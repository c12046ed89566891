import Mathlib.Tactic.Common

/-!
# Conditions over missing values

A comparison with a missing value is neither true nor false but unknown, and the connectives carry
that on. A condition selects a row only where it is known to be true.
-/

namespace Relational

universe u v

/-- A truth value; `none` is the unknown one. -/
abbrev Truth := Option Bool

namespace Truth

variable {α : Type u} {β : Type v}

/-- `AND`: false where one side is, whatever the other one. -/
def and : Truth → Truth → Truth
  | some false, _ => some false
  | _, some false => some false
  | some true, some true => some true
  | _, _ => none

/-- `OR`: true where one side is, whatever the other one. -/
def or : Truth → Truth → Truth
  | some true, _ => some true
  | _, some true => some true
  | some false, some false => some false
  | _, _ => none

/-- `NOT`. -/
def not : Truth → Truth
  | some b => some !b
  | none => none

/-- A comparison, unknown where a side is missing. -/
def compare (r : α → β → Bool) : Option α → Option β → Truth
  | some a, some b => some (r a b)
  | _, _ => none

/-- The condition is known to be true, as `WHERE` and `WHEN` ask. -/
def holds (t : Truth) : Bool := t.getD false

/-- `COALESCE(…, false)`. -/
def known (t : Truth) : Truth := some t.holds

/-- `IS NOT DISTINCT FROM`: never unknown. -/
def same [DecidableEq α] (a b : Option α) : Truth := some (decide (a = b))

variable {s t : Truth} {b : Bool} {r : α → β → Bool} {x : Option α} {y : Option β}

@[simp] theorem holds_some : holds (some b) = b := rfl

@[simp] theorem holds_none : holds none = false := rfl

theorem holds_eq_true : t.holds = true ↔ t = some true := by
  rcases t with _ | _ | _ <;> simp

@[simp] theorem holds_and : (s.and t).holds = (s.holds && t.holds) := by
  rcases s with _ | _ | _ <;> rcases t with _ | _ | _ <;> rfl

@[simp] theorem holds_or : (s.or t).holds = (s.holds || t.holds) := by
  rcases s with _ | _ | _ <;> rcases t with _ | _ | _ <;> rfl

@[simp] theorem holds_known : t.known.holds = t.holds := rfl

theorem and_false (s : Truth) : s.and (some false) = some false := by
  rcases s with _ | _ | _ <;> rfl

@[simp] theorem not_some : not (some b) = some !b := rfl

@[simp] theorem holds_not_known : (t.known.not).holds = !t.holds := rfl

/-- A comparison holds of two values that are there. -/
theorem holds_compare : (compare r x y).holds = true ↔ ∃ a ∈ x, ∃ b ∈ y, r a b = true := by
  cases x <;> cases y <;> simp [compare]

end Truth

end Relational
