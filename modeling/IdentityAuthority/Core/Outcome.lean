import Mathlib.Tactic

/-!
# Outcomes of code that may panic

Code that indexes or slices a list ends with a value, with an error it returns, or by a
panic where the list is too short. The three are kept apart, so that the absence of panics
is a statement.
-/

/-- What code ends with. -/
inductive Outcome (ε α : Type)
  | value (a : α)
  | failed (e : ε)
  | panicked
deriving DecidableEq

namespace Outcome

variable {ε α β : Type}

/-- Goes on with a value. -/
def andThen (x : Outcome ε α) (f : α → Outcome ε β) : Outcome ε β :=
  match x with
  | value a => f a
  | failed e => failed e
  | panicked => panicked

instance : Monad (Outcome ε) where
  pure := value
  bind := andThen

/-- An error where a condition fails. -/
def ensure (e : ε) (p : Prop) [Decidable p] : Outcome ε Unit := if p then value () else failed e

/-- An error where there is no value. -/
def demand (e : ε) : Option α → Outcome ε α
  | some a => value a
  | none => failed e

/-- `bytes[i]`. -/
def index (list : List α) (i : ℕ) : Outcome ε α :=
  match list[i]? with
  | some a => value a
  | none => panicked

/-- `bytes[i..j]`. -/
def slice (list : List α) (i j : ℕ) : Outcome ε (List α) :=
  if i ≤ j ∧ j ≤ list.length then value ((list.take j).drop i) else panicked

variable {x : Outcome ε α} {f : α → Outcome ε β} {list : List α} {i j : ℕ} {e : ε}

@[simp] theorem pure_eq_value {a b : α} : (pure a : Outcome ε α) = value b ↔ a = b := by
  simp [pure]

@[simp] theorem bind_eq_value {b : β} :
    (x >>= f) = value b ↔ ∃ a, x = value a ∧ f a = value b := by
  cases x <;> simp [bind, andThen]

@[simp] theorem ensure_eq_value {p : Prop} [Decidable p] {u : Unit} :
    (ensure e p : Outcome ε Unit) = value u ↔ p := by
  unfold ensure
  split <;> simp [*]

@[simp] theorem demand_eq_value {o : Option α} {a : α} :
    (demand e o : Outcome ε α) = value a ↔ o = some a := by
  cases o <;> simp [demand]

@[simp] theorem index_eq_value {a : α} :
    (index list i : Outcome ε α) = value a ↔ list[i]? = some a := by
  unfold index
  split <;> simp [*]

@[simp] theorem slice_eq_value {part : List α} :
    (slice list i j : Outcome ε (List α)) = value part ↔
      (i ≤ j ∧ j ≤ list.length) ∧ (list.take j).drop i = part := by
  unfold slice
  split <;> simp [*]

/-- Code does not panic if no part of it does where it is reached. -/
theorem bind_ne_panicked (hx : x ≠ panicked) (hf : ∀ a, x = value a → f a ≠ panicked) :
    (x >>= f) ≠ panicked := by
  cases x with
  | value a => exact hf a rfl
  | failed e => exact fun h => by cases h
  | panicked => exact absurd rfl hx

theorem pure_ne_panicked {a : α} : (pure a : Outcome ε α) ≠ panicked := by
  intro h
  cases h

theorem ensure_ne_panicked {p : Prop} [Decidable p] : (ensure e p : Outcome ε Unit) ≠ panicked := by
  unfold ensure
  split <;> simp

theorem demand_ne_panicked {o : Option α} : (demand e o : Outcome ε α) ≠ panicked := by
  cases o <;> simp [demand]

/-- Indexing inside a list does not panic. -/
theorem index_ne_panicked (h : i < list.length) : (index list i : Outcome ε α) ≠ panicked := by
  unfold index
  rw [List.getElem?_eq_getElem h]
  simp

/-- Slicing inside a list does not panic. -/
theorem slice_ne_panicked (h : i ≤ j ∧ j ≤ list.length) :
    (slice list i j : Outcome ε (List α)) ≠ panicked := by
  unfold slice
  rw [if_pos h]
  simp

end Outcome
