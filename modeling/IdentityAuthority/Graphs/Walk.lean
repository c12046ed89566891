import Mathlib.Data.Nat.Notation
import Mathlib.Logic.Relation

/-!
# Walks upwards

A relation leads from nodes up to other nodes. Where no node has two ways up, a walk that ends at a
top is the only one from its start, and there is no cycle on it.
-/

namespace Graphs

universe u

variable {α : Type u}

/-- A walk over so many nodes, its start and its end included. -/
inductive Walk (up : α → α → Prop) : ℕ → α → α → Prop
  | stay (a : α) : Walk up 1 a a
  | step {n : ℕ} {a b c : α} : up a b → Walk up n b c → Walk up (n + 1) a c

/-- There is no way up from a top. -/
def Top (up : α → α → Prop) (a : α) : Prop := ∀ b, ¬ up a b

/-- There are never two ways up. -/
def Functional (up : α → α → Prop) : Prop := ∀ a b c, up a b → up a c → b = c

variable {up : α → α → Prop} {m n : ℕ} {a b c : α}

/-- A walk reaches its end. -/
theorem Walk.reaches (h : Walk up n a b) : Relation.ReflTransGen up a b := by
  induction h with
  | stay a => exact .refl
  | step hup _ ih => exact .head hup ih

/-- Walks up to tops from one node are the same. -/
theorem Walk.unique (hup : Functional up) (h : Walk up m a b) (h' : Walk up n a c) (hb : Top up b)
    (hc : Top up c) : m = n ∧ b = c := by
  induction h generalizing n with
  | stay a =>
    cases h' with
    | stay => exact ⟨rfl, rfl⟩
    | step hfirst _ => exact absurd hfirst (hb _)
  | step hfirst _ ih =>
    cases h' with
    | stay => exact absurd hfirst (hc _)
    | step hfirst' hrest' =>
      obtain rfl := hup _ _ _ hfirst hfirst'
      obtain ⟨rfl, rfl⟩ := ih hrest' hb
      exact ⟨rfl, rfl⟩

/-- A cycle goes with every walk that starts on it. -/
theorem cycle_of_reaches (hup : Functional up) (hcycle : Relation.TransGen up a a)
    (h : Relation.ReflTransGen up a b) : Relation.TransGen up b b := by
  induction h with
  | refl => exact hcycle
  | tail _ hstep ih =>
    obtain ⟨next, hnext, hback⟩ := Relation.TransGen.head'_iff.mp ih
    obtain rfl := hup _ _ _ hstep hnext
    exact Relation.TransGen.tail' hback hstep

/-- A node from which a walk ends at a top is on no cycle. -/
theorem Walk.acyclic (hup : Functional up) (h : Walk up n a b) (hb : Top up b) :
    ¬ Relation.TransGen up a a := by
  intro hcycle
  obtain ⟨next, hnext, -⟩ :=
    Relation.TransGen.head'_iff.mp (cycle_of_reaches hup hcycle h.reaches)
  exact hb next hnext

end Graphs
