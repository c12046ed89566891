import IdentityAuthority.Relational.Join
import Mathlib.Data.List.MinMax
import Mathlib.Order.MinMax

/-!
# Comparisons with a clock

A read compares times that are stored with the time it is made at. It comes out the same at any time
before the next of these boundaries. Rows that are found by an order, or joined, are found alike from
rows that are alike in what is looked at.
-/

namespace Relational

universe u v

section Boundaries

variable {α : Type u} [LinearOrder α] {bs : List α} {now t b : α}

/-- The next boundary after a time (`min(…) WHERE … > now`). -/
def nextBoundary (bs : List α) (now : α) : Option α := (bs.filter fun b => decide (now < b)).min?

/-- No value of a list is smaller than its smallest one. -/
theorem min?_le {l : List α} {a : α} (h : a ∈ l) : ∃ m ∈ l.min?, m ≤ a := by
  cases hmin : l.min? with
  | none =>
    rw [List.min?_eq_none_iff] at hmin
    rw [hmin] at h
    cases h
  | some m => exact ⟨m, rfl, (List.min?_eq_some_iff.mp hmin).2 a h⟩

/-- A time is before the least of some values if it is before each of them. -/
theorem lt_least {l : List (Option α)} : (∀ m ∈ least l, t < m) ↔ ∀ o ∈ l, ∀ b ∈ o, t < b := by
  unfold least
  constructor
  · rintro h o ho b rfl
    obtain ⟨m, hm, hle⟩ := min?_le (List.reduceOption_mem_iff.mpr ho)
    exact lt_of_lt_of_le (h m hm) hle
  · intro h m hm
    exact h _ (List.reduceOption_mem_iff.mp (List.min?_eq_some_iff.mp hm).1) m rfl

/-- Before the next boundary, a boundary that has not come does not come. -/
theorem lt_of_nextBoundary (hb : b ∈ bs) (h : ∀ m ∈ nextBoundary bs now, t < m) (hnow : now < b) :
    t < b := by
  have hcoming : b ∈ bs.filter fun b => decide (now < b) :=
    List.mem_filter.mpr ⟨hb, decide_eq_true hnow⟩
  obtain ⟨m, hm, hle⟩ := min?_le hcoming
  exact lt_of_lt_of_le (h m hm) hle

/-- A boundary that does not come in between has come at both times or at none. -/
theorem lt_iff_of_steady (hle : now ≤ t) (h : now < b → t < b) : now < b ↔ t < b :=
  ⟨h, lt_of_le_of_lt hle⟩

theorem le_iff_of_steady (hle : now ≤ t) (h : now < b → t < b) : b ≤ now ↔ b ≤ t := by
  rw [← not_lt, ← not_lt, lt_iff_of_steady hle h]

end Boundaries

section Alike

variable {α : Type u} {β : Type v}

/-- Rows that are alike pairwise are joined to the same. -/
theorem flatMap_of_forall₂ {R : α → α → Prop} {g g' : α → List β} {rows rows' : List α}
    (h : List.Forall₂ R rows rows') (hg : ∀ r ∈ rows, ∀ s, R r s → g r = g' s) :
    rows.flatMap g = rows'.flatMap g' := by
  induction h with
  | nil => rfl
  | @cons r s rows rows' hrs _ ih =>
    rw [List.flatMap_cons, List.flatMap_cons, hg r List.mem_cons_self s hrs,
      ih fun r hr => hg r (List.mem_cons_of_mem _ hr)]

/-- The first row by an order (`ORDER BY … LIMIT 1`) is a matter of what the order looks at. -/
theorem argmin_map {γ : Type*} [LinearOrder γ] (f : α → β) (place : β → γ) (rows : List α) :
    (rows.map f).argmin place = (rows.argmin (place ∘ f)).map f := by
  induction rows using List.reverseRecOn with
  | nil => rfl
  | append_singleton rows r ih =>
    rw [List.map_append, List.map_singleton, List.argmin_concat, List.argmin_concat, ih]
    cases hfirst : rows.argmin (place ∘ f) with
    | none => rfl
    | some s =>
      simp only [Option.map_some, Function.comp_apply]
      split <;> rfl

end Alike

end Relational
