import IdentityAuthority.Relational.Table
import Mathlib.Data.List.ReduceOption

/-!
# Joins and aggregates

An outer join gives each row of one table the rows of another one that a condition finds, or one
missing row. What it gives is a matter of the rows it finds alone; where it joins on a key of the
other table, it gives exactly one.
-/

namespace Relational

universe u v

section Join

variable {β : Type u} {rows rows' : List β} {on on' : β → Bool} {r : β} {o : Option β}

/-- `LEFT JOIN … ON`. -/
def leftJoin (rows : List β) (on : β → Bool) : List (Option β) :=
  match rows.filter on with
  | [] => [none]
  | found => found.map some

theorem leftJoin_of_filter (h : rows.filter on = rows'.filter on') :
    leftJoin rows on = leftJoin rows' on' := by
  unfold leftJoin
  rw [h]

theorem leftJoin_congr (h : ∀ r ∈ rows, on r = on' r) : leftJoin rows on = leftJoin rows on' :=
  leftJoin_of_filter (List.filter_congr h)

/-- A condition that finds nothing gives one missing row. -/
theorem leftJoin_none (h : ∀ r ∈ rows, on r = false) : leftJoin rows on = [none] := by
  have hnil : rows.filter on = [] := by
    refine List.filter_eq_nil_iff.mpr fun r hr => ?_
    rw [h r hr]
    exact Bool.false_ne_true
  unfold leftJoin
  rw [hnil]

/-- The rows that are there are the rows that were found. -/
theorem some_mem_leftJoin : some r ∈ leftJoin rows on ↔ r ∈ rows ∧ on r = true := by
  rw [← List.mem_filter]
  unfold leftJoin
  cases hfound : rows.filter on with
  | nil => simp
  | cons s found => simp

theorem mem_leftJoin (h : o ∈ leftJoin rows on) : ∀ r ∈ o, r ∈ rows ∧ on r = true := by
  rintro r rfl
  exact some_mem_leftJoin.mp h

end Join

/-- Joined on its primary key, a table gives the row under the key, or a missing one. -/
theorem leftJoin_key {α : Type u} {κ : Type v} [Keyed α κ] (t : Table α) (k : κ) :
    leftJoin t.rows (fun r => decide (key r = k)) = [t.find? k] := by
  cases hfind : t.find? k with
  | none =>
    refine leftJoin_none fun r hr => ?_
    rw [decide_eq_false_iff_not]
    exact Table.find?_eq_none.mp hfind r hr
  | some r =>
    have hone : t.rows.filter (fun s => decide (key s = k)) = [r] := by
      obtain ⟨hr, rfl⟩ := Table.find?_eq_some.mp hfind
      obtain ⟨before, after, hsplit⟩ := List.append_of_mem hr
      have hcompatible := t.compatible
      rw [hsplit] at hcompatible
      obtain ⟨-, hafter, hbefore⟩ := List.pairwise_append.mp hcompatible
      have hother : ∀ s ∈ before ++ after, decide (key s = key r) = false := by
        intro s hs
        rw [decide_eq_false_iff_not]
        rcases List.mem_append.mp hs with hs | hs
        · exact (hbefore s hs r List.mem_cons_self).1
        · exact ((List.pairwise_cons.mp hafter).1 s hs).1.symm
      have hnone : ∀ l ⊆ before ++ after, l.filter (fun s => decide (key s = key r)) = [] := by
        intro l hl
        refine List.filter_eq_nil_iff.mpr fun s hs => ?_
        rw [hother s (hl hs)]
        exact Bool.false_ne_true
      rw [hsplit, List.filter_append, List.filter_cons, hnone before (List.subset_append_left _ _),
        hnone after (List.subset_append_right _ _), decide_eq_true rfl]
      rfl
    unfold leftJoin
    rw [hone]
    rfl

/-- Rows that are alike in what a list is made from make the same list. -/
theorem flatMap_of_map {α : Type u} {β : Type v} {γ : Type*} {f : α → γ} {g g' : α → List β}
    {rows rows' : List α}
    (hg : ∀ r s, f r = f s → g r = g' s) (h : rows.map f = rows'.map f) :
    rows.flatMap g = rows'.flatMap g' := by
  induction rows generalizing rows' with
  | nil =>
    obtain rfl := List.map_eq_nil_iff.mp h.symm
    rfl
  | cons r rows ih =>
    obtain ⟨s, rest, rfl, hs, hrest⟩ := List.map_eq_cons_iff.mp h.symm
    rw [List.flatMap_cons, List.flatMap_cons, hg r s hs.symm, ih hrest.symm]

/-- `LEAST`, which passes over missing values. -/
def least {α : Type u} [Min α] (values : List (Option α)) : Option α := values.reduceOption.min?

end Relational
