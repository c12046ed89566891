import Mathlib.Data.List.Pairwise
import Mathlib.Data.List.Basic
import Mathlib.Logic.Function.Basic

/-!
# Tables with a primary key and constraints

A table is a list of rows whose keys differ, whose rows satisfy the row check and
no two of whose rows collide on a further uniqueness constraint. Writes that would
break one of these return `none`, as a constraint violation aborts a statement.
-/

namespace Relational

universe u v

/-- What a kind of row declares: its primary key, the check made on each row, and
which two rows violate a uniqueness constraint other than the primary key. -/
class Keyed (α : Type u) (κ : outParam (Type v)) where
  key : α → κ
  Check : α → Prop
  Collide : α → α → Prop
  decKey : DecidableEq κ
  decCheck : DecidablePred Check
  decCollide : DecidableRel Collide

attribute [reducible, instance] Keyed.decKey Keyed.decCheck Keyed.decCollide

export Keyed (key)

section

variable {α : Type u} {κ : Type v} [Keyed α κ]

/-- Two rows may stand in one table. -/
def Compatible (r s : α) : Prop :=
  key r ≠ key s ∧ ¬ Keyed.Collide r s ∧ ¬ Keyed.Collide s r

instance : DecidableRel (Compatible (α := α)) := fun _ _ =>
  inferInstanceAs (Decidable (_ ∧ _ ∧ _))

instance : Std.Symm (Compatible (α := α)) := ⟨fun _ _ h => ⟨h.1.symm, h.2.2, h.2.1⟩⟩

variable (α) in
/-- The rows of a table, with the constraints they satisfy. -/
structure Table where
  rows : List α
  compatible : rows.Pairwise Compatible
  checked : ∀ r ∈ rows, Keyed.Check r

namespace Table

variable {t t' : Table α} {r s x : α} {k : κ} {p : α → Bool} {f : α → α}

instance [DecidableEq α] : DecidableEq (Table α) := fun s t =>
  decidable_of_iff (s.rows = t.rows) ⟨fun h => by cases s; cases t; cases h; rfl, fun h => h ▸ rfl⟩

instance : Membership α (Table α) := ⟨fun t r => r ∈ t.rows⟩

theorem mem_rows : r ∈ t.rows ↔ r ∈ t := Iff.rfl

/-- The table without rows. -/
def empty : Table α := ⟨[], .nil, by simp⟩

instance : Inhabited (Table α) := ⟨empty⟩

@[simp] theorem not_mem_empty : r ∉ (empty : Table α) := List.not_mem_nil

/-- The table of these rows, if the constraints admit them. -/
def ofRows (rows : List α) : Option (Table α) :=
  if h : rows.Pairwise Compatible ∧ ∀ r ∈ rows, Keyed.Check r then some ⟨rows, h.1, h.2⟩ else none

theorem ofRows_eq_some {rows : List α} :
    ofRows rows = some t ↔ t.rows = rows := by
  unfold ofRows
  constructor
  · intro h
    split at h
    · cases h
      rfl
    · cases h
  · rintro rfl
    rw [dif_pos ⟨t.compatible, t.checked⟩]

/-- The row under a key. -/
def find? (t : Table α) (k : κ) : Option α := t.rows.find? (fun r => decide (key r = k))

/-- The rows that satisfy a condition. -/
def filter (t : Table α) (p : α → Bool) : List α := t.rows.filter p

/-- Whether some row satisfies a condition. -/
def any (t : Table α) (p : α → Bool) : Bool := t.rows.any p

/-- The number of rows that satisfy a condition. -/
def count (t : Table α) (p : α → Bool) : ℕ := t.rows.countP p

/-- Adds a row (`INSERT`). -/
def insert (t : Table α) (r : α) : Option (Table α) := ofRows (r :: t.rows)

/-- Rewrites the rows that satisfy a condition (`UPDATE … WHERE`). -/
def updateWhere (t : Table α) (p : α → Bool) (f : α → α) : Option (Table α) :=
  ofRows (t.rows.map fun r => if p r then f r else r)

/-- Removes the rows that satisfy a condition (`DELETE … WHERE`). -/
def deleteWhere (t : Table α) (p : α → Bool) : Table α where
  rows := t.rows.filter fun r => !p r
  compatible := t.compatible.filter _
  checked r hr := t.checked r (List.mem_filter.mp hr).1

theorem check_of_mem (h : r ∈ t) : Keyed.Check r := t.checked r h

/-- No row is stored twice. -/
theorem nodup_rows (t : Table α) : t.rows.Nodup := by
  refine List.Pairwise.imp ?_ t.compatible
  rintro r s h rfl
  exact h.1 rfl

/-- Two rows of one table under one key are the same row. -/
theorem eq_of_key (hr : r ∈ t) (hs : s ∈ t) (hkey : key r = key s) : r = s := by
  by_contra hne
  exact (t.compatible.forall hr hs hne).1 hkey

/-- Two rows of one table that collide are the same row. -/
theorem eq_of_collide (hr : r ∈ t) (hs : s ∈ t) (hcol : Keyed.Collide r s) : r = s := by
  by_contra hne
  exact (t.compatible.forall hr hs hne).2.1 hcol

theorem mem_of_find? (h : t.find? k = some r) : r ∈ t := List.mem_of_find?_eq_some h

theorem key_of_find? (h : t.find? k = some r) : key r = k := by
  simpa using List.find?_some h

theorem find?_eq_some : t.find? k = some r ↔ r ∈ t ∧ key r = k := by
  refine ⟨fun h => ⟨mem_of_find? h, key_of_find? h⟩, ?_⟩
  rintro ⟨hr, rfl⟩
  cases hfind : t.find? (key r) with
  | none =>
    have hno := List.find?_eq_none.mp hfind r hr
    simp at hno
  | some s => rw [eq_of_key (mem_of_find? hfind) hr (key_of_find? hfind)]

theorem find?_of_mem (h : r ∈ t) : t.find? (key r) = some r := find?_eq_some.mpr ⟨h, rfl⟩

theorem find?_eq_none : t.find? k = none ↔ ∀ r ∈ t, key r ≠ k := by
  simp [find?, List.find?_eq_none, mem_rows]

@[simp] theorem mem_filter : r ∈ t.filter p ↔ r ∈ t ∧ p r = true := List.mem_filter

@[simp] theorem any_eq_true : t.any p = true ↔ ∃ r ∈ t, p r = true := List.any_eq_true

/-- An inserted row is added, checked and under a key that was free. -/
theorem insert_eq_some :
    t.insert r = some t' ↔
      t'.rows = r :: t.rows ∧ Keyed.Check r ∧ ∀ s ∈ t, Compatible r s := by
  unfold insert
  rw [ofRows_eq_some]
  constructor
  · intro h
    have hpair := t'.compatible
    rw [h] at hpair
    exact ⟨h, t'.checked r (by simp [h]), (List.pairwise_cons.mp hpair).1⟩
  · exact fun h => h.1

/-- An insert fails only over the row check or a row already there. -/
theorem insert_eq_none :
    t.insert r = none ↔ ¬ (Keyed.Check r ∧ ∀ s ∈ t, Compatible r s) := by
  unfold insert ofRows
  have hrows : (∀ s ∈ r :: t.rows, Keyed.Check s) ↔ Keyed.Check r :=
    ⟨fun h => h r (by simp), fun h s hs => by
      rcases List.mem_cons.mp hs with rfl | hs
      · exact h
      · exact t.checked s hs⟩
  simp only [List.pairwise_cons, t.compatible, hrows, and_true]
  split
  · rename_i hok
    simp only [reduceCtorEq, false_iff, not_not]
    exact ⟨hok.2, hok.1⟩
  · rename_i hok
    simp only [true_iff]
    exact fun h => hok ⟨h.2, h.1⟩

theorem mem_insert (h : t.insert r = some t') : x ∈ t' ↔ x = r ∨ x ∈ t := by
  rw [← mem_rows, (insert_eq_some.mp h).1, List.mem_cons, mem_rows]

theorem find?_key_of_insert (h : t.insert r = some t') : t.find? (key r) = none :=
  find?_eq_none.mpr fun s hs => ((insert_eq_some.mp h).2.2 s hs).1.symm

theorem find?_insert (h : t.insert r = some t') (k : κ) :
    t'.find? k = if key r = k then some r else t.find? k := by
  unfold find?
  rw [(insert_eq_some.mp h).1, List.find?_cons]
  by_cases hk : key r = k <;> simp [hk]

/-- After an insert the key of its row is taken, and every other key is as before. -/
theorem isSome_find?_insert (h : t.insert r = some t') :
    (fun k => (t'.find? k).isSome) = Function.update (fun k => (t.find? k).isSome) (key r) true := by
  funext k
  rw [find?_insert h, Function.update_apply]
  by_cases hk : key r = k
  · simp [hk]
  · rw [if_neg hk, if_neg (Ne.symm hk)]

theorem count_insert (h : t.insert r = some t') (p : α → Bool) :
    t'.count p = t.count p + if p r = true then 1 else 0 := by
  rw [count, (insert_eq_some.mp h).1, List.countP_cons, count]

theorem updateWhere_eq_some :
    t.updateWhere p f = some t' ↔ t'.rows = t.rows.map fun r => if p r then f r else r :=
  ofRows_eq_some

/-- An update that keeps the keys fails only over the check of a new row, where the rows
carry no constraint but their key. -/
theorem updateWhere_eq_none (hkey : ∀ r, key (f r) = key r)
    (hcollide : ∀ r s : α, ¬ Keyed.Collide r s) :
    t.updateWhere p f = none ↔ ∃ r ∈ t, p r = true ∧ ¬ Keyed.Check (f r) := by
  unfold updateWhere ofRows
  have hpair : (t.rows.map fun r => if p r = true then f r else r).Pairwise Compatible := by
    refine List.pairwise_map.mpr (t.compatible.imp ?_)
    intro r s hrs
    refine ⟨?_, hcollide _ _, hcollide _ _⟩
    have hr : key (if p r = true then f r else r) = key r := by split <;> simp [hkey]
    have hs : key (if p s = true then f s else s) = key s := by split <;> simp [hkey]
    rw [hr, hs]
    exact hrs.1
  split
  · rename_i hok
    simp only [reduceCtorEq, false_iff, not_exists, not_and, not_not]
    intro r hr hp
    exact hok.2 (f r) (List.mem_map.mpr ⟨r, hr, by simp [hp]⟩)
  · rename_i hok
    simp only [true_iff]
    by_contra hno
    refine hok ⟨hpair, ?_⟩
    intro x hx
    obtain ⟨r, hr, rfl⟩ := List.mem_map.mp hx
    split
    · rename_i hp
      by_contra hbad
      exact hno ⟨r, hr, hp, hbad⟩
    · exact t.checked r hr

/-- An update that keeps the keys and makes no new collision succeeds where the new rows pass their
check. -/
theorem updateWhere_succeeds (hkey : ∀ r, key (f r) = key r)
    (hcollide : ∀ r s, Keyed.Collide (if p r then f r else r) (if p s then f s else s) →
      Keyed.Collide r s)
    (hcheck : ∀ r ∈ t, p r = true → Keyed.Check (f r)) : ∃ t', t.updateWhere p f = some t' := by
  have hkept : ∀ r, key (if p r then f r else r) = key r := by
    intro r
    split
    · exact hkey r
    · rfl
  have hpair : (t.rows.map fun r => if p r then f r else r).Pairwise Compatible := by
    refine List.pairwise_map.mpr (t.compatible.imp ?_)
    intro r s hrs
    refine ⟨?_, fun h => hrs.2.1 (hcollide r s h), fun h => hrs.2.2 (hcollide s r h)⟩
    rw [hkept r, hkept s]
    exact hrs.1
  have hchecked : ∀ x ∈ t.rows.map fun r => if p r then f r else r, Keyed.Check x := by
    intro x hx
    obtain ⟨r, hr, rfl⟩ := List.mem_map.mp hx
    by_cases hp : p r = true
    · rw [if_pos hp]
      exact hcheck r hr hp
    · rw [if_neg hp]
      exact t.checked r hr
  exact ⟨⟨_, hpair, hchecked⟩, dif_pos ⟨hpair, hchecked⟩⟩

theorem mem_updateWhere (h : t.updateWhere p f = some t') :
    x ∈ t' ↔ ∃ r ∈ t, x = if p r then f r else r := by
  rw [← mem_rows, updateWhere_eq_some.mp h, List.mem_map]
  simp only [mem_rows, eq_comm]

/-- An update that keeps the keys of the rows it touches. -/
theorem find?_updateWhere_of (h : t.updateWhere p f = some t')
    (hkey : ∀ r ∈ t, p r = true → key (f r) = key r) (k : κ) :
    t'.find? k = (t.find? k).map fun r => if p r then f r else r := by
  have hkept : ∀ r ∈ t, key (if p r then f r else r) = key r := by
    intro r hr
    split
    · exact hkey r hr (by assumption)
    · rfl
  cases hfind : t.find? k with
  | none =>
    rw [Option.map_none, find?_eq_none]
    rintro _ hx
    obtain ⟨r, hr, rfl⟩ := (mem_updateWhere h).mp hx
    rw [hkept r hr]
    exact find?_eq_none.mp hfind r hr
  | some r =>
    obtain ⟨hr, rfl⟩ := find?_eq_some.mp hfind
    rw [Option.map_some, find?_eq_some]
    exact ⟨(mem_updateWhere h).mpr ⟨r, hr, rfl⟩, hkept r hr⟩

theorem find?_updateWhere (h : t.updateWhere p f = some t')
    (hkey : ∀ r, key (f r) = key r) (k : κ) :
    t'.find? k = (t.find? k).map fun r => if p r then f r else r :=
  find?_updateWhere_of h (fun r _ _ => hkey r) k

@[simp] theorem mem_deleteWhere : x ∈ t.deleteWhere p ↔ x ∈ t ∧ p x = false := by
  rw [← mem_rows, deleteWhere, List.mem_filter, mem_rows]
  simp

theorem find?_deleteWhere_eq_some :
    (t.deleteWhere p).find? k = some r ↔ t.find? k = some r ∧ p r = false := by
  simp only [find?_eq_some, mem_deleteWhere]
  tauto

/-- Deleting rows only loses keys. -/
theorem find?_of_find?_deleteWhere (h : (t.deleteWhere p).find? k = some r) :
    t.find? k = some r := (find?_deleteWhere_eq_some.mp h).1

/-- A row deleted from a table leaves the others under their keys. -/
theorem find?_deleteWhere (t : Table α) (p : α → Bool) (k : κ) :
    (t.deleteWhere p).find? k = t.find? k ∨
      (t.deleteWhere p).find? k = none ∧ ∃ r, t.find? k = some r ∧ p r = true := by
  cases hfind : t.find? k with
  | none =>
    refine .inl ?_
    rw [find?_eq_none] at hfind ⊢
    exact fun r hr => hfind r (mem_deleteWhere.mp hr).1
  | some r =>
    cases hp : p r with
    | false => exact .inl (find?_deleteWhere_eq_some.mpr ⟨hfind, hp⟩)
    | true =>
      refine .inr ⟨?_, r, rfl, hp⟩
      rw [Option.eq_none_iff_forall_ne_some]
      intro s hs
      obtain ⟨hs, hps⟩ := find?_deleteWhere_eq_some.mp hs
      rw [hfind, Option.some.injEq] at hs
      rw [← hs, hp] at hps
      cases hps

theorem length_insert (h : t.insert r = some t') : t'.rows.length = t.rows.length + 1 := by
  rw [(insert_eq_some.mp h).1, List.length_cons]

theorem length_updateWhere (h : t.updateWhere p f = some t') :
    t'.rows.length = t.rows.length := by
  rw [updateWhere_eq_some.mp h, List.length_map]

theorem length_deleteWhere_le (t : Table α) (p : α → Bool) :
    (t.deleteWhere p).rows.length ≤ t.rows.length := List.length_filter_le _ _

end Table

end

end Relational
