import IdentityAuthority.Relational.Statement
import Mathlib.Data.List.Forall2

/-!
# What statements do to the rows of a table

An update keeps or rewrites each row in place; rows of one key follow each other through it.
An insert adds one row under a free key. A key that was drawn before some point and is gone
stays gone, as every later insert is under a key drawn later.
-/

namespace Relational

universe u v

variable {α : Type u} {κ : Type v} [Keyed α κ]

namespace Table

variable {t t' t'' : Table α} {S S' : α → α → Prop} {p : α → Bool} {f : α → α} {k : κ} {r : α}
  {m n : ℕ}

/-- Each row is kept or follows its old value by a relation, and nothing changed where no row
was touched. -/
structure Rewritten (S : α → α → Prop) (n : ℕ) (t t' : Table α) : Prop where
  rows : List.Forall₂ (fun r r' => r' = r ∨ S r r') t.rows t'.rows
  untouched : n = 0 → t' = t

theorem eq_of_rows (h : t'.rows = t.rows) : t' = t := by
  cases t
  cases t'
  cases h
  rfl

/-- An update rewrites the rows it names, each by what it sets. -/
theorem rewritten_of_updateWhere (h : t.updateWhere p f = some t')
    (hS : ∀ r ∈ t, p r = true → S r (f r)) : t.Rewritten S (t.count p) t' := by
  have hrows := updateWhere_eq_some.mp h
  constructor
  · rw [hrows, List.forall₂_map_right_iff, List.forall₂_same]
    intro r hr
    split
    · exact .inr (hS r hr (by assumption))
    · exact .inl rfl
  · intro hcount
    refine eq_of_rows (hrows.trans ?_)
    have hno : ∀ r ∈ t.rows, ¬ p r = true := List.countP_eq_zero.mp hcount
    calc t.rows.map (fun r => if p r then f r else r)
      _ = t.rows.map id := List.map_congr_left fun r hr => by simp [hno r hr]
      _ = t.rows := List.map_id _

theorem exists_of_forall₂ {R : α → α → Prop} {rows rows' : List α}
    (h : List.Forall₂ R rows rows') (hr : r ∈ rows) : ∃ r' ∈ rows', R r r' := by
  induction h with
  | nil => cases hr
  | cons hrr' _ ih =>
    rcases List.mem_cons.mp hr with rfl | hr
    · exact ⟨_, .head _, hrr'⟩
    · obtain ⟨r', hr', h⟩ := ih hr
      exact ⟨r', .tail _ hr', h⟩

/-- Every row after a rewriting follows one before it. -/
theorem Rewritten.exists_before (h : t.Rewritten S n t') {r' : α} (hr' : r' ∈ t') :
    ∃ r ∈ t, r' = r ∨ S r r' :=
  exists_of_forall₂ h.rows.flip hr'

/-- Every row before a rewriting is followed by one after it. -/
theorem Rewritten.exists_after (h : t.Rewritten S n t') (hr : r ∈ t) :
    ∃ r' ∈ t', r' = r ∨ S r r' :=
  exists_of_forall₂ h.rows hr

section

variable (hkey : ∀ r r', S r r' → key r' = key r)

include hkey

theorem Rewritten.find?_after (h : t.Rewritten S n t') (hr : t.find? k = some r) :
    ∃ r', t'.find? k = some r' ∧ (r' = r ∨ S r r') := by
  obtain ⟨hmem, rfl⟩ := find?_eq_some.mp hr
  obtain ⟨r', hr', hrr'⟩ := h.exists_after hmem
  refine ⟨r', find?_eq_some.mpr ⟨hr', ?_⟩, hrr'⟩
  rcases hrr' with rfl | hrr'
  · rfl
  · exact hkey r r' hrr'

theorem Rewritten.find?_before {r' : α} (h : t.Rewritten S n t') (hr' : t'.find? k = some r') :
    ∃ r, t.find? k = some r ∧ (r' = r ∨ S r r') := by
  obtain ⟨hmem, rfl⟩ := find?_eq_some.mp hr'
  obtain ⟨r, hr, hrr'⟩ := h.exists_before hmem
  refine ⟨r, find?_eq_some.mpr ⟨hr, ?_⟩, hrr'⟩
  rcases hrr' with rfl | hrr'
  · rfl
  · exact (hkey r r' hrr').symm

theorem Rewritten.find?_eq_none (h : t.Rewritten S n t') :
    t'.find? k = none ↔ t.find? k = none := by
  constructor
  · intro hnone
    cases hr : t.find? k with
    | none => rfl
    | some r =>
      obtain ⟨r', hr', -⟩ := h.find?_after hkey hr
      rw [hnone] at hr'
      cases hr'
  · intro hnone
    cases hr' : t'.find? k with
    | none => rfl
    | some r' =>
      obtain ⟨r, hr, -⟩ := h.find?_before hkey hr'
      rw [hnone] at hr
      cases hr

end

/-- Every row is followed under its key, by a row it is related to. -/
def Evolves (R : α → α → Prop) (t t' : Table α) : Prop :=
  ∀ k r, t.find? k = some r → ∃ r', t'.find? k = some r' ∧ R r r'

section Evolves

variable {R R' R'' : α → α → Prop}

theorem Evolves.refl (hrefl : ∀ r, R r r) : t.Evolves R t := fun _ r h => ⟨r, h, hrefl r⟩

theorem Evolves.trans (htrans : ∀ a b c, R a b → R' b c → R'' a c) (h : t.Evolves R t')
    (h' : t'.Evolves R' t'') : t.Evolves R'' t'' := by
  intro k r hr
  obtain ⟨r', hr', hR⟩ := h k r hr
  obtain ⟨r'', hr'', hR'⟩ := h' k r' hr'
  exact ⟨r'', hr'', htrans r r' r'' hR hR'⟩

theorem Evolves.of_insert (hrefl : ∀ r, R r r) (h : t.insert r = some t') : t.Evolves R t' := by
  intro k s hs
  refine ⟨s, ?_, hrefl s⟩
  rw [find?_insert h, if_neg ?_, hs]
  rintro rfl
  rw [find?_key_of_insert h] at hs
  cases hs

theorem Evolves.of_rewritten (hrefl : ∀ r, R r r) (hkey : ∀ r r', S r r' → key r' = key r)
    (hS : ∀ r r', S r r' → R r r') (h : t.Rewritten S n t') : t.Evolves R t' := by
  intro k r hr
  obtain ⟨r', hr', rfl | hrr'⟩ := h.find?_after hkey hr
  · exact ⟨r', hr', hrefl r'⟩
  · exact ⟨r', hr', hS r r' hrr'⟩

end Evolves

/-- Every row of the new table comes from one under its key that it is related to, or has one of the
keys drawn in between. -/
def Descends (R : α → α → Prop) (id : ℕ → κ) (lo hi : ℕ) (t t' : Table α) : Prop :=
  ∀ k r', t'.find? k = some r' →
    (∃ r, t.find? k = some r ∧ R r r') ∨ ∃ i, k = id i ∧ lo ≤ i ∧ i < hi

section Descends

variable {R : α → α → Prop} {id : ℕ → κ} {i j l : ℕ}

theorem Descends.refl (hrefl : ∀ r, R r r) : Descends R id i j t t := fun _ r h =>
  .inl ⟨r, h, hrefl r⟩

theorem Descends.mono {i' j' : ℕ} (h : Descends R id i j t t') (hi : i' ≤ i) (hj : j ≤ j') :
    Descends R id i' j' t t' := by
  intro k r' hr'
  rcases h k r' hr' with hold | ⟨d, hk, hlo, hhi⟩
  · exact .inl hold
  · exact .inr ⟨d, hk, by omega, by omega⟩

theorem Descends.trans (htrans : ∀ a b c, R a b → R b c → R a c) (h : Descends R id i j t t')
    (h' : Descends R id i j t' t'') : Descends R id i j t t'' := by
  intro k r'' hr''
  rcases h' k r'' hr'' with ⟨r', hr', hR'⟩ | hnew
  · rcases h k r' hr' with ⟨r, hr, hR⟩ | hnew
    · exact .inl ⟨r, hr, htrans r r' r'' hR hR'⟩
    · exact .inr hnew
  · exact .inr hnew

theorem Descends.of_insert (hrefl : ∀ r, R r r) (h : t.insert r = some t') (hid : key r = id l)
    (hi : i ≤ l) (hj : l < j) : Descends R id i j t t' := by
  intro k s hs
  rw [find?_insert h] at hs
  split at hs
  · rename_i hk
    exact .inr ⟨l, hk.symm.trans hid, hi, hj⟩
  · exact .inl ⟨s, hs, hrefl s⟩

theorem Descends.of_deleteWhere (hrefl : ∀ r, R r r) : Descends R id i j t (t.deleteWhere p) :=
  fun _ s hs => .inl ⟨s, find?_of_find?_deleteWhere hs, hrefl s⟩

theorem Descends.of_rewritten (hrefl : ∀ r, R r r) (hkey : ∀ r r', S r r' → key r' = key r)
    (hS : ∀ r r', S r r' → R r r') (h : t.Rewritten S n t') : Descends R id i j t t' := by
  intro k s hs
  obtain ⟨r, hr, rfl | hrs⟩ := h.find?_before hkey hs
  · exact .inl ⟨s, hr, hrefl s⟩
  · exact .inl ⟨r, hr, hS r s hrs⟩

/-- What is stored under a key drawn before comes from a row that was stored under it. -/
theorem Descends.before {r' : α} (h : Descends R id i j t t') (hinj : Function.Injective id)
    (hl : l < i) (hr' : t'.find? (id l) = some r') : ∃ r, t.find? (id l) = some r ∧ R r r' := by
  rcases h _ _ hr' with hold | ⟨d, hd, hlo, -⟩
  · exact hold
  · have := hinj hd
    omega

/-- What is gone under a key drawn before is gone for good. -/
theorem Descends.gone (h : Descends R id i j t t') (hinj : Function.Injective id) (hl : l < i)
    (hgone : t.find? (id l) = none) : t'.find? (id l) = none := by
  cases hfind : t'.find? (id l) with
  | none => rfl
  | some r' =>
    obtain ⟨r, hr, -⟩ := h.before hinj hl hfind
    rw [hgone] at hr
    cases hr

end Descends

end Table

end Relational
