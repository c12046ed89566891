import IdentityAuthority.Relational.Table
import IdentityAuthority.Relational.Transaction

/-!
# Statements on the tables of a state

A relation names a table inside a state and says what replacing it does to the whole, the
effect of triggers included. Statements report the number of rows they touched. The lemmas
say what a statement that did not fail left behind.
-/

namespace Relational

universe v

/-- A table of a state: how to read it, and the state after a statement that touched so
many of its rows. -/
structure Relation (σ α : Type) {κ : Type v} [Keyed α κ] where
  get : σ → Table α
  put : σ → Table α → ℕ → Option σ

namespace Tx

variable {σ ε α : Type} {κ : Type v} [Keyed α κ] {R : Relation σ α} {e : ε}
  {w w' : World σ} {r : α} {k : κ} {p : α → Bool} {f : α → α} {n : ℕ}

/-- The row under a key. -/
def find (R : Relation σ α) (k : κ) : Tx σ ε (Option α) := query fun s => (R.get s).find? k

/-- The rows that satisfy a condition. -/
def select (R : Relation σ α) (p : α → Bool) : Tx σ ε (List α) :=
  query fun s => (R.get s).filter p

/-- Whether some row satisfies a condition. -/
def exists? (R : Relation σ α) (p : α → Bool) : Tx σ ε Bool := query fun s => (R.get s).any p

/-- Writes a state and reports a number of rows. -/
def writeRows (f : σ → Option (ℕ × σ)) (e : ε) : Tx σ ε ℕ := do
  let n ← query fun s => (f s).elim 0 Prod.fst
  write (fun s => (f s).map Prod.snd) e
  pure n

/-- `INSERT`. -/
def insertInto (R : Relation σ α) (r : α) (e : ε) : Tx σ ε Unit :=
  write (fun s => ((R.get s).insert r).bind fun t => R.put s t 1) e

/-- `UPDATE … WHERE`, with the number of rows it touched. -/
def updateIn (R : Relation σ α) (p : α → Bool) (f : α → α) (e : ε) : Tx σ ε ℕ :=
  writeRows (fun s => ((R.get s).updateWhere p f).bind fun t =>
    (R.put s t ((R.get s).count p)).map fun s' => ((R.get s).count p, s')) e

/-- `DELETE … WHERE`, with the number of rows it touched. -/
def deleteFrom (R : Relation σ α) (p : α → Bool) (e : ε) : Tx σ ε ℕ :=
  writeRows (fun s => (R.put s ((R.get s).deleteWhere p) ((R.get s).count p)).map fun s' =>
    ((R.get s).count p, s')) e

@[simp] theorem run_find {o : Option α} :
    (find R k : Tx σ ε (Option α)).run w = .ok (o, w') ↔
      o = (R.get w.state).find? k ∧ w = w' := run_query

@[simp] theorem run_select {rows : List α} :
    (select R p : Tx σ ε (List α)).run w = .ok (rows, w') ↔
      rows = (R.get w.state).filter p ∧ w = w' := run_query

@[simp] theorem run_exists {b : Bool} :
    (exists? R p : Tx σ ε Bool).run w = .ok (b, w') ↔
      b = (R.get w.state).any p ∧ w = w' := run_query

theorem run_writeRows {g : σ → Option (ℕ × σ)} :
    (writeRows g e : Tx σ ε ℕ).run w = .ok (n, w') ↔
      ∃ s, g w.state = some (n, s) ∧ w' = { w with state := s } := by
  unfold writeRows
  simp only [run_bind, run_query, run_write, run_pure]
  constructor
  · rintro ⟨m, w₁, ⟨rfl, rfl⟩, -, w₂, ⟨s, hs, rfl⟩, rfl, rfl⟩
    obtain ⟨⟨m, s'⟩, hg, rfl⟩ := Option.map_eq_some_iff.mp hs
    exact ⟨s', by simp [hg], rfl⟩
  · rintro ⟨s, hg, rfl⟩
    exact ⟨n, w, ⟨by simp [hg], rfl⟩, (), _, ⟨s, by simp [hg], rfl⟩, rfl, rfl⟩

@[simp] theorem run_insertInto {a : Unit} :
    (insertInto R r e : Tx σ ε Unit).run w = .ok (a, w') ↔
      ∃ t s, (R.get w.state).insert r = some t ∧ R.put w.state t 1 = some s ∧
        w' = { w with state := s } := by
  simp only [insertInto, run_write, Option.bind_eq_some_iff]
  constructor
  · rintro ⟨s, ⟨t, ht, hs⟩, rfl⟩
    exact ⟨t, s, ht, hs, rfl⟩
  · rintro ⟨t, s, ht, hs, rfl⟩
    exact ⟨s, ⟨t, ht, hs⟩, rfl⟩

@[simp] theorem run_updateIn :
    (updateIn R p f e : Tx σ ε ℕ).run w = .ok (n, w') ↔
      ∃ t s, (R.get w.state).updateWhere p f = some t ∧ R.put w.state t n = some s ∧
        n = (R.get w.state).count p ∧ w' = { w with state := s } := by
  simp only [updateIn, run_writeRows, Option.bind_eq_some_iff, Option.map_eq_some_iff,
    Prod.mk.injEq]
  constructor
  · rintro ⟨s, ⟨t, ht, s', hs, rfl, rfl⟩, rfl⟩
    exact ⟨t, s', ht, hs, rfl, rfl⟩
  · rintro ⟨t, s, ht, hs, rfl, rfl⟩
    exact ⟨s, ⟨t, ht, s, hs, rfl, rfl⟩, rfl⟩

@[simp] theorem run_deleteFrom :
    (deleteFrom R p e : Tx σ ε ℕ).run w = .ok (n, w') ↔
      ∃ s, R.put w.state ((R.get w.state).deleteWhere p) n = some s ∧
        n = (R.get w.state).count p ∧ w' = { w with state := s } := by
  simp only [deleteFrom, run_writeRows, Option.map_eq_some_iff, Prod.mk.injEq]
  constructor
  · rintro ⟨s, ⟨s', hs, rfl, rfl⟩, rfl⟩
    exact ⟨s', hs, rfl, rfl⟩
  · rintro ⟨s, hs, rfl, rfl⟩
    exact ⟨s, ⟨s, hs, rfl, rfl⟩, rfl⟩

section Failures

variable {e' : ε}

theorem run_insertInto_error :
    (insertInto R r e : Tx σ ε Unit).run w = .error e' ↔
      (((R.get w.state).insert r).bind fun t => R.put w.state t 1) = none ∧ e' = e :=
  run_write_error

theorem run_writeRows_error {g : σ → Option (ℕ × σ)} :
    (writeRows g e : Tx σ ε ℕ).run w = .error e' ↔ g w.state = none ∧ e' = e := by
  unfold writeRows
  simp only [run_bind_error, run_query_error, run_query, run_write_error, run_write,
    run_pure_error, Option.map_eq_none_iff, false_or, and_false, exists_false, or_false]
  constructor
  · rintro ⟨n, w₁, ⟨rfl, rfl⟩, h⟩
    exact h
  · exact fun h => ⟨_, _, ⟨rfl, rfl⟩, h⟩

theorem run_updateIn_error :
    (updateIn R p f e : Tx σ ε ℕ).run w = .error e' ↔
      (((R.get w.state).updateWhere p f).bind fun t =>
        R.put w.state t ((R.get w.state).count p)) = none ∧ e' = e := by
  rw [updateIn, run_writeRows_error]
  cases (R.get w.state).updateWhere p f <;> simp

theorem run_deleteFrom_error :
    (deleteFrom R p e : Tx σ ε ℕ).run w = .error e' ↔
      R.put w.state ((R.get w.state).deleteWhere p) ((R.get w.state).count p) = none ∧
        e' = e := by
  rw [deleteFrom, run_writeRows_error, Option.map_eq_none_iff]

/-- Deleting never fails where nothing but the table changes. -/
theorem Avoids.deleteFrom (hput : ∀ s t n, R.put s t n ≠ none) :
    (Tx.deleteFrom R p e : Tx σ ε ℕ).Avoids e' := fun _ h =>
  hput _ _ _ (run_deleteFrom_error.mp h).1

end Failures

/-- Keeps the rows a condition holds of; the condition may read the clock for each row. -/
def filterRows (p : α → Tx σ ε Bool) : List α → Tx σ ε (List α)
  | [] => pure []
  | r :: rows => do
    let keep ← p r
    let rest ← filterRows p rows
    pure (if keep then r :: rest else rest)

/-- A condition that reads only leaves the state as it is, row after row. -/
theorem filterRows_readOnly {p : α → Tx σ ε Bool} (hp : ∀ r, (p r).ReadOnly) :
    ∀ rows, (filterRows p rows).ReadOnly
  | [], w, _, w', h => by
    obtain ⟨-, rfl⟩ := run_pure.mp h
    rfl
  | r :: rows, w, _, w', h => by
    simp only [filterRows, run_bind, run_pure] at h
    obtain ⟨keep, w₁, hkeep, rest, w₂, hrest, -, rfl⟩ := h
    rw [filterRows_readOnly hp rows w₁ rest _ hrest, hp r w keep w₁ hkeep]

/-- Where no time passes, filtering rows is filtering them by what the condition answers. -/
theorem filterRows_instant {p : α → Tx σ ε Bool} {q : α → Bool} {s : σ} {t : ℤ} {m : ℕ}
    (hp : ∀ r b w', (p r).run ⟨s, t, [], m⟩ = .ok (b, w') → b = q r ∧ w' = ⟨s, t, [], m⟩) :
    ∀ {rows out : List α} {w' : World σ}, (filterRows p rows).run ⟨s, t, [], m⟩ = .ok (out, w') →
      out = rows.filter q ∧ w' = ⟨s, t, [], m⟩
  | [], out, w', h => by
    obtain ⟨rfl, rfl⟩ := run_pure.mp h
    exact ⟨rfl, rfl⟩
  | r :: rows, out, w', h => by
    simp only [filterRows, run_bind, run_pure] at h
    obtain ⟨keep, w₁, hkeep, rest, w₂, hrest, rfl, rfl⟩ := h
    obtain ⟨rfl, rfl⟩ := hp r keep w₁ hkeep
    obtain ⟨rfl, rfl⟩ := filterRows_instant hp hrest
    exact ⟨by simp only [List.filter_cons], rfl⟩

theorem Avoids.filterRows {e' : ε} {p : α → Tx σ ε Bool} (hp : ∀ r, (p r).Avoids e') :
    ∀ rows, (Tx.filterRows p rows).Avoids e'
  | [] => .pure
  | r :: rows => (hp r).bind fun _ => (Avoids.filterRows hp rows).bind fun _ => .pure

end Tx

end Relational
