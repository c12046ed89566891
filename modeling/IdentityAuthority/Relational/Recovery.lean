import IdentityAuthority.Relational.Transaction
import Mathlib.Logic.Function.Iterate

/-!
# Steps whose refusal is no failure

A transaction that only reads may go on where one of its steps is refused. Running such a step
for one key after the other collects the results of those that were not refused; what was
collected tells at which world each key was judged.
-/

namespace Relational

namespace Tx

variable {σ ε α κ : Type} {w w' : World σ} {caught : ε → Bool}

/-- Runs a step that writes nothing, and goes on without its result where the step fails for a
reason that is caught. The clock reading the step may have made before it failed is passed. -/
def recover (caught : ε → Bool) (m : Tx σ ε α) : Tx σ ε (Option α) where
  run w :=
    match m.run w with
    | .ok (a, w') => .ok (some a, w')
    | .error e => if caught e = true then .ok (none, w.tick) else .error e
  advances w a w' h := by
    cases hm : m.run w with
    | ok r =>
      simp only [hm, Except.ok.injEq, Prod.mk.injEq] at h
      rw [← h.2]
      exact m.advances w r.1 r.2 hm
    | error e =>
      simp only [hm] at h
      split at h
      · simp only [Except.ok.injEq, Prod.mk.injEq] at h
        rw [← h.2]
        exact .tick w
      · cases h

/-- Runs a step for each key in turn, and collects the results of those that are not refused. -/
def collect (caught : ε → Bool) (f : κ → Tx σ ε α) : List κ → Tx σ ε (List α)
  | [] => pure []
  | k :: keys => do
    let found ← recover caught (f k)
    let rest ← collect caught f keys
    pure (found.toList ++ rest)

/-- Keys that are judged one after the other: each is taken with its result, or skipped. -/
inductive Sweep (caught : ε → Bool) (f : κ → Tx σ ε α) :
    World σ → List κ → List α → World σ → Prop
  | done {w : World σ} : Sweep caught f w [] [] w
  | taken {w w₁ w' : World σ} {k : κ} {a : α} {keys : List κ} {as : List α} :
      (f k).run w = .ok (a, w₁) → Sweep caught f w₁ keys as w' →
      Sweep caught f w (k :: keys) (a :: as) w'
  | skipped {w w' : World σ} {k : κ} {e : ε} {keys : List κ} {as : List α} :
      (f k).run w = .error e → caught e = true → Sweep caught f w.tick keys as w' →
      Sweep caught f w (k :: keys) as w'

/-- A step that is recovered from either has its result or was refused. -/
theorem run_recover {m : Tx σ ε α} {o : Option α} :
    (recover caught m).run w = .ok (o, w') ↔
      (∃ a, o = some a ∧ m.run w = .ok (a, w')) ∨
        o = none ∧ w' = w.tick ∧ ∃ e, m.run w = .error e ∧ caught e = true := by
  cases hm : m.run w with
  | ok r =>
    obtain ⟨b, w₁⟩ := r
    simp only [recover, hm, Except.ok.injEq, Prod.mk.injEq, reduceCtorEq, false_and, exists_false,
      and_false, or_false]
    constructor
    · rintro ⟨rfl, rfl⟩
      exact ⟨b, rfl, rfl, rfl⟩
    · rintro ⟨a, rfl, rfl, rfl⟩
      exact ⟨rfl, rfl⟩
  | error e =>
    simp only [recover, hm, reduceCtorEq, and_false, exists_false, false_or, Except.error.injEq]
    by_cases he : caught e = true
    · simp only [he, if_true, Except.ok.injEq, Prod.mk.injEq, exists_eq_left', and_true]
      exact ⟨fun h => ⟨h.1.symm, h.2.symm⟩, fun h => ⟨h.1.symm, h.2.symm⟩⟩
    · simp [he]

/-- Collecting judges the keys in their order. -/
theorem run_collect {f : κ → Tx σ ε α} {keys : List κ} {as : List α}
    (h : (collect caught f keys).run w = .ok (as, w')) : Sweep caught f w keys as w' := by
  induction keys generalizing w as with
  | nil =>
    obtain ⟨rfl, rfl⟩ := run_pure.mp h
    exact .done
  | cons k keys ih =>
    simp only [collect, run_bind, run_pure] at h
    obtain ⟨found, w₁, hfound, rest, _, hrest, rfl, rfl⟩ := h
    rcases run_recover.mp hfound with ⟨a, rfl, hrun⟩ | ⟨rfl, rfl, e, hrun, he⟩
    · exact .taken hrun (ih hrest)
    · exact .skipped hrun he (ih hrest)

namespace Sweep

variable {f : κ → Tx σ ε α} {keys : List κ} {as : List α}

/-- What is collected keeps the order of the keys it was collected for. -/
theorem map_sublist {g : α → κ} (h : Sweep caught f w keys as w')
    (hkey : ∀ k w a w', (f k).run w = .ok (a, w') → g a = k) : (as.map g).Sublist keys := by
  induction h with
  | done => exact List.Sublist.refl _
  | taken hrun _ ih =>
    rw [List.map_cons, hkey _ _ _ _ hrun]
    exact ih.cons_cons _
  | skipped _ _ _ ih => exact ih.cons _

section Ticking

variable (hf : ∀ k w a w', (f k).run w = .ok (a, w') → w' = w.tick)

include hf

/-- Every key takes one reading of the clock. -/
theorem world_eq (h : Sweep caught f w keys as w') : w' = World.tick^[keys.length] w := by
  induction h with
  | done => rfl
  | taken hrun _ ih =>
    rw [ih, hf _ _ _ _ hrun, List.length_cons, Function.iterate_succ_apply]
  | skipped _ _ _ ih => rw [ih, List.length_cons, Function.iterate_succ_apply]

/-- What was collected was found for one of the keys, at the reading of that key. -/
theorem found {a : α} (h : Sweep caught f w keys as w') (ha : a ∈ as) :
    ∃ n < keys.length, ∃ k ∈ keys, ∃ w₁, (f k).run (World.tick^[n] w) = .ok (a, w₁) := by
  induction h with
  | done => cases ha
  | @taken w w₁ w' k b keys as hrun _ ih =>
    rcases List.mem_cons.mp ha with rfl | ha
    · exact ⟨0, Nat.succ_pos _, k, List.mem_cons_self, w₁, hrun⟩
    · obtain ⟨n, hn, k', hk', w₂, hrun'⟩ := ih ha
      rw [hf _ _ _ _ hrun, ← Function.iterate_succ_apply] at hrun'
      exact ⟨n + 1, Nat.succ_lt_succ hn, k', List.mem_cons_of_mem _ hk', w₂, hrun'⟩
  | @skipped w w' k e keys as _ _ _ ih =>
    obtain ⟨n, hn, k', hk', w₂, hrun'⟩ := ih ha
    rw [← Function.iterate_succ_apply] at hrun'
    exact ⟨n + 1, Nat.succ_lt_succ hn, k', List.mem_cons_of_mem _ hk', w₂, hrun'⟩

/-- A key that is refused at no reading is collected. -/
theorem collected {k : κ} (h : Sweep caught f w keys as w') (hk : k ∈ keys)
    (haccepted : ∀ n < keys.length, ∃ a w₁, (f k).run (World.tick^[n] w) = .ok (a, w₁)) :
    ∃ a ∈ as, ∃ w₁ w₂, (f k).run w₁ = .ok (a, w₂) := by
  induction h with
  | done => cases hk
  | @taken w w₁ w' k' b keys as hrun _ ih =>
    rcases List.mem_cons.mp hk with rfl | hk
    · exact ⟨b, List.mem_cons_self, w, w₁, hrun⟩
    · obtain ⟨a, ha, hfound⟩ := ih hk fun n hn => by
        rw [hf _ _ _ _ hrun, ← Function.iterate_succ_apply]
        exact haccepted (n + 1) (Nat.succ_lt_succ hn)
      exact ⟨a, List.mem_cons_of_mem _ ha, hfound⟩
  | @skipped w w' k' e keys as hrun _ _ ih =>
    rcases List.mem_cons.mp hk with rfl | hk
    · -- The key itself was refused, against what is known of its first reading.
      obtain ⟨a, w₁, hok⟩ := haccepted 0 (Nat.succ_pos _)
      rw [Function.iterate_zero_apply, hrun] at hok
      cases hok
    · refine ih hk fun n hn => ?_
      rw [← Function.iterate_succ_apply]
      exact haccepted (n + 1) (Nat.succ_lt_succ hn)

end Ticking

end Sweep

end Tx

end Relational
