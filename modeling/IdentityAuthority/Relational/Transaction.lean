import Mathlib.Algebra.Order.Ring.Int
import Mathlib.Tactic.Common

/-!
# Transactions over a state with a clock

A transaction reads and writes a state, reads a clock that never goes back, and draws
values that never repeat. It either commits, with a result and the new world, or fails
and leaves no trace. The lemmas `run_*` say what a committed run of each step did;
together they take a committed run of a whole transaction apart.
-/

namespace Relational

/-- A source of values without repetition. -/
structure Entropy where
  draw : ℕ → ℕ
  injective : Function.Injective draw

/-- The state a transaction works on, the clock in microseconds, the time that passes
before each coming clock reading, and how many values were drawn so far. -/
structure World (σ : Type) where
  state : σ
  clock : ℤ
  delays : List ℕ
  drawn : ℕ

namespace World

variable {σ : Type}

/-- The world at the next clock reading. -/
def tick (w : World σ) : World σ :=
  { w with clock := w.clock + w.delays.headD 0, delays := w.delays.tail }

@[simp] theorem tick_state (w : World σ) : w.tick.state = w.state := rfl
@[simp] theorem tick_drawn (w : World σ) : w.tick.drawn = w.drawn := rfl

theorem clock_le_tick (w : World σ) : w.clock ≤ w.tick.clock := by
  simp only [tick]
  omega

/-- Where no time passes, every clock reading is the same. -/
@[simp] theorem tick_instant {s : σ} {t : ℤ} {n : ℕ} :
    (⟨s, t, [], n⟩ : World σ).tick = ⟨s, t, [], n⟩ := by
  simp [tick]

/-- A later world: neither the clock nor the count of drawn values went back. -/
structure Advances (w w' : World σ) : Prop where
  clock : w.clock ≤ w'.clock
  drawn : w.drawn ≤ w'.drawn

theorem Advances.refl (w : World σ) : w.Advances w := ⟨le_rfl, le_rfl⟩

theorem Advances.trans {w₁ w₂ w₃ : World σ} (h : w₁.Advances w₂) (h' : w₂.Advances w₃) :
    w₁.Advances w₃ :=
  ⟨h.clock.trans h'.clock, h.drawn.trans h'.drawn⟩

theorem Advances.tick (w : World σ) : w.Advances w.tick := ⟨w.clock_le_tick, le_rfl⟩

end World

/-- A transaction: what it does to a world if it commits, or why it fails. Whatever it
does, it only advances the world. -/
structure Tx (σ ε α : Type) where
  run : World σ → Except ε (α × World σ)
  advances : ∀ w a w', run w = .ok (a, w') → w.Advances w'

namespace Tx

variable {σ ε α β : Type} {w w' : World σ}

/-- Two steps in order; the first failure is the failure of the whole. -/
def andThen (m : Tx σ ε α) (f : α → Tx σ ε β) : Tx σ ε β where
  run w :=
    match m.run w with
    | .ok (a, w') => (f a).run w'
    | .error e => .error e
  advances w b w' h := by
    cases hm : m.run w with
    | error e => simp [hm] at h
    | ok r =>
      obtain ⟨a, w₁⟩ := r
      simp only [hm] at h
      exact (m.advances w a w₁ hm).trans ((f a).advances w₁ b w' h)

instance : Monad (Tx σ ε) where
  pure a := ⟨fun w => .ok (a, w), by rintro w a w' h; cases h; exact .refl _⟩
  bind := andThen

/-- Gives up: nothing of the transaction remains. -/
def throw (e : ε) : Tx σ ε α := ⟨fun _ => .error e, by rintro w a w' h; cases h⟩

/-- Reads the state. -/
def query (f : σ → α) : Tx σ ε α :=
  ⟨fun w => .ok (f w.state, w), by rintro w a w' h; cases h; exact .refl _⟩

/-- Reads the whole world, as a component that shares the transaction sees it. -/
def world : Tx σ ε (World σ) :=
  ⟨fun w => .ok (w, w), by rintro w a w' h; cases h; exact .refl _⟩

/-- Goes on only under a condition. -/
def require (c : Prop) [Decidable c] (e : ε) : Tx σ ε Unit := if c then pure () else throw e

/-- Goes on only with a value. -/
def demand (o : Option α) (e : ε) : Tx σ ε α :=
  match o with
  | some a => pure a
  | none => throw e

/-- Goes on only with a result. -/
def ofExcept (r : Except ε α) : Tx σ ε α :=
  match r with
  | .ok a => pure a
  | .error e => throw e

/-- Writes the state; the write fails where a constraint forbids it. -/
def write (f : σ → Option σ) (e : ε) : Tx σ ε Unit where
  run w :=
    match f w.state with
    | some s => .ok ((), { w with state := s })
    | none => .error e
  advances w a w' h := by
    cases hf : f w.state with
    | none => simp [hf] at h
    | some s =>
      simp only [hf, Except.ok.injEq, Prod.mk.injEq, true_and] at h
      subst h
      exact ⟨le_rfl, le_rfl⟩

/-- Writes the state where no constraint is in question. -/
def modify (f : σ → σ) : Tx σ ε Unit :=
  ⟨fun w => .ok ((), { w with state := f w.state }), by
    rintro w a w' h; cases h; exact ⟨le_rfl, le_rfl⟩⟩

/-- Reads the clock (`clock_timestamp()`): each occurrence is a reading of its own. -/
def clockTimestamp : Tx σ ε ℤ :=
  ⟨fun w => .ok (w.tick.clock, w.tick), by
    rintro w a w' h; cases h; exact ⟨w.clock_le_tick, le_rfl⟩⟩

/-- Draws a fresh value. -/
def random (entropy : Entropy) : Tx σ ε ℕ :=
  ⟨fun w => .ok (entropy.draw w.drawn, { w with drawn := w.drawn + 1 }), by
    rintro w a w' h; cases h; exact ⟨le_rfl, Nat.le_succ _⟩⟩

/-- What a transaction leaves: the world it commits, or the one it found where it fails. -/
def settle (m : Tx σ ε α) (w : World σ) : World σ :=
  match m.run w with
  | .ok (_, w') => w'
  | .error _ => w

theorem settle_of_error {m : Tx σ ε α} {e : ε} (h : m.run w = .error e) : m.settle w = w := by
  simp only [settle, h]

@[simp] theorem run_pure {a b : α} :
    (pure a : Tx σ ε α).run w = .ok (b, w') ↔ b = a ∧ w = w' := by
  change Except.ok (a, w) = Except.ok (b, w') ↔ _
  simp only [Except.ok.injEq, Prod.mk.injEq, eq_comm (a := a)]

@[simp] theorem run_bind {m : Tx σ ε α} {f : α → Tx σ ε β} {b : β} :
    (m >>= f).run w = .ok (b, w') ↔
      ∃ a w₁, m.run w = .ok (a, w₁) ∧ (f a).run w₁ = .ok (b, w') := by
  change (m.andThen f).run w = _ ↔ _
  unfold andThen
  cases hm : m.run w with
  | error e => simp [hm]
  | ok r =>
    obtain ⟨a, w₁⟩ := r
    simp [hm]

@[simp] theorem run_map {m : Tx σ ε α} {f : α → β} {b : β} :
    (f <$> m).run w = .ok (b, w') ↔ ∃ a, m.run w = .ok (a, w') ∧ b = f a := by
  change (m >>= fun a => pure (f a)).run w = _ ↔ _
  simp

@[simp] theorem run_throw {e : ε} {a : α} : (throw e : Tx σ ε α).run w = .ok (a, w') ↔ False := by
  simp [throw]

@[simp] theorem run_query {f : σ → α} {a : α} :
    (query f : Tx σ ε α).run w = .ok (a, w') ↔ a = f w.state ∧ w = w' := by
  simp only [query, Except.ok.injEq, Prod.mk.injEq, eq_comm (b := a)]

@[simp] theorem run_world {a : World σ} :
    (world : Tx σ ε (World σ)).run w = .ok (a, w') ↔ a = w ∧ w = w' := by
  simp only [world, Except.ok.injEq, Prod.mk.injEq, eq_comm (b := a)]

@[simp] theorem run_require {c : Prop} [Decidable c] {e : ε} {a : Unit} :
    (require c e : Tx σ ε Unit).run w = .ok (a, w') ↔ c ∧ w = w' := by
  unfold require
  split <;> simp [*]

@[simp] theorem run_demand {o : Option α} {e : ε} {a : α} :
    (demand o e : Tx σ ε α).run w = .ok (a, w') ↔ o = some a ∧ w = w' := by
  unfold demand
  cases o with
  | none => simp
  | some b => simp [eq_comm (a := a)]

@[simp] theorem run_ofExcept {r : Except ε α} {a : α} :
    (ofExcept r : Tx σ ε α).run w = .ok (a, w') ↔ r = .ok a ∧ w = w' := by
  unfold ofExcept
  cases r with
  | error e => simp
  | ok b => simp [eq_comm (a := a)]

@[simp] theorem run_write {f : σ → Option σ} {e : ε} {a : Unit} :
    (write f e : Tx σ ε Unit).run w = .ok (a, w') ↔
      ∃ s, f w.state = some s ∧ w' = { w with state := s } := by
  unfold write
  cases hf : f w.state <;> simp [hf, eq_comm]

@[simp] theorem run_modify {f : σ → σ} {a : Unit} :
    (modify f : Tx σ ε Unit).run w = .ok (a, w') ↔ w' = { w with state := f w.state } := by
  simp [modify, eq_comm]

@[simp] theorem run_clockTimestamp {a : ℤ} :
    (clockTimestamp : Tx σ ε ℤ).run w = .ok (a, w') ↔ a = w.tick.clock ∧ w' = w.tick := by
  simp only [clockTimestamp, Except.ok.injEq, Prod.mk.injEq, eq_comm]

theorem run_clockTimestamp_instant {s : σ} {t a : ℤ} {n : ℕ} :
    (clockTimestamp : Tx σ ε ℤ).run ⟨s, t, [], n⟩ = .ok (a, w') ↔ t = a ∧ ⟨s, t, [], n⟩ = w' := by
  rw [run_clockTimestamp, World.tick_instant, eq_comm (a := a), eq_comm (a := w')]

@[simp] theorem run_random {entropy : Entropy} {a : ℕ} :
    (random entropy : Tx σ ε ℕ).run w = .ok (a, w') ↔
      a = entropy.draw w.drawn ∧ w' = { w with drawn := w.drawn + 1 } := by
  simp only [random, Except.ok.injEq, Prod.mk.injEq, eq_comm]

@[simp] theorem run_ite {c : Prop} [Decidable c] {m m' : Tx σ ε α} {a : α} :
    (if c then m else m').run w = .ok (a, w') ↔
      c ∧ m.run w = .ok (a, w') ∨ ¬ c ∧ m'.run w = .ok (a, w') := by
  split <;> simp [*]

section Failures

variable {e e' : ε}

theorem run_pure_error {a : α} : (pure a : Tx σ ε α).run w = .error e ↔ False := by
  change Except.ok (a, w) = Except.error e ↔ _
  simp

/-- A sequence fails in its first step, or in the rest after it. -/
theorem run_bind_error {m : Tx σ ε α} {f : α → Tx σ ε β} :
    (m >>= f).run w = .error e ↔
      m.run w = .error e ∨ ∃ a w₁, m.run w = .ok (a, w₁) ∧ (f a).run w₁ = .error e := by
  change (m.andThen f).run w = _ ↔ _
  unfold andThen
  cases hm : m.run w with
  | error e' => simp [hm]
  | ok r =>
    obtain ⟨a, w₁⟩ := r
    simp [hm]

/-- A sequence fails where its first step commits and the rest fails after it. -/
theorem run_bind_error_of_ok {m : Tx σ ε α} {f : α → Tx σ ε β} {a : α} {w₁ : World σ}
    (hm : m.run w = .ok (a, w₁)) (hf : (f a).run w₁ = .error e) : (m >>= f).run w = .error e :=
  run_bind_error.mpr (.inr ⟨a, w₁, hm, hf⟩)

theorem run_throw_error : (throw e : Tx σ ε α).run w = .error e' ↔ e' = e := by
  simp [throw, eq_comm]

theorem run_query_error {f : σ → α} : (query f : Tx σ ε α).run w = .error e ↔ False := by
  simp [query]

theorem run_require_error {c : Prop} [Decidable c] :
    (require c e : Tx σ ε Unit).run w = .error e' ↔ ¬ c ∧ e' = e := by
  unfold require
  split
  · rename_i hc
    simp [run_pure_error, hc]
  · rename_i hc
    simp [run_throw_error, hc]

theorem run_demand_error {o : Option α} :
    (demand o e : Tx σ ε α).run w = .error e' ↔ o = none ∧ e' = e := by
  unfold demand
  cases o with
  | none => simp [run_throw_error]
  | some a => simp [run_pure_error]

theorem run_ofExcept_error {r : Except ε α} :
    (ofExcept r : Tx σ ε α).run w = .error e ↔ r = .error e := by
  unfold ofExcept
  cases r with
  | error e' => simp [run_throw_error, eq_comm (a := e)]
  | ok a => simp [run_pure_error]

theorem run_write_error {f : σ → Option σ} :
    (write f e : Tx σ ε Unit).run w = .error e' ↔ f w.state = none ∧ e' = e := by
  unfold write
  cases hf : f w.state <;> simp [hf, eq_comm]

theorem run_clockTimestamp_error : (clockTimestamp : Tx σ ε ℤ).run w = .error e ↔ False := by
  simp [clockTimestamp]

theorem run_random_error {entropy : Entropy} :
    (random entropy : Tx σ ε ℕ).run w = .error e ↔ False := by
  simp [random]

end Failures

/-- A step that only reads leaves the state as it is. -/
def ReadOnly (m : Tx σ ε α) : Prop :=
  ∀ w a w', m.run w = .ok (a, w') → w'.state = w.state

/-- A step that never fails for a reason. -/
def Avoids (m : Tx σ ε α) (e : ε) : Prop := ∀ w, m.run w ≠ .error e

section Avoids

variable {e e' : ε}

theorem Avoids.pure {a : α} : (Pure.pure a : Tx σ ε α).Avoids e := fun _ h =>
  run_pure_error.mp h

theorem Avoids.bind {m : Tx σ ε α} {f : α → Tx σ ε β} (hm : m.Avoids e)
    (hf : ∀ a, (f a).Avoids e) : (m >>= f).Avoids e := by
  intro w h
  rcases run_bind_error.mp h with h | ⟨a, w₁, -, h⟩
  · exact hm w h
  · exact hf a w₁ h

theorem Avoids.ite {c : Prop} [Decidable c] {m m' : Tx σ ε α} (hm : m.Avoids e)
    (hm' : m'.Avoids e) : (if c then m else m').Avoids e := by
  split
  · exact hm
  · exact hm'

theorem Avoids.query {f : σ → α} : (Tx.query f : Tx σ ε α).Avoids e := fun _ h =>
  run_query_error.mp h

theorem Avoids.clockTimestamp : (Tx.clockTimestamp : Tx σ ε ℤ).Avoids e := fun _ h =>
  run_clockTimestamp_error.mp h

theorem Avoids.random {entropy : Entropy} : (Tx.random entropy : Tx σ ε ℕ).Avoids e :=
  fun _ h => run_random_error.mp h

end Avoids

theorem ReadOnly.state_eq {m : Tx σ ε α} (hm : m.ReadOnly) {a : α}
    (h : m.run w = .ok (a, w')) : w'.state = w.state := hm w a w' h

/-- A step that commits keeps a part of the state. -/
def Keeps {γ : Type} (f : σ → γ) (m : Tx σ ε α) : Prop :=
  ∀ w a w', m.run w = .ok (a, w') → f w'.state = f w.state

section Keeps

variable {γ : Type} {g : σ → γ}

theorem ReadOnly.keeps {m : Tx σ ε α} (hm : m.ReadOnly) : m.Keeps g :=
  fun w a w' h => congrArg g (hm w a w' h)

theorem Keeps.pure {a : α} : (Pure.pure a : Tx σ ε α).Keeps g := by
  intro w b w' h
  obtain ⟨-, rfl⟩ := run_pure.mp h
  rfl

theorem Keeps.require {c : Prop} [Decidable c] {e : ε} : (Tx.require c e : Tx σ ε Unit).Keeps g := by
  intro w b w' h
  obtain ⟨-, rfl⟩ := run_require.mp h
  rfl

theorem Keeps.demand {o : Option α} {e : ε} : (Tx.demand o e : Tx σ ε α).Keeps g := by
  intro w b w' h
  obtain ⟨-, rfl⟩ := run_demand.mp h
  rfl

theorem Keeps.random {entropy : Entropy} : (Tx.random entropy : Tx σ ε ℕ).Keeps g := by
  intro w b w' h
  obtain ⟨-, rfl⟩ := run_random.mp h
  rfl

theorem Keeps.ofExcept {r : Except ε α} : (Tx.ofExcept r : Tx σ ε α).Keeps g := by
  intro w b w' h
  obtain ⟨-, rfl⟩ := run_ofExcept.mp h
  rfl

theorem Keeps.bind {m : Tx σ ε α} {f : α → Tx σ ε β} (hm : m.Keeps g)
    (hf : ∀ a, (f a).Keeps g) : (m >>= f).Keeps g := by
  intro w b w' h
  obtain ⟨a, w₁, hfirst, hrest⟩ := run_bind.mp h
  exact (hf a w₁ b w' hrest).trans (hm w a w₁ hfirst)

end Keeps

end Tx

/-- One state inside another. -/
structure Part (τ σ : Type) where
  get : τ → σ
  put : τ → σ → τ

section Part

variable {τ σ ε α : Type} {p : Part τ σ}

/-- A world, seen from a part of its state. -/
def World.part (p : Part τ σ) (w : World τ) : World σ where
  state := p.get w.state
  clock := w.clock
  delays := w.delays
  drawn := w.drawn

/-- A world after what happened to a part of it. -/
def World.setPart (p : Part τ σ) (w : World τ) (w' : World σ) : World τ where
  state := p.put w.state w'.state
  clock := w'.clock
  delays := w'.delays
  drawn := w'.drawn

/-- Runs a step on a part of the state; the rest shares its clock and its fate. -/
def Tx.within (p : Part τ σ) (m : Tx σ ε α) : Tx τ ε α where
  run w :=
    match m.run (w.part p) with
    | .ok (a, w') => .ok (a, w.setPart p w')
    | .error e => .error e
  advances w a w' h := by
    cases hm : m.run (w.part p) with
    | error e => simp [hm] at h
    | ok r =>
      obtain ⟨b, w₁⟩ := r
      simp only [hm, Except.ok.injEq, Prod.mk.injEq] at h
      obtain ⟨-, rfl⟩ := h
      have hadvances := m.advances _ _ _ hm
      exact ⟨hadvances.clock, hadvances.drawn⟩

@[simp] theorem Tx.run_within {m : Tx σ ε α} {w w' : World τ} {a : α} :
    (Tx.within p m).run w = .ok (a, w') ↔
      ∃ w₁, m.run (w.part p) = .ok (a, w₁) ∧ w' = w.setPart p w₁ := by
  constructor
  · intro h
    simp only [Tx.within] at h
    cases hm : m.run (w.part p) with
    | error e => simp [hm] at h
    | ok r =>
      obtain ⟨b, w₁⟩ := r
      simp only [hm, Except.ok.injEq, Prod.mk.injEq] at h
      obtain ⟨rfl, rfl⟩ := h
      exact ⟨w₁, rfl, rfl⟩
  · rintro ⟨w₁, hm, rfl⟩
    simp only [Tx.within, hm]

end Part

end Relational
