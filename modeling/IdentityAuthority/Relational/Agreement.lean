import IdentityAuthority.Relational.Statement

/-!
# Two runs of one transaction

A transaction is blind to what a relation between states leaves open: from worlds of one time whose
states are in the relation it fails alike, or answers alike and leaves them in the relation.
-/

namespace Relational

variable {σ ε α β : Type}

/-- Two worlds of one time have states in a relation. -/
structure World.Agree (R : σ → σ → Prop) (w v : World σ) : Prop where
  state : R w.state v.state
  clock : w.clock = v.clock
  delays : w.delays = v.delays
  drawn : w.drawn = v.drawn

/-- Two runs end alike. -/
inductive Alike (R : σ → σ → Prop) : Except ε (α × World σ) → Except ε (α × World σ) → Prop
  | error (e : ε) : Alike R (.error e) (.error e)
  | ok {w v : World σ} (a : α) : w.Agree R v → Alike R (.ok (a, w)) (.ok (a, v))

variable {R R' : σ → σ → Prop} {w v : World σ}

theorem World.Agree.tick (h : w.Agree R v) : w.tick.Agree R v.tick := by
  refine ⟨h.state, ?_, ?_, h.drawn⟩
  · simp only [World.tick, h.clock, h.delays]
  · simp only [World.tick, h.delays]

/-- Runs that end alike answer alike. -/
theorem Alike.answer {r r' : Except ε (α × World σ)} (h : Alike R r r') :
    r.map Prod.fst = r'.map Prod.fst := by
  cases h <;> rfl

theorem Alike.mono {r r' : Except ε (α × World σ)} (hle : ∀ s t, R s t → R' s t) (h : Alike R r r') :
    Alike R' r r' := by
  cases h with
  | error e => exact .error e
  | ok a h => exact .ok a ⟨hle _ _ h.state, h.clock, h.delays, h.drawn⟩

/-- A step that committed is gone on from where it ended. -/
theorem run_bind_of_ok {m : Tx σ ε α} {f : α → Tx σ ε β} {a : α} {w₁ : World σ}
    (h : m.run w = .ok (a, w₁)) : (m >>= f).run w = (f a).run w₁ := by
  change (m.andThen f).run w = _
  unfold Tx.andThen
  simp only [h]

/-- Steps that end alike are gone on from with the same value, in worlds that agree. -/
theorem Alike.bind {m : Tx σ ε α} {f : α → Tx σ ε β} (hm : Alike R (m.run w) (m.run v))
    (hf : ∀ a w' v', m.run w = .ok (a, w') → w'.Agree R v' →
      Alike R' ((f a).run w') ((f a).run v')) :
    Alike R' ((m >>= f).run w) ((m >>= f).run v) := by
  generalize hw : m.run w = r at hm
  generalize hv : m.run v = r' at hm
  cases hm with
  | error e =>
    rw [Tx.run_bind_error.mpr (.inl hw), Tx.run_bind_error.mpr (.inl hv)]
    exact .error e
  | ok a h =>
    rw [run_bind_of_ok hw, run_bind_of_ok hv]
    exact hf a _ _ hw h

namespace Tx

/-- A transaction is blind to what a relation between states leaves open. -/
def Blind (R : σ → σ → Prop) (m : Tx σ ε α) : Prop :=
  ∀ w v, w.Agree R v → Alike R (m.run w) (m.run v)

theorem Blind.pure {a : α} : (Pure.pure a : Tx σ ε α).Blind R := fun _ _ h => .ok a h

theorem Blind.throw {e : ε} : (Tx.throw e : Tx σ ε α).Blind R := fun _ _ _ => .error e

theorem Blind.bind {m : Tx σ ε α} {f : α → Tx σ ε β} (hm : m.Blind R) (hf : ∀ a, (f a).Blind R) :
    (m >>= f).Blind R := fun w v h => (hm w v h).bind fun a _ _ _ h => hf a _ _ h

/-- Reading is blind where states in the relation read the same. -/
theorem Blind.query {f : σ → α} (hf : ∀ s t, R s t → f s = f t) :
    (Tx.query f : Tx σ ε α).Blind R := by
  intro w v h
  change Alike R (.ok (f w.state, w)) (.ok (f v.state, v))
  rw [hf _ _ h.state]
  exact .ok _ h

theorem Blind.require {c : Prop} [Decidable c] {e : ε} : (Tx.require c e : Tx σ ε Unit).Blind R := by
  unfold Tx.require
  split
  · exact .pure
  · exact .throw

theorem Blind.demand {o : Option α} {e : ε} : (Tx.demand o e : Tx σ ε α).Blind R := by
  cases o with
  | none => exact .throw
  | some a => exact .pure

theorem Blind.ofExcept {r : Except ε α} : (Tx.ofExcept r : Tx σ ε α).Blind R := by
  cases r with
  | error e => exact .throw
  | ok a => exact .pure

theorem Blind.clockTimestamp : (Tx.clockTimestamp : Tx σ ε ℤ).Blind R := by
  intro w v h
  change Alike R (.ok (w.tick.clock, w.tick)) (.ok (v.tick.clock, v.tick))
  rw [h.tick.clock]
  exact .ok _ h.tick

/-- What is done with a whole world is blind where worlds that agree are treated alike. -/
theorem Blind.world {f : World σ → Tx σ ε α}
    (hf : ∀ w v, w.Agree R v → Alike R ((f w).run w) ((f v).run v)) :
    (Tx.world >>= f).Blind R := hf

/-- What is done with a whole state is blind where states in the relation are treated alike. -/
theorem Blind.snapshot {f : σ → Tx σ ε α}
    (hf : ∀ w v, w.Agree R v → Alike R ((f w.state).run w) ((f v.state).run v)) :
    (Tx.query id >>= f).Blind R := hf

/-- Rows that states in the relation have alike are found blindly. -/
theorem Blind.find {γ κ : Type} [Keyed γ κ] {T : Relation σ γ} {k : κ}
    (hT : ∀ s t, R s t → (T.get s).find? k = (T.get t).find? k) :
    (Tx.find T k : Tx σ ε (Option γ)).Blind R := .query hT

end Tx

end Relational
