import IdentityAuthority.Relational.Transaction

/-!
# Transactions that report

A transaction that gives something beside its value, and the one it is without that. The two commit
together, and to the same worlds. What is reported is read off by postconditions: what every value
of a committed transaction satisfies.
-/

namespace Relational

namespace Tx

variable {σ ε α β E F : Type}

/-- One transaction is another one that reports something in addition. -/
def Reports (m' : Tx σ ε (α × E)) (m : Tx σ ε α) : Prop :=
  ∀ w a w', m.run w = .ok (a, w') ↔ ∃ e, m'.run w = .ok ((a, e), w')

/-- Every value a transaction commits with satisfies a condition. -/
def Ensures (m : Tx σ ε α) (P : α → Prop) : Prop := ∀ w a w', m.run w = .ok (a, w') → P a

namespace Reports

variable {m : Tx σ ε α} {m' : Tx σ ε (α × E)} {f : α → Tx σ ε β} {f' : α → Tx σ ε (β × F)}

/-- A value with a report. -/
theorem of_pure {a : α} {e : E} : (pure (a, e) : Tx σ ε (α × E)).Reports (pure a) := by
  intro w b w'
  simp only [run_pure, Prod.mk.injEq]
  constructor
  · rintro ⟨rfl, rfl⟩
    exact ⟨e, ⟨rfl, rfl⟩, rfl⟩
  · rintro ⟨e', ⟨rfl, -⟩, rfl⟩
    exact ⟨rfl, rfl⟩

/-- The report is made of the value. -/
theorem attach (m : Tx σ ε α) (g : α → E) : (m >>= fun a => pure (a, g a)).Reports m := by
  intro w a w'
  simp only [run_bind, run_pure, Prod.mk.injEq]
  constructor
  · intro h
    exact ⟨g a, a, w', h, ⟨rfl, rfl⟩, rfl⟩
  · rintro ⟨e, a', w₁, h, ⟨rfl, -⟩, rfl⟩
    exact h

/-- A first step that reports nothing. -/
theorem after (h : ∀ a, (f' a).Reports (f a)) : (m >>= f').Reports (m >>= f) := by
  intro w b w'
  simp only [run_bind]
  constructor
  · rintro ⟨a, w₁, hm, hf⟩
    obtain ⟨e, hf'⟩ := (h a _ _ _).mp hf
    exact ⟨e, a, w₁, hm, hf'⟩
  · rintro ⟨e, a, w₁, hm, hf'⟩
    exact ⟨a, w₁, hm, (h a _ _ _).mpr ⟨e, hf'⟩⟩

/-- A first step that reports, and whatever comes of its report. -/
theorem bind {g : α × E → Tx σ ε (β × F)} (hm : m'.Reports m)
    (hf : ∀ a e, (g (a, e)).Reports (f a)) : (m' >>= g).Reports (m >>= f) := by
  intro w b w'
  simp only [run_bind]
  constructor
  · rintro ⟨a, w₁, hrun, hrest⟩
    obtain ⟨e, hrun'⟩ := (hm _ _ _).mp hrun
    obtain ⟨e', hrest'⟩ := (hf a e _ _ _).mp hrest
    exact ⟨e', (a, e), w₁, hrun', hrest'⟩
  · rintro ⟨e', ⟨a, e⟩, w₁, hrun', hrest'⟩
    exact ⟨a, w₁, (hm _ _ _).mpr ⟨e, hrun'⟩, (hf a e _ _ _).mpr ⟨e', hrest'⟩⟩

/-- A look at the state before is for the report only. -/
theorem look {γ : Type} {q : σ → γ} {g : γ → Tx σ ε (α × E)} (h : ∀ c, (g c).Reports m) :
    (query q >>= g).Reports m := by
  intro w a w'
  simp only [run_bind, run_query]
  constructor
  · intro hm
    obtain ⟨e, hg⟩ := (h (q w.state) _ _ _).mp hm
    exact ⟨e, _, w, ⟨rfl, rfl⟩, hg⟩
  · rintro ⟨e, _, _, ⟨rfl, rfl⟩, hg⟩
    exact (h (q w.state) _ _ _).mpr ⟨e, hg⟩

theorem ite {c : Prop} [Decidable c] {m₁ m₂ : Tx σ ε α} {m₁' m₂' : Tx σ ε (α × E)}
    (h₁ : m₁'.Reports m₁) (h₂ : m₂'.Reports m₂) :
    (if c then m₁' else m₂').Reports (if c then m₁ else m₂) := by
  split
  · exact h₁
  · exact h₂

end Reports

namespace Ensures

variable {m m₁ m₂ : Tx σ ε α} {f : α → Tx σ ε β} {P Q : α → Prop} {R : β → Prop}

theorem trivial : m.Ensures fun _ => True := fun _ _ _ _ => True.intro

theorem of_pure {a : α} (h : P a) : (pure a : Tx σ ε α).Ensures P := by
  intro w b w' hm
  obtain ⟨rfl, rfl⟩ := run_pure.mp hm
  exact h

theorem bind (hm : m.Ensures P) (hf : ∀ a, P a → (f a).Ensures R) : (m >>= f).Ensures R := by
  intro w b w' h
  obtain ⟨a, w₁, hrun, hrest⟩ := run_bind.mp h
  exact hf a (hm _ _ _ hrun) _ _ _ hrest

theorem after (hf : ∀ a, (f a).Ensures R) : (m >>= f).Ensures R :=
  bind trivial fun a _ => hf a

theorem ite {c : Prop} [Decidable c] (h₁ : c → m₁.Ensures P) (h₂ : ¬ c → m₂.Ensures P) :
    (if c then m₁ else m₂).Ensures P := by
  split
  next hc => exact h₁ hc
  next hc => exact h₂ hc

theorem of_require {c : Prop} [Decidable c] {e : ε} :
    (require c e : Tx σ ε Unit).Ensures fun _ => c := by
  intro w a w' h
  exact (run_require.mp h).1

theorem of_ofExcept {r : Except ε α} : (ofExcept r : Tx σ ε α).Ensures fun a => r = .ok a := by
  intro w a w' h
  exact (run_ofExcept.mp h).1

end Ensures

end Tx

end Relational
