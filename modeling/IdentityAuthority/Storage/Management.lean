import IdentityAuthority.Storage.Sessions

/-!
# Host authorization

The host policy is the only management authority. It sees the actor as just loaded, and may
demand that the actor authenticated recently.
-/

namespace IdentityAuthority

open Relational

/-- Demands a recent authentication of a loaded session. -/
def requireRecent (loaded : Loaded) (maxAge : ℤ) (mfa : Bool) : Action Unit := do
  let recent ← recentlyAuthenticated loaded maxAge
  Tx.require (recent = true ∧ (mfa = true → loaded.assurance.acr = .mfa))
    (.rule .reauthenticationRequired)

/-- Asks the host policy about an operation of a loaded actor (`authorize`). -/
def authorize (env : Env) (loaded : Loaded) (operation : ManagementOperation)
    (target : Option AccountKey) : Action Unit := do
  let world ← Tx.world
  let requirement ← Tx.demand
    (env.policy
      { actor := loaded.state.key
        target
        operation
        assurance := loaded.assurance
        groups := loaded.groups
        departmentSnapshot := loaded.departmentSnapshot } world)
    (.rule .insufficientPrivilege)
  match requirement with
  | .none => pure ()
  | .recent age => requireRecent loaded age false
  | .recentMfa age => requireRecent loaded age true

variable {env : Env} {w w' : Tenant}

@[simp] theorem run_recentlyAuthenticated {loaded : Loaded} {maxAge : ℤ} {recent : Bool} :
    (recentlyAuthenticated loaded maxAge).run w = .ok (recent, w') ↔
      w' = w.tick ∧ recent = loaded.assurance.authTime.any fun authenticated =>
        decide (authenticated ≤ loaded.now ∧ maxAge ≠ 0 ∧ 0 < authenticated + maxAge ∧
          w.tick.clock + 1 < (authenticated + maxAge) * 1000000) := by
  simp only [recentlyAuthenticated, Tx.run_bind, Tx.run_clockTimestamp, Tx.run_pure]
  constructor
  · rintro ⟨_, _, ⟨rfl, rfl⟩, rfl, rfl⟩
    exact ⟨rfl, rfl⟩
  · rintro ⟨rfl, rfl⟩
    exact ⟨_, _, ⟨rfl, rfl⟩, rfl, rfl⟩

/-- Authorization writes nothing; it may wait. -/
theorem run_authorize {loaded : Loaded} {operation : ManagementOperation}
    {target : Option AccountKey} {a : Unit}
    (h : (authorize env loaded operation target).run w = .ok (a, w')) :
    w'.state = w.state ∧ w.Advances w' := by
  refine ⟨?_, (authorize env loaded operation target).advances _ _ _ h⟩
  simp only [authorize, Tx.run_bind, Tx.run_world, Tx.run_demand] at h
  obtain ⟨_, _, ⟨rfl, rfl⟩, requirement, _, ⟨-, rfl⟩, h⟩ := h
  cases requirement with
  | none => rw [← (Tx.run_pure.mp h).2]
  | recent age =>
    simp only [requireRecent, Tx.run_bind, run_recentlyAuthenticated, Tx.run_require] at h
    obtain ⟨_, _, ⟨rfl, -⟩, -, rfl⟩ := h
    rfl
  | recentMfa age =>
    simp only [requireRecent, Tx.run_bind, run_recentlyAuthenticated, Tx.run_require] at h
    obtain ⟨_, _, ⟨rfl, -⟩, -, rfl⟩ := h
    rfl

/-- A requirement is met by a loaded session at an instant, in microseconds. -/
def ReauthenticationRequirement.MetBy (loaded : Loaded) (instant : ℤ) :
    ReauthenticationRequirement → Prop
  | none => True
  | recent age => ∃ t, loaded.assurance.authTime = some t ∧ t ≤ loaded.now ∧
      instant < (t + age) * 1000000
  | recentMfa age => loaded.assurance.acr = .mfa ∧ ∃ t, loaded.assurance.authTime = some t ∧
      t ≤ loaded.now ∧ instant < (t + age) * 1000000

theorem run_requireRecent {loaded : Loaded} {age : ℤ} {mfa : Bool} {a : Unit}
    (h : (requireRecent loaded age mfa).run w = .ok (a, w')) :
    w' = w.tick ∧ (mfa = true → loaded.assurance.acr = .mfa) ∧
      ∃ t, loaded.assurance.authTime = some t ∧ t ≤ loaded.now ∧
        w'.clock < (t + age) * 1000000 := by
  simp only [requireRecent, Tx.run_bind, run_recentlyAuthenticated, Tx.run_require] at h
  obtain ⟨recent, _, ⟨rfl, hrecent⟩, ⟨hok, hmfa⟩, rfl⟩ := h
  rw [hrecent, Option.any_eq_true] at hok
  obtain ⟨t, ht, hfresh⟩ := hok
  obtain ⟨hbefore, -, -, hinstant⟩ := of_decide_eq_true hfresh
  exact ⟨rfl, hmfa, t, ht, hbefore, by omega⟩

/-- Authorization asks the policy about the operation, with the assurance of the loaded session,
and judges its requirement at an instant after its answer. -/
theorem run_authorize_met {loaded : Loaded} {operation : ManagementOperation}
    {target : Option AccountKey} {a : Unit}
    (h : (authorize env loaded operation target).run w = .ok (a, w')) :
    ∃ requirement, env.policy
        { actor := loaded.state.key
          target
          operation
          assurance := loaded.assurance
          groups := loaded.groups
          departmentSnapshot := loaded.departmentSnapshot } w = some requirement ∧
      requirement.MetBy loaded w'.clock := by
  simp only [authorize, Tx.run_bind, Tx.run_world, Tx.run_demand] at h
  obtain ⟨_, _, ⟨rfl, rfl⟩, requirement, _, ⟨hpolicy, rfl⟩, h⟩ := h
  refine ⟨requirement, hpolicy, ?_⟩
  cases requirement with
  | none => trivial
  | recent age => exact (run_requireRecent h).2.2
  | recentMfa age =>
    obtain ⟨-, hmfa, hrecent⟩ := run_requireRecent h
    exact ⟨hmfa rfl, hrecent⟩

end IdentityAuthority
