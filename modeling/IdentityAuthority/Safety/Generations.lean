import IdentityAuthority.Safety.Management

/-!
# Account generations

The two counters of an account. Every step that succeeds burns an epoch, so no state of an account
comes back, and a password verified before a step is never taken for the account after it, whatever
its flags are by then.
-/

namespace IdentityAuthority

open Relational Transition

/-- A step of the account policy. -/
inductive AccountStep
  | change (change : LocalChange)
  | recover
  | revokeSessions
deriving DecidableEq, Repr

namespace AccountStep

/-- The value that a step requests for the enabled flag. -/
def enabled : AccountStep → Option Bool
  | change (.enabled value) => some value
  | _ => none

/-- The value that a step requests for the membership flag. -/
def memberActive : AccountStep → Option Bool
  | change (.membership value) => some value
  | _ => none

/-- The step sets a local password. -/
def needsPassword (step : AccountStep) : Bool :=
  decide (step = change .password ∨ step = recover)

end AccountStep

namespace AccountState

/-- The account after a step, if the policy takes it. -/
def apply (state : AccountState) : AccountStep → Except AccountRuleError AccountState
  | .change change => (state.transition change).map Prod.fst
  | .recover => state.recover.map Prod.fst
  | .revokeSessions => state.revokeSessions

/-- The account after a sequence of steps; a step that fails returns no state, and the account stays
what it was. -/
def afterSteps (state : AccountState) : List AccountStep → AccountState
  | [] => state
  | step :: rest =>
    match state.apply step with
    | .ok next => next.afterSteps rest
    | .error _ => state.afterSteps rest

/-- How many of a sequence of steps succeed. -/
def successes (state : AccountState) : List AccountStep → ℕ
  | [] => 0
  | step :: rest =>
    match state.apply step with
    | .ok next => next.successes rest + 1
    | .error _ => state.successes rest

/-- What a step that succeeds makes of an account. -/
structure Moves (state : AccountState) (step : AccountStep) (next : AccountState) : Prop where
  key : next.key = state.key
  hasLocalPassword : next.hasLocalPassword = state.hasLocalPassword
  epoch : next.epoch = state.epoch + 1
  membershipEpoch : next.membershipEpoch =
    state.membershipEpoch + if next.memberActive = state.memberActive then 0 else 1
  enabled : next.enabled = step.enabled.getD state.enabled
  memberActive : next.memberActive = step.memberActive.getD state.memberActive

/-- The policy does not admit a step: it sets a password where there is none, or revokes the sessions
of an inactive account. -/
def Denies (state : AccountState) (step : AccountStep) : Prop :=
  step.needsPassword = true ∧ state.hasLocalPassword = false ∨
    step = .revokeSessions ∧ state.active = false

/-- A counter that a step has to move is at its end. -/
def Exhausted (state : AccountState) (step : AccountStep) : Prop :=
  isI64 (state.epoch + 1) = false ∨
    (∃ value ∈ step.memberActive, value ≠ state.memberActive) ∧
      isI64 (state.membershipEpoch + 1) = false

/-- Why a step fails. -/
inductive Fails (state : AccountState) (step : AccountStep) : AccountRuleError → Prop
  | denied : state.Denies step → Fails state step .rejected
  | exhausted : ¬ state.Denies step → state.Exhausted step → Fails state step .epochExhausted

variable {state next : AccountState} {step : AccountStep}

/-- A step that the policy does not admit fails. -/
theorem apply_denied (h : state.Denies step) : state.apply step = .error .rejected := by
  rcases h with ⟨hneeds, hnone⟩ | ⟨rfl, hinactive⟩
  · rcases of_decide_eq_true hneeds with rfl | rfl
    · simp [apply, transition, hnone, Except.map]
    · simp [apply, recover, hnone, Except.map]
  · simp [apply, revokeSessions, hinactive]

theorem nextEpoch_exhausted (h : isI64 (state.epoch + 1) = false) :
    state.nextEpoch = .error .epochExhausted := by
  simp [nextEpoch, h]

theorem nextEpoch_moves (h : isI64 (state.epoch + 1) = true) :
    ∃ next, state.nextEpoch = .ok next ∧ next.epoch = state.epoch + 1 ∧ next.key = state.key ∧
      next.hasLocalPassword = state.hasLocalPassword ∧ next.enabled = state.enabled ∧
      next.memberActive = state.memberActive ∧ next.membershipEpoch = state.membershipEpoch := by
  simp [nextEpoch, h]

/-- A step that the policy admits is refused where a counter it has to move is at its end. -/
theorem apply_exhausted (hadmitted : ¬ state.Denies step) (h : state.Exhausted step) :
    state.apply step = .error .epochExhausted := by
  by_cases hepoch : isI64 (state.epoch + 1) = true
  · have hmembership := h.resolve_left (by simp [hepoch])
    obtain ⟨⟨value, hvalue, hflips⟩, hfull⟩ := hmembership
    obtain ⟨mid, hmid, -, -, -, -, hactive, hcount⟩ := nextEpoch_moves hepoch
    have hlast : mid.withMembership value = .error .epochExhausted := by
      simp [withMembership, hactive, hcount, hflips, hfull]
    rcases step with (_ | value' | _) | _ | _
    · cases hvalue
    · obtain rfl : value' = value := Option.some_injective _ hvalue
      simp [apply, transition, hmid, hlast, bind, Except.bind, Except.map]
    · cases hvalue
    · cases hvalue
    · cases hvalue
  · have hnext := nextEpoch_exhausted (Bool.not_eq_true _ ▸ hepoch)
    rcases step with change | _ | _
    · have hadmits : ¬ (change = .password ∧ state.hasLocalPassword = false) := by
        rintro ⟨rfl, hnone⟩
        exact hadmitted (.inl ⟨rfl, hnone⟩)
      simp [apply, transition, hadmits, hnext, bind, Except.bind, Except.map]
    · have hadmits : state.hasLocalPassword ≠ false := fun hnone => hadmitted (.inl ⟨rfl, hnone⟩)
      simp [apply, recover, hadmits, hnext, bind, Except.bind, Except.map]
    · have hactive : state.active ≠ false := fun h => hadmitted (.inr ⟨rfl, h⟩)
      simp [apply, revokeSessions, hactive, hnext]

/-- Every other step succeeds, and moves the account. -/
theorem apply_moves (hadmitted : ¬ state.Denies step) (hroom : ¬ state.Exhausted step) :
    ∃ next, state.apply step = .ok next ∧ state.Moves step next := by
  obtain ⟨hepoch, hmembership⟩ := not_or.mp hroom
  rw [Bool.not_eq_false] at hepoch
  obtain ⟨mid, hmid, hmidEpoch, hkey, hlocal, henabled, hactive, hcount⟩ := nextEpoch_moves hepoch
  rcases step with (value | value | _) | _ | _
  · refine ⟨{ mid with enabled := value }, ?_, hkey, hlocal, hmidEpoch, ?_, rfl, hactive⟩
    · simp [apply, transition, hmid, bind, Except.bind, pure, Except.pure, Except.map]
    · simp [hcount, hactive]
  · by_cases hflips : value = state.memberActive
    · refine ⟨{ mid with memberActive := value }, ?_, hkey, hlocal, hmidEpoch, ?_, henabled, rfl⟩
      · simp [apply, transition, hmid, withMembership, hactive, hflips, bind, Except.bind, pure,
          Except.pure, Except.map]
      · simp [hcount, hflips]
    · have hroom' : isI64 (mid.membershipEpoch + 1) = true := by
        rw [hcount, ← Bool.not_eq_false]
        exact fun hfull => hmembership ⟨⟨value, rfl, hflips⟩, hfull⟩
      refine ⟨{ mid with
        memberActive := value
        membershipEpoch := mid.membershipEpoch + 1
        membershipEpoch_pos := by have := mid.membershipEpoch_pos; omega }, ?_, hkey, hlocal,
        hmidEpoch, ?_, henabled, rfl⟩
      · simp [apply, transition, hmid, withMembership, hactive, hflips, hroom', bind, Except.bind,
          pure, Except.pure, Except.map]
      · simp [hcount, hflips]
  · have hadmits : state.hasLocalPassword ≠ false := fun hnone => hadmitted (.inl ⟨rfl, hnone⟩)
    refine ⟨mid, ?_, hkey, hlocal, hmidEpoch, by simp [hcount, hactive], henabled, hactive⟩
    simp [apply, transition, hadmits, hmid, bind, Except.bind, pure, Except.pure, Except.map]
  · have hadmits : state.hasLocalPassword ≠ false := fun hnone => hadmitted (.inl ⟨rfl, hnone⟩)
    refine ⟨mid, ?_, hkey, hlocal, hmidEpoch, by simp [hcount, hactive], henabled, hactive⟩
    simp [apply, recover, hadmits, hmid, bind, Except.bind, pure, Except.pure, Except.map]
  · have hadmits : state.active ≠ false := fun h => hadmitted (.inr ⟨rfl, h⟩)
    refine ⟨mid, ?_, hkey, hlocal, hmidEpoch, by simp [hcount, hactive], henabled, hactive⟩
    simp [apply, revokeSessions, hadmits, hmid]

/-- A step that succeeds moves the account. -/
theorem moves_of_apply (h : state.apply step = .ok next) : state.Moves step next := by
  by_cases hdenied : state.Denies step
  · rw [apply_denied hdenied] at h
    cases h
  · by_cases hfull : state.Exhausted step
    · rw [apply_exhausted hdenied hfull] at h
      cases h
    · obtain ⟨next', hnext, hmoves⟩ := apply_moves hdenied hfull
      obtain rfl : next' = next := Except.ok.inj (hnext.symm.trans h)
      exact hmoves

/-- Exactly the steps that are denied or find a counter at its end fail, each for its reason. -/
theorem apply_eq_error {e : AccountRuleError} :
    state.apply step = .error e ↔ state.Fails step e := by
  constructor
  · intro h
    by_cases hdenied : state.Denies step
    · rw [apply_denied hdenied] at h
      cases h
      exact .denied hdenied
    · by_cases hfull : state.Exhausted step
      · rw [apply_exhausted hdenied hfull] at h
        cases h
        exact .exhausted hdenied hfull
      · obtain ⟨next', hnext, -⟩ := apply_moves hdenied hfull
        rw [hnext] at h
        cases h
  · rintro (hdenied | ⟨hadmitted, hfull⟩)
    · exact apply_denied hdenied
    · exact apply_exhausted hadmitted hfull

/-- The epoch counts the steps that succeeded. -/
theorem epoch_afterSteps (state : AccountState) (steps : List AccountStep) :
    (state.afterSteps steps).epoch = state.epoch + state.successes steps := by
  induction steps generalizing state with
  | nil => simp [afterSteps, successes]
  | cons step rest ih =>
    cases h : state.apply step with
    | error e =>
      simp only [afterSteps, successes, h]
      exact ih state
    | ok next =>
      have hepoch := (moves_of_apply h).epoch
      simp only [afterSteps, successes, h]
      rw [ih next, hepoch]
      push_cast
      omega

/-- Without a success an account stays as it is. -/
theorem afterSteps_of_none {steps : List AccountStep} (h : state.successes steps = 0) :
    state.afterSteps steps = state := by
  induction steps with
  | nil => rfl
  | cons step rest ih =>
    cases happly : state.apply step with
    | error e =>
      simp only [successes, happly] at h
      simp only [afterSteps, happly]
      exact ih h
    | ok next =>
      simp only [successes, happly] at h
      omega

/-- A sequence of steps is taken one part after the other. -/
theorem afterSteps_append (state : AccountState) (steps later : List AccountStep) :
    state.afterSteps (steps ++ later) = (state.afterSteps steps).afterSteps later := by
  induction steps generalizing state with
  | nil => rfl
  | cons step rest ih =>
    cases h : state.apply step with
    | error e =>
      simp only [List.cons_append, afterSteps, h]
      exact ih state
    | ok next =>
      simp only [List.cons_append, afterSteps, h]
      exact ih next

/-- An account of another epoch is not the one a password was verified for. -/
theorem not_matches_of_epoch {expected : AccountState} (h : state.epoch ≠ expected.epoch) :
    state.matchesVerification expected = false := by
  simp [matchesVerification, h]

end AccountState

/-- The transactions that take a step of an account: those of management, of recovery, and the one
that ends all sessions. -/
inductive Commit.Takes {env : Env} : Commit env → AccountKey → AccountStep → Prop
  | change {actor : AuthenticatedSession} {target : AccountKey} {change : AccountChange}
      {proof : Option AuthenticationCandidate} {result : AccountState} :
      Takes (.applyAccountChange actor target change proof result) target (.change change.localChange)
  | recover {key : AccountKey} {hash : String} {result : AccountState} :
      Takes (.recoverLocalPassword key hash result) key .recover
  | revoke {actor : AuthenticatedSession} :
      Takes (.revokeSession actor true) actor.key .revokeSessions

section Stored

variable {env : Env} {w w' : Tenant} {commit : Commit env} {key : AccountKey} {step : AccountStep}

/-- A committed step replaces the account that is stored by the one the policy returned. -/
theorem stores_of_takes (htakes : commit.Takes key step) (h : commit.Runs w w') :
    ∃ old next, old.key = key ∧ w.state.Holds old ∧ old.apply step = .ok next ∧
      w'.state.Holds next := by
  cases htakes with
  | change =>
    obtain ⟨old, next, action, hkey, hholds, htransition, hnext⟩ :=
      (applyAccountChange_changes h).2.transition
    refine ⟨old, next, hkey, hholds, ?_, hnext⟩
    simp [AccountState.apply, htransition, Except.map]
  | @recover key hash result =>
    change (recoverLocalPassword env key hash).run w = .ok (result, w') at h
    simp only [recoverLocalPassword, Tx.run_bind, Tx.run_ofExcept, Tx.run_pure] at h
    obtain ⟨old, _, hload, ⟨next, action⟩, _, ⟨hnext, rfl⟩, n, w₁, haccount, _, w₂, hpassword, -,
      rfl⟩ := h
    obtain ⟨rfl, rfl, hholds⟩ := run_load hload
    have hrecover := ofRule_eq_ok.mp hnext
    have hsucceeds := AccountState.recover_succeeds hrecover
    have happly : old.state.apply .recover = .ok next := by
      simp [AccountState.apply, hrecover, Except.map]
    have hmoves := AccountState.moves_of_apply happly
    obtain ⟨-, hmembers, hcredentials, hfound⟩ : Effects env [.accounts] w₁ _ _ ∧ _ :=
      updateAccounts_effects (by simp) hholds hsucceeds haccount fun r => ⟨rfl, rfl⟩
    have happlied : (applyPassword env old.state.key (.password hash)).run w₁ = .ok (_, w₂) := hpassword
    obtain ⟨-, haccounts', hmembers', hhas, -, -⟩ := run_applyPassword happlied
    refine ⟨old.state, next, rfl, hholds, happly, ⟨?_, ?_, ?_⟩⟩
    · rw [haccounts', hmoves.key, hfound, hmoves.enabled]
      rfl
    · rw [hmembers', hmembers, hmoves.key, hholds.membership, hmoves.membershipEpoch,
        hmoves.memberActive]
      simp [AccountStep.memberActive]
    · rw [hmoves.key, hhas, hcredentials, hmoves.hasLocalPassword]
      exact hholds.hasLocalPassword
  | @revoke actor =>
    change (revokeSession env actor true).run w = .ok ((), w') at h
    simp only [revokeSession, if_true, revokeAllOf, Tx.run_bind, Tx.run_ofExcept, Tx.run_pure] at h
    obtain ⟨loaded, _, hrecheck, next, _, ⟨hnext, rfl⟩, n, w₁, hupdate, -, rfl⟩ := h
    obtain ⟨rfl, hkey, -, row, hof, -⟩ := run_recheck hrecheck
    have happly : loaded.state.apply .revokeSessions = .ok next := ofRule_eq_ok.mp hnext
    have hsucceeds := (AccountState.revokeSessions_succeeds happly).2.1
    have hmoves := AccountState.moves_of_apply happly
    obtain ⟨-, hmembers, hcredentials, hfound⟩ : Effects env [.accounts] w w.tick _ ∧ _ :=
      updateAccounts_effects (by simp) hof.holds hsucceeds hupdate fun r => ⟨rfl, rfl⟩
    refine ⟨loaded.state, next, hkey, hof.holds, happly, ⟨?_, ?_, ?_⟩⟩
    · rw [hmoves.key, hfound, hmoves.enabled]
      rfl
    · rw [hmembers, hmoves.key, World.tick_state, hof.holds.membership, hmoves.membershipEpoch,
        hmoves.memberActive]
      simp [AccountStep.memberActive]
    · rw [hmoves.key, hcredentials, hmoves.hasLocalPassword]
      exact hof.holds.hasLocalPassword

variable {s s' : System env} {trace : List (Event (System env) (Label env))}

/-- The stored epoch of an account only goes forward. -/
theorem epoch_le_of_run {state state' : AccountState} (hrun : Run (Step env) s trace s')
    (hkey : state'.key = state.key) (hholds : s.world.state.Holds state)
    (hholds' : s'.world.state.Holds state') : state.epoch ≤ state'.epoch := by
  obtain ⟨row, hrow, hlater⟩ := (follows_of_run hrun).accounts _ _ hholds.account
  have hfound := hholds'.account
  rw [hkey] at hfound
  obtain rfl := Option.some_injective _ (hrow.symm.trans hfound)
  rcases hlater with hsame | hburnt
  · exact le_of_eq (congrArg AccountRow.authEpoch hsame).symm
  · exact le_of_lt hburnt

/-- After a committed step of an account, a password verified before it is not current. -/
theorem not_current_of_taken {candidate : AuthenticationCandidate} {state : AccountState}
    {w' : Tenant} (hrun : Run (Step env) s trace s')
    (hholds : s.world.state.Holds candidate.state)
    (htaken : ∃ e ∈ trace, ∃ commit step, e.label = .commit commit ∧
      commit.Takes candidate.state.key step) :
    (current env candidate).run s'.world ≠ .ok (state, w') := by
  intro h
  obtain ⟨rfl, hlast, hmatches, -⟩ := run_current h
  obtain ⟨e, he, commit, step, hlabel, htakes⟩ := htaken
  obtain ⟨earlier, later, rfl⟩ := List.append_of_mem he
  obtain ⟨hbefore, hstep, hafter⟩ := hrun.split
  have hmatched : state.key = candidate.state.key ∧ state.epoch = candidate.state.epoch := by
    simp only [AccountState.matchesVerification, Bool.and_eq_true, decide_eq_true_eq] at hmatches
    exact ⟨hmatches.1.1.1.2, hmatches.1.1.2⟩
  rw [hlabel] at hstep
  generalize hend : e.after = after at hstep hafter
  cases hstep with
  | commit _ hruns =>
    obtain ⟨old, next, hkey, hold, happly, hnext⟩ := stores_of_takes htakes hruns
    have hmoves := AccountState.moves_of_apply happly
    have hfirst := epoch_le_of_run hbefore hkey hholds hold
    have hsecond := epoch_le_of_run hafter
      (hmatched.1.trans (hkey.symm.trans hmoves.key.symm)) hnext hlast
    have hone := hmoves.epoch
    omega

end Stored

/-- What the two counters of accounts are for. -/
structure Generations (env : Env) : Prop where
  /-- A step that succeeds moves the epoch by one, the membership epoch with the membership flag, and
  the flags as it was asked to. -/
  success : ∀ (state : AccountState) step next, state.apply step = .ok next → state.Moves step next
  /-- A step fails exactly where it is denied or finds a counter at its end. -/
  failure : ∀ (state : AccountState) step e, state.apply step = .error e ↔ state.Fails step e
  /-- Two states of one run that agree on both counters are one state. -/
  distinct : ∀ (state : AccountState) steps later,
    (state.afterSteps (steps ++ later)).epoch = (state.afterSteps steps).epoch →
    (state.afterSteps (steps ++ later)).membershipEpoch =
      (state.afterSteps steps).membershipEpoch →
    state.afterSteps (steps ++ later) = state.afterSteps steps
  /-- A state after a success is not one that a snapshot from before it verifies. -/
  stale : ∀ (state : AccountState) steps later, 0 < (state.afterSteps steps).successes later →
    (state.afterSteps (steps ++ later)).matchesVerification (state.afterSteps steps) = false
  /-- A transaction that takes a step stores what the policy made of what was stored. -/
  stored : ∀ (commit : Commit env) key step w w', commit.Takes key step → commit.Runs w w' →
    ∃ old next, old.key = key ∧ w.state.Holds old ∧ old.apply step = .ok next ∧ w'.state.Holds next
  /-- In no run is a candidate or proof current after a step that was committed since it was
  verified. -/
  fenced : ∀ (s s' : System env) trace candidate, Run (Step env) s trace s' →
    s.world.state.Holds candidate.state →
    (∃ e ∈ trace, ∃ commit step, e.label = .commit commit ∧
      commit.Takes candidate.state.key step) →
    ∀ state w', (current env candidate).run s'.world ≠ .ok (state, w')

/-- The generations of accounts never come back. -/
theorem generations (env : Env) : Generations env where
  success _ _ _ := AccountState.moves_of_apply
  failure _ _ _ := AccountState.apply_eq_error
  distinct state steps later hepoch _ := by
    rw [AccountState.afterSteps_append] at hepoch ⊢
    have hcounted := (state.afterSteps steps).epoch_afterSteps later
    exact AccountState.afterSteps_of_none (by omega)
  stale state steps later hsome := by
    rw [AccountState.afterSteps_append]
    have hcounted := (state.afterSteps steps).epoch_afterSteps later
    exact AccountState.not_matches_of_epoch (by omega)
  stored _ _ _ _ _ := stores_of_takes
  fenced _ _ _ _ hrun hholds htaken _ _ := not_current_of_taken hrun hholds htaken

end IdentityAuthority
