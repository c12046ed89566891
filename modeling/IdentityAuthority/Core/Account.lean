import IdentityAuthority.Core.Values

/-!
# Account policy

The pure transitions of an account: every one of them burns an epoch, and a change of
the membership flag burns a membership epoch too. One tenant is modelled, so the key of
an account is its principal.
-/

namespace IdentityAuthority

/-- The key of an account inside the tenant. -/
abbrev AccountKey := PrincipalId

/-- Why the account policy refuses a transition. -/
inductive AccountRuleError
  | invalidState
  | rejected
  | insufficientPrivilege
  | reauthenticationRequired
  | alreadyExists
  | epochExhausted
deriving DecidableEq, Repr

/-- A validated snapshot of an account and its membership. -/
structure AccountState where
  key : AccountKey
  enabled : Bool
  memberActive : Bool
  epoch : ℤ
  hasLocalPassword : Bool
  membershipEpoch : ℤ
  epoch_pos : 1 ≤ epoch
  membershipEpoch_pos : 1 ≤ membershipEpoch
deriving DecidableEq

/-- What a local management operation changes. -/
inductive LocalChange
  | enabled (value : Bool)
  | membership (value : Bool)
  | password
deriving DecidableEq, Repr

/-- What a security event reports. -/
inductive SecurityAction
  | initialized
  | accountCreated
  | accountEnabled
  | accountDisabled
  | membershipEnabled
  | membershipDisabled
  | passwordChanged
  | passwordRecovered
deriving DecidableEq, Repr

namespace AccountState

/-- The snapshot of stored columns, if both generations are positive. -/
def restore (key : AccountKey) (enabled memberActive : Bool) (epoch : ℤ)
    (hasLocalPassword : Bool) (membershipEpoch : ℤ) : Except AccountRuleError AccountState :=
  if h : 1 ≤ epoch ∧ 1 ≤ membershipEpoch then
    .ok { key, enabled, memberActive, epoch, hasLocalPassword, membershipEpoch,
          epoch_pos := h.1, membershipEpoch_pos := h.2 }
  else .error .invalidState

/-- A new account with a local password. -/
def newLocal (key : AccountKey) : AccountState :=
  { key, enabled := true, memberActive := true, epoch := 1, hasLocalPassword := true,
    membershipEpoch := 1, epoch_pos := le_rfl, membershipEpoch_pos := le_rfl }

/-- A new account that authenticates upstream. -/
def newFederated (key : AccountKey) : AccountState :=
  { newLocal key with hasLocalPassword := false }

/-- The account may authenticate. -/
def active (state : AccountState) : Bool := state.enabled && state.memberActive

/-- The epoch after this one, if an `i64` holds it. -/
def nextEpoch (state : AccountState) : Except AccountRuleError AccountState :=
  if isI64 (state.epoch + 1) then
    .ok { state with epoch := state.epoch + 1, epoch_pos := by have := state.epoch_pos; omega }
  else .error .epochExhausted

/-- The membership flag at a value; a change of it burns a membership epoch. -/
def withMembership (state : AccountState) (value : Bool) : Except AccountRuleError AccountState :=
  if value ≠ state.memberActive then
    if isI64 (state.membershipEpoch + 1) then
      .ok { state with
        memberActive := value
        membershipEpoch := state.membershipEpoch + 1
        membershipEpoch_pos := by have := state.membershipEpoch_pos; omega }
    else .error .epochExhausted
  else .ok { state with memberActive := value }

/-- Invalidates all authentication, outstanding password candidates included. -/
def revokeSessions (state : AccountState) : Except AccountRuleError AccountState :=
  if state.active then state.nextEpoch else .error .rejected

/-- The account is still the one a password was verified for. -/
def matchesVerification (state expected : AccountState) : Bool :=
  state.active && decide (state.key = expected.key) && decide (state.epoch = expected.epoch) &&
    decide (state.hasLocalPassword = expected.hasLocalPassword) &&
    decide (state.membershipEpoch = expected.membershipEpoch)

/-- The account after a local management change, and the event that reports it. -/
def transition (state : AccountState) (change : LocalChange) :
    Except AccountRuleError (AccountState × SecurityAction) :=
  if change = .password ∧ state.hasLocalPassword = false then .error .rejected
  else do
    let next ← state.nextEpoch
    match change with
    | .enabled value =>
      pure ({ next with enabled := value },
        if value then .accountEnabled else .accountDisabled)
    | .membership value => do
      let next ← next.withMembership value
      pure (next, if value then .membershipEnabled else .membershipDisabled)
    | .password => pure (next, .passwordChanged)

/-- The account after a password recovery by the maintenance operator. -/
def recover (state : AccountState) : Except AccountRuleError (AccountState × SecurityAction) :=
  if state.hasLocalPassword = false then .error .rejected
  else do
    let next ← state.nextEpoch
    pure (next, .passwordRecovered)

/-- One account follows another: both generations went forward, the epoch by one, and the
membership generation moved whenever the membership flag did. -/
structure Succeeds (state next : AccountState) : Prop where
  key : next.key = state.key
  hasLocalPassword : next.hasLocalPassword = state.hasLocalPassword
  epoch : next.epoch = state.epoch + 1
  membershipEpoch : state.membershipEpoch ≤ next.membershipEpoch
  membership_flips :
    next.memberActive ≠ state.memberActive → next.membershipEpoch = state.membershipEpoch + 1

variable {state next : AccountState}

theorem nextEpoch_succeeds (h : state.nextEpoch = .ok next) : state.Succeeds next := by
  unfold nextEpoch at h
  split at h
  · cases h
    exact ⟨rfl, rfl, rfl, le_rfl, fun h => absurd rfl h⟩
  · cases h

theorem revokeSessions_succeeds (h : state.revokeSessions = .ok next) :
    state.active = true ∧ state.Succeeds next ∧ next.enabled = state.enabled ∧
      next.memberActive = state.memberActive ∧ next.membershipEpoch = state.membershipEpoch := by
  unfold revokeSessions at h
  split at h
  · refine ⟨by assumption, nextEpoch_succeeds h, ?_⟩
    unfold nextEpoch at h
    split at h <;> cases h
    exact ⟨rfl, rfl, rfl⟩
  · cases h

/-- Only the membership flag and its epoch move. -/
theorem withMembership_eq {value : Bool} (h : state.withMembership value = .ok next) :
    next.key = state.key ∧ next.hasLocalPassword = state.hasLocalPassword ∧
      next.epoch = state.epoch ∧ next.memberActive = value ∧
      state.membershipEpoch ≤ next.membershipEpoch ∧
      (next.memberActive ≠ state.memberActive →
        next.membershipEpoch = state.membershipEpoch + 1) := by
  unfold withMembership at h
  split at h
  · split at h
    · cases h
      exact ⟨rfl, rfl, rfl, rfl, by simp, fun _ => rfl⟩
    · cases h
  · rename_i hvalue
    cases h
    exact ⟨rfl, rfl, rfl, rfl, le_rfl, fun hne => absurd hne hvalue⟩

/-- Every management change is followed by an account with the next epoch. -/
theorem transition_succeeds {change : LocalChange} {action : SecurityAction}
    (h : state.transition change = .ok (next, action)) : state.Succeeds next := by
  unfold transition at h
  split at h
  · cases h
  · cases hnext : state.nextEpoch with
    | error e => simp [hnext, bind, Except.bind] at h
    | ok mid =>
      have hmid := nextEpoch_succeeds hnext
      cases change with
      | enabled value =>
        simp only [hnext, bind, Except.bind, pure, Except.pure] at h
        cases h
        exact ⟨hmid.key, hmid.hasLocalPassword, hmid.epoch, hmid.membershipEpoch,
          hmid.membership_flips⟩
      | membership value =>
        cases hlast : mid.withMembership value with
        | error e => simp [hnext, hlast, bind, Except.bind] at h
        | ok last =>
          simp only [hnext, hlast, bind, Except.bind, pure, Except.pure] at h
          cases h
          obtain ⟨hkey, hlocal, hepoch, -, hle, hflip⟩ := withMembership_eq hlast
          unfold nextEpoch at hnext
          split at hnext <;> cases hnext
          exact ⟨hkey, hlocal, hepoch, hle, hflip⟩
      | password =>
        simp only [hnext, bind, Except.bind, pure, Except.pure] at h
        cases h
        exact hmid

theorem recover_succeeds {action : SecurityAction} (h : state.recover = .ok (next, action)) :
    state.Succeeds next := by
  unfold recover at h
  split at h
  · cases h
  · cases hnext : state.nextEpoch with
    | error e => simp [hnext, bind, Except.bind] at h
    | ok mid =>
      simp only [hnext, bind, Except.bind, pure, Except.pure] at h
      cases h
      exact nextEpoch_succeeds hnext

end AccountState

end IdentityAuthority
