import IdentityAuthority.Storage.Environment

/-!
# Accounts in storage

An account is one row of `accounts`, one of `memberships` and at most one local credential.
All of them are read and written under the tenant's guard, so a transaction sees and leaves
them together.
-/

namespace IdentityAuthority

open Relational

/-- An account as storage holds it. -/
structure Stored where
  state : AccountState
  hash : Option String

/-- A password verification that may still become a session. -/
structure AuthenticationCandidate where
  state : AccountState
  authority : Uuid
  authenticatedAt : ℤ
deriving DecidableEq

/-- Loads an account (`load`); maintenance reads it the same way. -/
def load (key : AccountKey) : Action Stored := do
  let account ← Tx.find Tables.accounts key
  let account ← Tx.demand account .rejected
  let membership ← Tx.find Tables.memberships key
  let membership ← Tx.demand membership .rejected
  let credential ← Tx.find Tables.localCredentials key
  let state ← Tx.demand
    (AccountState.restore key account.enabled membership.active account.authEpoch
      credential.isSome membership.epoch).toOption .corrupt
  Tx.require (∀ c ∈ credential, c.passwordHash.utf8ByteSize ≤ 256) .corrupt
  pure { state, hash := credential.map LocalCredentialRow.passwordHash }

/-- The account a candidate was verified for, if nothing has changed since. -/
def current (env : Env) (candidate : AuthenticationCandidate) : Action AccountState := do
  Tx.require (candidate.authority = env.instanceId) .rejected
  let stored ← load candidate.state.key
  Tx.require (stored.state.matchesVerification candidate.state = true) .rejected
  pure stored.state

/-- Inserts an account with a local credential; a login in use is reported as such. -/
def insertAccount (key : AccountKey) (login hash : String) : Action Unit := do
  Tx.insertInto Tables.accounts { principal := key, enabled := true, authEpoch := 1 } .constraint
  let taken ← Tx.exists? Tables.localCredentials fun row => decide (row.loginKey = login)
  Tx.require (taken = false) (.rule .alreadyExists)
  Tx.insertInto Tables.localCredentials
    { principal := key, loginKey := login, passwordHash := hash } .constraint
  Tx.insertInto Tables.memberships { principal := key, active := true, epoch := 1 } .constraint

/-- Inserts an account that authenticates upstream. -/
def insertFederatedAccount (key : AccountKey) : Action Unit := do
  let state := AccountState.newFederated key
  Tx.insertInto Tables.accounts
    { principal := key, enabled := state.enabled, authEpoch := state.epoch } .constraint
  Tx.insertInto Tables.memberships
    { principal := key, active := state.memberActive, epoch := state.membershipEpoch } .constraint

/-- The account rows of a principal make up a state. -/
structure Db.Holds (db : Db) (state : AccountState) : Prop where
  account : db.accounts.find? state.key = some ⟨state.key, state.enabled, state.epoch⟩
  membership :
    db.memberships.find? state.key = some ⟨state.key, state.memberActive, state.membershipEpoch⟩
  hasLocalPassword : state.hasLocalPassword = (db.localCredentials.find? state.key).isSome

variable {w w' : Tenant}

/-- Loading reads the state that the rows of the account hold. -/
theorem run_load {key : AccountKey} {stored : Stored}
    (h : (load key).run w = .ok (stored, w')) :
    w' = w ∧ stored.state.key = key ∧ w.state.Holds stored.state := by
  simp only [load, Tx.run_bind, Tx.run_find, Tx.run_demand, Tx.run_require, Tx.run_pure] at h
  obtain ⟨_, _, ⟨rfl, rfl⟩, account, _, ⟨haccount, rfl⟩, _, _, ⟨rfl, rfl⟩, membership, _,
    ⟨hmembership, rfl⟩, credential, _, ⟨rfl, rfl⟩, state, _, ⟨hstate, rfl⟩, -, _, ⟨-, rfl⟩,
    rfl, rfl⟩ := h
  obtain ⟨principal, enabled, authEpoch⟩ := account
  obtain ⟨principal', active, epoch⟩ := membership
  obtain rfl : principal = key := Table.key_of_find? haccount
  obtain rfl : principal' = principal := Table.key_of_find? hmembership
  unfold AccountState.restore at hstate
  split at hstate
  · simp only [Except.toOption, Option.some.injEq] at hstate
    subst hstate
    exact ⟨rfl, rfl, haccount, hmembership, rfl⟩
  · simp [Except.toOption] at hstate

/-- A candidate is current only for the active account state it was verified for. -/
theorem run_current {env : Env} {candidate : AuthenticationCandidate} {state : AccountState}
    (h : (current env candidate).run w = .ok (state, w')) :
    w' = w ∧ w.state.Holds state ∧ state.matchesVerification candidate.state = true ∧
      candidate.authority = env.instanceId := by
  simp only [current, Tx.run_bind, Tx.run_require, Tx.run_pure] at h
  obtain ⟨-, _, ⟨hauthority, rfl⟩, stored, w₁, hload, -, _, ⟨hmatches, rfl⟩, rfl, rfl⟩ := h
  obtain ⟨rfl, -, hholds⟩ := run_load hload
  exact ⟨rfl, hholds, hmatches, hauthority⟩

end IdentityAuthority
