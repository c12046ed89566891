import IdentityAuthority.Storage.Profiles

/-!
# Session operations

Issuing a session for a verified password, using and refreshing it, and revoking one or all
sessions of an account.
-/

namespace IdentityAuthority

open Relational

/-- The session a login replaces, rechecked. -/
def recheckReplacement (env : Env) (replacement : Option AuthenticatedSession) :
    Action (Option SessionId) :=
  match replacement with
  | some proof => do
    let loaded ← recheck env proof
    pure (some loaded.view.id)
  | none => pure none

/-- Issues a session for a candidate that is still current (`create_session_for`). -/
def createSessionFor (env : Env) (candidate : AuthenticationCandidate)
    (replacement : Option AuthenticatedSession) (kind : CredentialKind) :
    Action IssuedSession := do
  Tx.require (∀ old ∈ replacement, old.key = candidate.state.key ∧
    old.view.credentialKind = kind) .rejected
  let state ← current env candidate
  let replaced ← recheckReplacement env replacement
  let now ← now
  let issued ← insertSession env state replaced (.localPassword candidate.authenticatedAt) now kind
  let observation ← localObservation candidate.state.key now
  accept env candidate.state.key issued.view.id issued.view.absoluteExpiresAt observation
  pure issued

/-- The proof of a loaded session. -/
def sessionProof (env : Env) (loaded : Loaded) (digest : Digest) : AuthenticatedSession where
  checks := env.platform
  key := loaded.state.key
  digest
  authority := env.instanceId
  view := loaded.view

/-- Authenticates a request by its credential; activity renews the idle expiry
(`session_proof`). -/
def authenticateSession (env : Env) (digest : Digest) (kind : CredentialKind) (activity : Bool) :
    Action AuthenticatedSession := do
  let loaded ← lookup env digest kind env.platform
  if activity then do
    let touched ← touch loaded
    pure (sessionProof env touched digest)
  else pure (sessionProof env loaded digest)

/-- Rotates the credential of a browser session (`refresh_session`). -/
def refreshSession (env : Env) (old : Secret) : Action IssuedSession := do
  let secret ← randomSecret env
  let loaded ← lookup env (env.sha256.secret old) .cookie env.platform
  let loaded ← touch loaded
  let _ ← Tx.updateIn Tables.sessionsUntracked
    (fun row => decide (row.session = loaded.view.id))
    (fun row => { row with tokenHash := env.sha256.secret secret }) .constraint
  pure { secret, view := loaded.view, now := loaded.now, state := loaded.state }

/-- Burns the epoch of an account, which ends all of its sessions. -/
def revokeAllOf (loaded : Loaded) : Action Unit := do
  let next ← Tx.ofExcept (ofRule loaded.state.revokeSessions)
  let _ ← Tx.updateIn Tables.accounts (fun row => decide (row.principal = loaded.state.key))
    (fun row => { row with authEpoch := next.epoch }) .constraint
  pure ()

/-- Revokes the actor's session, or all sessions of the actor (`revoke_session`). -/
def revokeSession (env : Env) (actor : AuthenticatedSession) (all : Bool) : Action Unit := do
  let loaded ← recheck env actor
  if all then revokeAllOf loaded
  else close actor.view.id loaded.now

end IdentityAuthority
