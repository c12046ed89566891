import IdentityAuthority.Storage.Sessions

/-!
# One-use operation proofs

A step-up grant is bound to the live session it was issued to, to one operation and to the
authentication it was made by. Its consumption shares the transaction of the host's effect.
-/

namespace IdentityAuthority

open Relational

/-- A handle just issued; without the session it was issued to it proves nothing. -/
structure StepUpGrant where
  secret : Secret
  expiresAt : ℤ

/-- When a grant ends: five minutes after the authentication, or with the session. -/
def grantExpiry (loaded : Loaded) (authenticatedAt : ℤ) : ℤ :=
  min (min (authenticatedAt + 300) loaded.view.idleExpiresAt) loaded.view.absoluteExpiresAt

/-- The row of a grant to issue. -/
def grantRow (loaded : Loaded) (context : StepUpContext) (source : GrantSource)
    (authenticatedAt : ℤ) (tokenHash : Digest) : StepUpGrantRow where
  tokenHash
  principal := loaded.state.key
  session := loaded.view.id
  authEpoch := loaded.state.epoch
  membershipEpoch := loaded.state.membershipEpoch
  context
  source
  authenticatedAt
  expiresAt := grantExpiry loaded authenticatedAt

/-- Removes the grants of an account that are over, and up to 128 of the tenant. -/
def removeExpiredGrants (key : AccountKey) (now : ℤ) : Action Unit := do
  let _ ← Tx.deleteFrom Tables.stepUpGrants
    (fun row => decide (row.principal = key ∧ row.expiresAt ≤ now)) .constraint
  let past ← Tx.select Tables.stepUpGrants fun row => decide (row.expiresAt ≤ now)
  let past := ((past.insertionSort fun r s => r.expiresAt ≤ s.expiresAt).take 128).map
    StepUpGrantRow.tokenHash
  let _ ← Tx.deleteFrom Tables.stepUpGrants (fun row => past.contains row.tokenHash) .constraint
  pure ()

/-- Issues a grant to a loaded session for a fresh authentication (`issue`). -/
def issueGrant (env : Env) (loaded : Loaded) (context : StepUpContext) (source : GrantSource)
    (authenticatedAt : ℤ) : Action StepUpGrant := do
  let now ← now
  Tx.require (0 < authenticatedAt ∧ authenticatedAt ≤ now ∧ now - authenticatedAt < 300) .rejected
  Tx.require (now < grantExpiry loaded authenticatedAt) .rejected
  removeExpiredGrants loaded.state.key now
  let held ← Tx.select Tables.stepUpGrants fun row => decide (row.principal = loaded.state.key)
  Tx.require (held.length < 32) .rejected
  let secret ← randomSecret env
  Tx.insertInto Tables.stepUpGrants
    (grantRow loaded context source authenticatedAt (env.sha256.secret secret)) .constraint
  pure { secret, expiresAt := grantExpiry loaded authenticatedAt }

/-- The tables back the authentication that a grant was made by. -/
def Db.BacksGrant (db : Db) (key : AccountKey) : GrantSource → Prop
  | .oidc identity provider version epoch =>
    ∃ i ∈ db.externalIdentities.find? identity, i.principal = key ∧ i.provider = provider ∧
      ∃ p ∈ db.providers.find? provider, p.enabled = true ∧ p.configVersion = version ∧
        p.revocationEpoch = epoch
  | .webauthn credential epoch rp configuration =>
    ∃ c ∈ db.webauthnCredentials.find? credential, c.principal = key ∧ c.epoch = epoch ∧
      c.rp = rp ∧ c.revoked = false ∧
      ∃ r ∈ db.webauthnRp.find? rp, r.fingerprint = c.rpConfig ∧ r.generation = configuration

instance (db : Db) (key : AccountKey) (source : GrantSource) :
    Decidable (db.BacksGrant key source) := by
  unfold Db.BacksGrant
  cases source <;> infer_instance

/-- The authentication a grant was made by is still good (`validate_source`). -/
def validateSource (key : AccountKey) (source : GrantSource) : Action Unit := do
  let valid ← Tx.query fun db => decide (db.BacksGrant key source)
  Tx.require (valid = true) .rejected

/-- What consuming a grant gives inside the transaction that consumes it. -/
structure ConsumedStepUp where
  authenticatedAt : ℤ
  source : GrantSource
deriving DecidableEq

/-- A grant answers a request of a live session for an operation, at a time. -/
structure StepUpGrantRow.Answers (row : StepUpGrantRow) (actor : AuthenticatedSession)
    (loaded : Loaded) (expected : StepUpContext) (now : ℤ) : Prop where
  context : row.context = expected
  principal : row.principal = actor.key
  session : row.session = loaded.view.id
  authEpoch : row.authEpoch = loaded.state.epoch
  membershipEpoch : row.membershipEpoch = loaded.state.membershipEpoch
  unexpired : now < row.expiresAt
  started : row.authenticatedAt ≤ now

instance (row : StepUpGrantRow) (actor : AuthenticatedSession) (loaded : Loaded)
    (expected : StepUpContext) (now : ℤ) : Decidable (row.Answers actor loaded expected now) :=
  decidable_of_iff (row.context = expected ∧ row.principal = actor.key ∧
      row.session = loaded.view.id ∧ row.authEpoch = loaded.state.epoch ∧
      row.membershipEpoch = loaded.state.membershipEpoch ∧ now < row.expiresAt ∧
      row.authenticatedAt ≤ now)
    ⟨fun ⟨h1, h2, h3, h4, h5, h6, h7⟩ => ⟨h1, h2, h3, h4, h5, h6, h7⟩,
     fun h => ⟨h.1, h.2, h.3, h.4, h.5, h.6, h.7⟩⟩

/-- Consumes a grant inside a transaction that its caller commits (`consume_step_up_on`). -/
def consumeStepUpOn (env : Env) (actor : AuthenticatedSession) (expected : StepUpContext)
    (handle : Secret) : Action ConsumedStepUp := do
  let loaded ← recheck env actor
  let row ← Tx.find Tables.stepUpGrants (env.sha256.secret handle)
  let row ← Tx.demand row .rejected
  let instant ← now
  Tx.require (row.Answers actor loaded expected instant) .rejected
  validateSource actor.key row.source
  let _ ← recheck env actor
  let instant ← now
  Tx.require (instant < row.expiresAt) .rejected
  let _ ← Tx.deleteFrom Tables.stepUpGrants
    (fun row => decide (row.tokenHash = env.sha256.secret handle)) .constraint
  pure { authenticatedAt := row.authenticatedAt, source := row.source }

/-- Cancels a grant of the actor's own session (`cancel_step_up`). -/
def cancelStepUp (env : Env) (actor : AuthenticatedSession) (handle : Secret) : Action Unit := do
  let _ ← recheck env actor
  let _ ← Tx.deleteFrom Tables.stepUpGrants
    (fun row => decide (row.principal = actor.key ∧ row.session = actor.view.id ∧
      row.tokenHash = env.sha256.secret handle)) .constraint
  pure ()

/-- Issuing a grant stores it, for an authentication that is fresh and before its end. -/
theorem run_issueGrant {env : Env} {loaded : Loaded} {context : StepUpContext} {source : GrantSource}
    {authenticatedAt : ℤ} {grant : StepUpGrant} {w w' : Tenant}
    (h : (issueGrant env loaded context source authenticatedAt).run w = .ok (grant, w')) :
    0 < authenticatedAt ∧ authenticatedAt ≤ seconds w.tick.clock ∧
      seconds w.tick.clock - authenticatedAt < 300 ∧
      seconds w.tick.clock < grantExpiry loaded authenticatedAt ∧
      w'.state.stepUpGrants.find? (env.sha256.secret grant.secret) =
        some (grantRow loaded context source authenticatedAt (env.sha256.secret grant.secret)) := by
  simp only [issueGrant, Tx.run_bind, Tx.run_require, run_now, run_randomSecret, Tx.run_select,
    Tx.run_insertInto, Tx.run_pure, Tables.stepUpGrants_put, Option.some.injEq] at h
  obtain ⟨_, _, ⟨rfl, rfl⟩, -, _, ⟨⟨hpos, hstarted, hfresh⟩, rfl⟩, -, _, ⟨hexpiry, rfl⟩, _, w₁, -, _, _,
    ⟨-, rfl⟩, -, _, ⟨-, rfl⟩, secret, _, ⟨-, rfl⟩, _, _, ⟨t, _, ht, rfl, rfl⟩, rfl, rfl⟩ := h
  exact ⟨hpos, hstarted, hfresh, hexpiry, (Table.find?_insert ht _).trans (if_pos rfl)⟩

end IdentityAuthority
