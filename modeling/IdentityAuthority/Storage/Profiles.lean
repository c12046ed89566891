import IdentityAuthority.Storage.Sessions

/-!
# Profiles in storage

An authentication observes a profile once: the observation replaces an older one of the same
source, and the new session keeps a locator of the snapshot it was issued with.
-/

namespace IdentityAuthority

open Relational

/-- What an authentication observed, before it is bounded by the deployment. -/
structure Observation where
  source : ProfileSource
  profile : Profile
  sourceTime : ℤ
  sourceExpiry : ℤ
  maxAge : ℤ
  sequence : ℤ
  configVersion : Option ℤ
  sourceEpoch : Option ℤ
  revision : Option ℤ

/-- The lifetime of an observation that says nothing else. -/
def defaultProfileAge : ℤ := 14400

/-- What a local login observes (`local_observation`). -/
def localObservation (key : AccountKey) (now : ℤ) : Action Observation := do
  let row ← Tx.find Tables.localProfiles key
  let value := row.bind LocalProfileRow.value
  let profile ← Tx.demand
    (match value with
      | some local' => local'.observation
      | none => some Profile.absent) .corrupt
  let sequence ← profileSequence
  pure
    { source := .identityLocal
      profile
      sourceTime := now
      sourceExpiry := i64Max
      maxAge := value.elim defaultProfileAge LocalProfile.maxAgeSeconds
      sequence
      configVersion := none
      sourceEpoch := none
      revision := row.map LocalProfileRow.revision }

/-- What verified claims observe (`oidc_observation`). -/
def oidcObservation {parsers : Parsers} (claims : UpstreamClaims) (view : ProviderView parsers)
    (sequence : ℤ) : Observation where
  source := .idp view.id
  profile := claims.profile
  sourceTime := claims.issuedAt
  sourceExpiry := claims.expiresAt
  maxAge := view.settings.input.claims.profile.maxAgeSeconds
  sequence
  configVersion := some view.version
  sourceEpoch := some view.revocationEpoch
  revision := none

/-- When an observation ends: by its age, its source, or the session's absolute expiry. -/
def Observation.deadline (observation : Observation) (limits : ProfileLimits) (absolute : ℤ) :
    Option ℤ :=
  (checkedAdd observation.sourceTime (min observation.maxAge limits.maxAge)).map fun aged =>
    min (min aged observation.sourceExpiry) absolute

/-- The provider that a source names. -/
def ProfileSource.provider : ProfileSource → Option ProviderId
  | identityLocal => none
  | idp provider => some provider

/-- The row an observation is stored as. -/
def Observation.row (observation : Observation) (limits : ProfileLimits) (key : AccountKey)
    (snapshot : Uuid) (collectedAt expiresAt : ℤ) : ProfileObservationRow where
  principal := key
  source := observation.source
  provider := observation.source.provider
  configVersion := observation.configVersion
  sourceEpoch := observation.sourceEpoch
  sourceRevision := observation.revision
  snapshot
  sequence := observation.sequence
  observedAt := observation.sourceTime
  collectedAt
  expiresAt
  value := observation.profile.applyLimits limits

/-- A newer observation replaces a stored one, unless it is older at the source. -/
def ProfileObservationRow.supersedes (next row : ProfileObservationRow) : Bool :=
  decide (row.sequence < next.sequence ∧
    (row.configVersion ≠ next.configVersion ∨ row.observedAt ≤ next.observedAt))

/-- Stores an observation, where it supersedes the stored one of its source. The database checks
the proposed row before it looks for the stored one. -/
def upsertObservation (next : ProfileObservationRow) : Action Bool := do
  Tx.require (Keyed.Check next) .constraint
  let stored ← Tx.find Tables.profileObservations (next.principal, next.source)
  match stored with
  | none => do
    Tx.insertInto Tables.profileObservations next .constraint
    pure true
  | some _ => do
    let rows ← Tx.updateIn Tables.profileObservations
      (fun row => decide (Keyed.key row = (next.principal, next.source)) && next.supersedes row)
      (fun _ => next) .constraint
    pure (decide (rows ≠ 0))

/-- Binds a session to a profile snapshot. -/
def bindProfile (session : SessionId) (source : Option ProfileSource) (snapshot : Option Uuid) :
    Action Unit := do
  let _ ← Tx.updateIn Tables.sessionsUntracked (fun row => decide (row.session = session))
    (fun row => { row with profileSource := source, profileSnapshot := snapshot }) .constraint
  pure ()

/-- Stores what is left of an observation, and its locator with the session. -/
def storeObservation (env : Env) (key : AccountKey) (session : SessionId)
    (observation : Observation) (expiresAt : ℤ) : Action Unit := do
  let snapshot ← newV4 env
  let collectedAt ← Tx.clockTimestamp
  let accepted ← upsertObservation
    (observation.row env.profileLimits key snapshot collectedAt expiresAt)
  if accepted then bindProfile session (some observation.source) (some snapshot)
  else pure ()

/-- Accepts an observation with a new session (`accept`): nothing is stored of one that lies
ahead of the clock or is over already. -/
def accept (env : Env) (key : AccountKey) (session : SessionId) (absolute : ℤ)
    (observation : Observation) : Action Unit := do
  Tx.require (observation.profile.valid = true) .corrupt
  let now ← now
  let expiresAt ← Tx.demand (observation.deadline env.profileLimits absolute) .corrupt
  if now < observation.sourceTime ∨ expiresAt ≤ now then pure ()
  else storeObservation env key session observation expiresAt

/-- Copies the profile locator of a session to the one that replaces it (`retain_binding`). -/
def retainBinding (key : AccountKey) (old new : SessionId) : Action Unit := do
  let previous ← Tx.find Tables.sessions old
  let previous ← Tx.demand previous .corrupt
  let next ← Tx.find Tables.sessions new
  let next ← Tx.demand next .corrupt
  Tx.require (previous.principal = key ∧ next.principal = key) .corrupt
  bindProfile new previous.profileSource previous.profileSnapshot

end IdentityAuthority
