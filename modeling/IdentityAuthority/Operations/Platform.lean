import IdentityAuthority.Operations.Federation

/-!
# Platform logins

The host verifies devices and platform credentials. The component keeps the one-use challenge
and issues the session, under the binding the host resolves and rechecks.
-/

namespace IdentityAuthority

open Relational

/-- What a device signs, and the host verifies it against (`PlatformChallengeContext`). -/
structure PlatformChallengeContext where
  purpose : PlatformPurpose
  binding : PlatformBinding
  audience : String
  nonce : Secret
  createdAt : ℤ
  expiresAt : ℤ
deriving DecidableEq

/-- A challenge handed to a device. -/
structure PlatformChallenge where
  id : Uuid
  nonce : Secret
  expiresAt : ℤ
  payload : PlatformChallengeContext

/-- The relying party a login is for, as the host is configured; a host without enterprise serves
browser logins only. -/
def enterpriseTarget (config : Option EnterpriseConfig) (purpose : PlatformPurpose)
    (unserved : Failure) : Except Failure (Option EnterpriseTarget) :=
  match config with
  | some config =>
    match config.target purpose with
    | some target => .ok target
    | none => .error .rejected
  | none => if purpose = .browserLogin then .ok none else .error unserved

/-- Removes challenges that are over, up to 128. -/
def removeExpiredChallenges (now : ℤ) : Action Unit := do
  let past ← Tx.select Tables.platformChallenges fun row => decide (row.expiresAt ≤ now)
  let past := (past.take 128).map PlatformChallengeRow.challenge
  let _ ← Tx.deleteFrom Tables.platformChallenges (fun row => past.contains row.challenge)
    .constraint
  pure ()

/-- Begins a platform login of a binding the host resolves (`begin_platform_login`). -/
def beginPlatformLogin (env : Env) (binding : Uuid) (purpose : PlatformPurpose)
    (browser : String) : Action PlatformChallenge := do
  Tx.require (browserValid browser = true) (.federation .rejected)
  let verifier ← Tx.demand env.platform (.federation .configuration)
  let world ← Tx.world
  Tx.require (0 < (verifier.audience world).utf8ByteSize ∧
    (verifier.audience world).utf8ByteSize ≤ 256 ∧
    1 ≤ verifier.challengeSeconds world ∧ verifier.challengeSeconds world ≤ 120)
    (.federation .configuration)
  let target ← Tx.ofExcept
    (enterpriseTarget (env.enterprise world) purpose (.federation .configuration))
  let resolved ← Tx.demand (verifier.resolve binding world) .rejected
  Tx.require (resolved.valid = true ∧ resolved.instanceId = env.instanceId ∧
    resolved.bindingId = binding) .rejected
  let stored ← load resolved.account
  Tx.require (stored.state.active = true) .rejected
  external resolved
  let world ← Tx.world
  Tx.require (verifier.authorizePurpose resolved purpose world = true) .rejected
  let now ← now
  removeExpiredChallenges now
  let held ← Tx.select Tables.platformChallenges fun _ => true
  Tx.require (held.length < 10000) .rejected
  let id ← newV4 env
  let nonce ← randomSecret env
  let world ← Tx.world
  let expiresAt := now + verifier.challengeSeconds world
  let sequence ← profileSequence
  Tx.insertInto Tables.platformChallenges
    { challenge := id
      principal := resolved.account
      purpose
      target
      binding := resolved
      audience := verifier.audience world
      nonceHash := env.sha256.secret nonce
      browserHash := env.sha256.text browser
      authEpoch := stored.state.epoch
      membershipEpoch := stored.state.membershipEpoch
      createdAt := now
      expiresAt
      profileSequence := sequence } .constraint
  pure
    { id
      nonce
      expiresAt
      payload :=
        { purpose, binding := resolved, audience := verifier.audience world, nonce,
          createdAt := now, expiresAt } }

/-- Reads the challenge a device answers (`challenge`). -/
def readChallenge (env : Env) (id : Uuid) (nonce : Secret) (browser : String) :
    Action PlatformChallengeRow := do
  let row ← Tx.find Tables.platformChallenges id
  let row ← Tx.demand row .rejected
  let now ← now
  Tx.require (row.nonceHash = env.sha256.secret nonce ∧ row.browserHash = env.sha256.text browser ∧
    row.createdAt ≤ now ∧ now < row.expiresAt) .rejected
  pure row

/-- Reads the challenge for the host to verify the device's answer against: the first transaction
of `complete_platform_login`. -/
def showChallenge (env : Env) (id : Uuid) (nonce : Secret) (browser : String) :
    Action PlatformChallengeContext := do
  Tx.require (browserValid browser = true) (.federation .rejected)
  let _ ← Tx.demand env.platform (.federation .configuration)
  let row ← readChallenge env id nonce browser
  pure
    { purpose := row.purpose
      binding := row.binding
      audience := row.audience
      nonce
      createdAt := row.createdAt
      expiresAt := row.expiresAt }

/-- The profile a platform login brings. -/
inductive PlatformProfile
  | unavailable
  | identityLocal
  | idp (provider : ProviderId) (claims : UpstreamClaims)

/-- What the host verified, outside of any transaction. -/
structure PlatformEvidence where
  keyPossession : Bool
  hardwareKey : Bool
  userPresence : Bool
  userVerification : Bool
  authenticatedAt : Option ℤ
  profile : PlatformProfile

/-- Evidence without the key is none, and a time of authentication comes with user verification. -/
def PlatformEvidence.accepted (evidence : PlatformEvidence) : Bool :=
  evidence.keyPossession && (evidence.authenticatedAt.isNone || evidence.userVerification)

/-- What evidence for a challenge establishes. -/
def PlatformChallengeContext.authentication (context : PlatformChallengeContext)
    (evidence : PlatformEvidence) : PlatformAuthentication where
  binding := context.binding
  audience := context.audience
  authenticatedAt := evidence.authenticatedAt
  hardwareKey := evidence.hardwareKey
  userPresence := evidence.userPresence
  userVerification := evidence.userVerification

/-- The observation of verified claims that belong to the binding's upstream identity. -/
def bindingObservation (env : Env) (binding : PlatformBinding) (created sequence : ℤ)
    (id : ProviderId) (claims : UpstreamClaims) : Action Observation := do
  let named ← Tx.demand binding.externalIdentity .rejected
  Tx.require (id = named.provider ∧ saturatingSub created 30 ≤ claims.issuedAt) .rejected
  let view ← provider env id
  let (_, issuer, subject) ← identity named.identity
  Tx.require (claims.issuer = issuer ∧ claims.subject.storageKey env.parsers = subject) .rejected
  pure (oidcObservation claims view sequence)

/-- What a platform login observes of its account's profile. -/
def platformObservation (env : Env) (profile : PlatformProfile) (created : ℤ)
    (row : PlatformChallengeRow) (now : ℤ) : Action (Option Observation) :=
  match profile with
  | .unavailable => pure none
  | .identityLocal => do
    let observation ← localObservation row.binding.account now
    pure (some observation)
  | .idp id claims => do
    let observation ← bindingObservation env row.binding created row.profileSequence id claims
    pure (some observation)

/-- Accepts an observation with a session, if there is one. -/
def acceptObservation (env : Env) (key : AccountKey) (issued : IssuedSession)
    (observation : Option Observation) : Action Unit :=
  match observation with
  | some observation =>
    accept env key issued.view.id issued.view.absoluteExpiresAt observation
  | none => pure ()

/-- An assertion for a relying party. -/
structure EnterpriseAssertion where
  target : EnterpriseTarget
  expiresAt : ℤ
  value : String

/-- What a platform login ends in. -/
structure PlatformLogin where
  session : IssuedSession
  assertion : Option EnterpriseAssertion

/-- What an assertion for a relying party claims. -/
def assertedClaims (target : EnterpriseTarget) (stored : PlatformAuthentication) (now expiresAt : ℤ)
    (jti : Uuid) : EnterpriseClaims where
  iss := target.issuer
  sub := (stored.binding.instanceId, stored.binding.account)
  aud := target.tokenEndpoint
  jti
  iat := now
  exp := expiresAt
  scope := " ".intercalate target.scopes
  clientId := target.clientId
  rp := target.id
  authTime := stored.authenticatedAt
  userPresence := stored.userPresence
  userVerification := stored.userVerification
  keyPossession := true

/-- Issues an assertion for a relying party, for half a minute at most (`enterprise::issue`). -/
def issueAssertion (env : Env) (config : EnterpriseConfig) (target : EnterpriseTarget)
    (stored : PlatformAuthentication) (now sessionExpiry : ℤ) : Action EnterpriseAssertion := do
  let expiresAt := min (now + 30) sessionExpiry
  let jti ← newV4 env
  let value ← Tx.demand (config.sign (assertedClaims target stored now expiresAt jti)) .unavailable
  Tx.require (0 < value.utf8ByteSize ∧ value.utf8ByteSize ≤ 16384) .corrupt
  pure { target, expiresAt, value }

/-- Issues the assertion of a login that is for a relying party. -/
def issueFor (env : Env) (config : Option EnterpriseConfig) (target : Option EnterpriseTarget)
    (stored : PlatformAuthentication) (now sessionExpiry : ℤ) :
    Action (Option EnterpriseAssertion) :=
  match target with
  | some target => do
    let config ← Tx.demand config .rejected
    let assertion ← issueAssertion env config target stored now sessionExpiry
    pure (some assertion)
  | none => pure none

/-- Settles a platform login whose evidence the host verified against a context that the call read
before: the second transaction of `complete_platform_login`. -/
def completePlatformLogin (env : Env) (id : Uuid) (nonce : Secret) (browser : String)
    (context : PlatformChallengeContext) (evidence : PlatformEvidence) : Action PlatformLogin := do
  Tx.require (browserValid browser = true) (.federation .rejected)
  let verifier ← Tx.demand env.platform (.federation .configuration)
  Tx.require (evidence.accepted = true) .rejected
  let authentication := context.authentication evidence
  let row ← readChallenge env id nonce browser
  Tx.require (row.binding = authentication.binding ∧ row.audience = authentication.audience)
    .rejected
  let stored ← load row.binding.account
  Tx.require (stored.state.active = true ∧ stored.state.epoch = row.authEpoch ∧
    stored.state.membershipEpoch = row.membershipEpoch) .rejected
  recheckPlatform env row.binding.account authentication env.platform
  Tx.require (row.purpose = context.purpose) .rejected
  let world ← Tx.world
  Tx.require (verifier.authorizePurpose row.binding row.purpose world = true) .rejected
  let target ← Tx.ofExcept (enterpriseTarget (env.enterprise world) row.purpose .rejected)
  Tx.require (row.target = target) .rejected
  let instant ← now
  Tx.require (∀ t ∈ authentication.authenticatedAt,
    saturatingSub context.createdAt 30 ≤ t ∧ t ≤ instant) .rejected
  let observation ← platformObservation env evidence.profile context.createdAt row instant
  let issued ← insertSession env stored.state none (.platform authentication) instant .cookie
  let assertion ← issueFor env (env.enterprise world) target authentication instant
    (min issued.view.absoluteExpiresAt issued.view.idleExpiresAt)
  acceptObservation env row.binding.account issued observation
  let instant ← now
  Tx.require (instant < row.expiresAt) .rejected
  let _ ← Tx.deleteFrom Tables.platformChallenges (fun row => decide (row.challenge = id))
    .constraint
  pure { session := issued, assertion }

end IdentityAuthority
