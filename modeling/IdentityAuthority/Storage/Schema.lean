import IdentityAuthority.Core.Session
import IdentityAuthority.Relational.Table
import IdentityAuthority.Relational.Transaction
import IdentityAuthority.Storage.AuthFacts

/-!
# The tables of one tenant

The rows of the authority schema, with the primary key, the uniqueness constraints and the
row checks that the operations depend on. Row-level security confines every statement to
one tenant, so the tenant column is left out.
-/

namespace IdentityAuthority

open Relational

/-- `accounts`. -/
structure AccountRow where
  principal : PrincipalId
  enabled : Bool
  authEpoch : ℤ
deriving DecidableEq

instance : Keyed AccountRow PrincipalId where
  key := AccountRow.principal
  Check row := 0 < row.authEpoch
  Collide _ _ := False
  decKey := inferInstance
  decCheck _ := inferInstance
  decCollide _ _ := inferInstance

/-- `memberships`. -/
structure MembershipRow where
  principal : PrincipalId
  active : Bool
  epoch : ℤ
deriving DecidableEq

instance : Keyed MembershipRow PrincipalId where
  key := MembershipRow.principal
  Check row := 0 < row.epoch
  Collide _ _ := False
  decKey := inferInstance
  decCheck _ := inferInstance
  decCollide _ _ := inferInstance

/-- `local_credentials`; a login key belongs to one account. -/
structure LocalCredentialRow where
  principal : PrincipalId
  loginKey : String
  passwordHash : String
deriving DecidableEq

instance : Keyed LocalCredentialRow PrincipalId where
  key := LocalCredentialRow.principal
  Check row := 1 ≤ row.loginKey.utf8ByteSize ∧ row.loginKey.utf8ByteSize ≤ 128 ∧
    row.passwordHash.utf8ByteSize ≤ 256
  Collide row row' := row.loginKey = row'.loginKey
  decKey := inferInstance
  decCheck _ := inferInstance
  decCollide _ _ := inferInstance

/-- `attempts`: a counter per admission key, on the clock in microseconds. -/
structure AttemptRow where
  key : String
  count : ℤ
  expiresAt : ℤ
deriving DecidableEq

instance : Keyed AttemptRow String where
  key := AttemptRow.key
  Check row := 0 < row.count
  Collide _ _ := False
  decKey := inferInstance
  decCheck _ := inferInstance
  decCollide _ _ := inferInstance

/-- `password_attempts`: failures of a login in a window, and the claim on its next
verification, on the clock in microseconds. -/
structure PasswordAttemptRow where
  loginDigest : Digest
  failures : ℤ
  windowUntil : Option ℤ
  claimToken : Option Uuid
  claimUntil : Option ℤ
deriving DecidableEq

instance : Keyed PasswordAttemptRow Digest where
  key := PasswordAttemptRow.loginDigest
  Check row := (0 ≤ row.failures ∧ row.failures ≤ 5) ∧
    (row.failures = 0 ↔ row.windowUntil = none) ∧ (row.claimToken = none ↔ row.claimUntil = none)
  Collide _ _ := False
  decKey := inferInstance
  decCheck _ := inferInstance
  decCollide _ _ := inferInstance

/-- `providers`. -/
structure ProviderRow where
  provider : ProviderId
  configVersion : ℤ
  revocationEpoch : ℤ
  enabled : Bool
  settings : ProviderSettingsInput
  assuranceProfile : Digest
  credentialVersion : ℤ
deriving DecidableEq

instance : Keyed ProviderRow ProviderId where
  key := ProviderRow.provider
  Check row := 0 < row.configVersion ∧ 0 < row.revocationEpoch ∧ 0 < row.credentialVersion
  Collide _ _ := False
  decKey := inferInstance
  decCheck _ := inferInstance
  decCollide _ _ := inferInstance

/-- `provider_credentials`: the sealed client credentials of a provider. -/
structure ProviderCredentialRow where
  provider : ProviderId
  credentialVersion : ℤ
  sealedValue : ℕ
deriving DecidableEq

instance : Keyed ProviderCredentialRow ProviderId where
  key := ProviderCredentialRow.provider
  Check row := 0 < row.credentialVersion
  Collide _ _ := False
  decKey := inferInstance
  decCheck _ := inferInstance
  decCollide _ _ := inferInstance

/-- `external_identities`; a subject at a provider is bound once. -/
structure ExternalIdentityRow where
  identity : Uuid
  principal : PrincipalId
  provider : ProviderId
  issuer : String
  subject : String
deriving DecidableEq

instance : Keyed ExternalIdentityRow Uuid where
  key := ExternalIdentityRow.identity
  Check row := 1 ≤ row.issuer.utf8ByteSize ∧ row.issuer.utf8ByteSize ≤ 2048 ∧
    6 ≤ row.subject.utf8ByteSize ∧ row.subject.utf8ByteSize ≤ 260
  Collide row row' :=
    row.provider = row'.provider ∧ row.issuer = row'.issuer ∧ row.subject = row'.subject
  decKey := inferInstance
  decCheck _ := inferInstance
  decCollide _ _ := inferInstance

/-- The upstream identity a platform binding names. -/
structure ExternalBinding where
  identity : Uuid
  provider : ProviderId
  configVersion : ℤ
  revocationEpoch : ℤ
deriving DecidableEq

/-- A host binding of a platform credential to an account. -/
structure PlatformBinding where
  instanceId : Uuid
  account : AccountKey
  bindingId : Uuid
  bindingEpoch : ℤ
  sourceId : Uuid
  sourceVersion : ℤ
  externalIdentity : Option ExternalBinding
deriving DecidableEq

/-- `PlatformBinding::valid`. -/
def PlatformBinding.valid (binding : PlatformBinding) : Bool :=
  decide (0 < binding.bindingEpoch ∧ 0 < binding.sourceVersion) &&
    binding.externalIdentity.all fun external =>
      decide (0 < external.configVersion ∧ 0 < external.revocationEpoch)

/-- What a platform login established. -/
structure PlatformAuthentication where
  binding : PlatformBinding
  audience : String
  authenticatedAt : Option ℤ
  hardwareKey : Bool
  userPresence : Bool
  userVerification : Bool
deriving DecidableEq

/-- `sessions`. -/
structure SessionRow where
  principal : PrincipalId
  factsSequence : Option ℤ
  session : SessionId
  authenticationSource : AuthenticationSource
  localAuthenticatedAt : Option ℤ
  platformAuthentication : Option PlatformAuthentication
  credentialKind : CredentialKind
  tokenHash : Digest
  authEpoch : ℤ
  membershipEpoch : ℤ
  issuedAt : ℤ
  idleTimeout : ℤ
  absoluteTimeout : ℤ
  idleExpiresAt : ℤ
  absoluteExpiresAt : ℤ
  revokedAt : Option ℤ
  profileSource : Option ProfileSource
  profileSnapshot : Option Uuid
  externalIdentity : Option Uuid
  providerEpoch : Option ℤ
  authFacts : Option AuthenticationFacts
deriving DecidableEq

namespace SessionRow

/-- `authentication_kind`: the columns of each way to authenticate. -/
def AuthenticationKind (row : SessionRow) : Prop :=
  match row.authenticationSource with
  | .localPassword => (∃ t ∈ row.localAuthenticatedAt, 0 < t ∧ t ≤ row.issuedAt) ∧
      row.platformAuthentication = none ∧ row.externalIdentity = none
  | .oidc => row.localAuthenticatedAt = none ∧ row.platformAuthentication = none ∧
      row.externalIdentity.isSome
  | .platform => row.localAuthenticatedAt = none ∧ row.externalIdentity = none ∧
      row.platformAuthentication.isSome

instance (row : SessionRow) : Decidable row.AuthenticationKind := by
  unfold AuthenticationKind
  cases row.authenticationSource <;> infer_instance

/-- `session_source`: the columns of an upstream origin come together. -/
def Source (row : SessionRow) : Prop :=
  match row.externalIdentity with
  | none => row.providerEpoch = none ∧ row.authFacts = none ∧ row.factsSequence = none
  | some _ => (∃ n ∈ row.factsSequence, 0 < n) ∧ (∃ n ∈ row.providerEpoch, 0 < n) ∧
      row.authFacts.isSome

instance (row : SessionRow) : Decidable row.Source := by
  unfold Source
  cases row.externalIdentity <;> infer_instance

/-- The checks of the table. -/
structure Checked (row : SessionRow) : Prop where
  presentation : row.credentialKind = .cookie ∨ row.authenticationSource = .localPassword
  kind : row.AuthenticationKind
  source : row.Source
  authEpoch_pos : 0 < row.authEpoch
  membershipEpoch_pos : 0 < row.membershipEpoch
  issuedAt_pos : 0 < row.issuedAt
  idleTimeout_pos : 0 < row.idleTimeout
  idle_le : row.idleTimeout ≤ row.absoluteTimeout
  lifetime : row.issuedAt < row.idleExpiresAt ∧ row.idleExpiresAt ≤ row.absoluteExpiresAt
  duration : row.absoluteExpiresAt - row.issuedAt = row.absoluteTimeout
  absolute_i64 : isI64 row.absoluteTimeout = true
  revocation : ∀ t ∈ row.revokedAt, row.issuedAt ≤ t
  profile : row.profileSource.isSome = row.profileSnapshot.isSome

instance (row : SessionRow) : Decidable row.Checked :=
  decidable_of_iff
    ((row.credentialKind = .cookie ∨ row.authenticationSource = .localPassword) ∧
      row.AuthenticationKind ∧ row.Source ∧ 0 < row.authEpoch ∧ 0 < row.membershipEpoch ∧
      0 < row.issuedAt ∧ 0 < row.idleTimeout ∧ row.idleTimeout ≤ row.absoluteTimeout ∧
      (row.issuedAt < row.idleExpiresAt ∧ row.idleExpiresAt ≤ row.absoluteExpiresAt) ∧
      row.absoluteExpiresAt - row.issuedAt = row.absoluteTimeout ∧
      isI64 row.absoluteTimeout = true ∧ (∀ t ∈ row.revokedAt, row.issuedAt ≤ t) ∧
      row.profileSource.isSome = row.profileSnapshot.isSome)
    ⟨fun ⟨h1, h2, h3, h4, h5, h6, h7, h8, h9, h10, h11, h12, h13⟩ =>
      ⟨h1, h2, h3, h4, h5, h6, h7, h8, h9, h10, h11, h12, h13⟩,
     fun h => ⟨h.1, h.2, h.3, h.4, h.5, h.6, h.7, h.8, h.9, h.10, h.11, h.12, h.13⟩⟩

end SessionRow

instance : Keyed SessionRow SessionId where
  key := SessionRow.session
  Check := SessionRow.Checked
  Collide row row' := row.tokenHash = row'.tokenHash
  decKey := inferInstance
  decCheck _ := inferInstance
  decCollide _ _ := inferInstance

/-- `link_intents`: what an actor wants to link, and how far they proved themselves. -/
structure LinkIntentRow where
  intent : Uuid
  principal : PrincipalId
  session : SessionId
  authEpoch : ℤ
  membershipEpoch : ℤ
  sourceIdentity : Option Uuid
  sourceEpoch : Option ℤ
  sourceFacts : Option AuthenticationFacts
  sourceFactsSequence : Option ℤ
  localAuthenticatedAt : Option ℤ
  targetProvider : ProviderId
  targetVersion : ℤ
  browserHash : Digest
  stage : ℤ
  createdAt : ℤ
  expiresAt : ℤ
deriving DecidableEq

instance : Keyed LinkIntentRow Uuid where
  key := LinkIntentRow.intent
  Check row := row.createdAt < row.expiresAt ∧ 0 ≤ row.stage ∧ row.stage ≤ 2 ∧
    0 < row.targetVersion
  Collide _ _ := False
  decKey := inferInstance
  decCheck _ := inferInstance
  decCollide _ _ := inferInstance

/-- `oidc_transactions`: an attempt at the upstream, and the secrets of its exchange. -/
structure OidcTransactionRow where
  attempt : Digest
  operationContext : Option StepUpContext
  provider : ProviderId
  configVersion : ℤ
  stateHash : Digest
  browserHash : Digest
  profileSequence : ℤ
  purpose : Purpose
  authenticationMode : AuthenticationMode
  nonce : Option Secret
  verifier : Option Secret
  claimed : Bool
  createdAt : ℤ
  expiresAt : ℤ
  returnUrl : String
  linkIntent : Option Uuid
  replacementSession : Option SessionId
deriving DecidableEq

namespace OidcTransactionRow

/-- The checks that tie purpose, mode, intent, replacement and secrets together. -/
def Checked (row : OidcTransactionRow) : Prop :=
  row.createdAt < row.expiresAt ∧
    (match row.purpose with
      | .login => row.linkIntent = none ∧ (row.authenticationMode = .login ∨
          row.authenticationMode = .stepUp ∧ row.replacementSession.isSome)
      | .reauthenticate => row.linkIntent.isSome ∧ row.authenticationMode = .reauthenticate
      | .link => row.linkIntent.isSome ∧ row.authenticationMode = .login) ∧
    (if row.claimed then row.nonce = none ∧ row.verifier = none
      else row.nonce.isSome ∧ row.verifier.isSome)

/-- A login has no intent. -/
theorem Checked.linkIntent {row : OidcTransactionRow} (h : row.Checked) (hlogin : row.purpose = .login) :
    row.linkIntent = none := by
  have hpurpose := h.2.1
  rw [hlogin] at hpurpose
  exact hpurpose.1

instance (row : OidcTransactionRow) : Decidable row.Checked := by
  unfold Checked
  cases row.purpose <;> infer_instance

end OidcTransactionRow

instance : Keyed OidcTransactionRow Digest where
  key := OidcTransactionRow.attempt
  Check := OidcTransactionRow.Checked
  Collide row row' := row.stateHash = row'.stateHash
  decKey := inferInstance
  decCheck _ := inferInstance
  decCollide _ _ := inferInstance

/-- A relying party of the enterprise, with the upstream that honours assertions for it. -/
structure EnterpriseTarget where
  id : String
  issuer : String
  tokenEndpoint : String
  clientId : String
  scopes : List String
deriving DecidableEq

/-- What a platform login is for. -/
inductive PlatformPurpose
  | browserLogin
  | enterpriseRp (id : String)
deriving DecidableEq

/-- `platform_challenges`. -/
structure PlatformChallengeRow where
  challenge : Uuid
  principal : PrincipalId
  purpose : PlatformPurpose
  target : Option EnterpriseTarget
  binding : PlatformBinding
  audience : String
  nonceHash : Digest
  browserHash : Digest
  authEpoch : ℤ
  membershipEpoch : ℤ
  createdAt : ℤ
  expiresAt : ℤ
  profileSequence : ℤ
deriving DecidableEq

instance : Keyed PlatformChallengeRow Uuid where
  key := PlatformChallengeRow.challenge
  Check row := 0 < row.createdAt ∧ row.createdAt < row.expiresAt ∧
    row.expiresAt - row.createdAt ≤ 120 ∧ 0 < row.profileSequence ∧ isI64 row.expiresAt = true
  Collide _ _ := False
  decKey := inferInstance
  decCheck _ := inferInstance
  decCollide _ _ := inferInstance

/-- The bound on the text of a stored profile. -/
def profileTextLimit : ℕ := 98304

/-- `local_profiles`. -/
structure LocalProfileRow where
  principal : PrincipalId
  revision : ℤ
  value : Option LocalProfile

instance : Keyed LocalProfileRow PrincipalId where
  key := LocalProfileRow.principal
  Check row := 0 < row.revision ∧
    ∀ value ∈ row.value, Json.spacedSize value.toJson ≤ profileTextLimit
  Collide _ _ := False
  decKey := inferInstance
  decCheck _ := inferInstance
  decCollide _ _ := inferInstance

/-- `profile_observations`: the latest observation of an account at a source. -/
structure ProfileObservationRow where
  principal : PrincipalId
  source : ProfileSource
  provider : Option ProviderId
  configVersion : Option ℤ
  sourceEpoch : Option ℤ
  sourceRevision : Option ℤ
  snapshot : Uuid
  sequence : ℤ
  observedAt : ℤ
  collectedAt : ℤ
  expiresAt : ℤ
  value : Profile

namespace ProfileObservationRow

/-- The columns of a source: a local one has no provider, an upstream one is named by it. -/
def SourceColumns (row : ProfileObservationRow) : Prop :=
  match row.source with
  | .identityLocal => row.provider = none ∧ row.configVersion = none ∧ row.sourceEpoch = none
  | .idp provider => row.provider = some provider ∧ (∃ n ∈ row.configVersion, 0 < n) ∧
      (∃ n ∈ row.sourceEpoch, 0 < n) ∧ row.sourceRevision = none

instance (row : ProfileObservationRow) : Decidable row.SourceColumns := by
  unfold SourceColumns
  cases row.source <;> infer_instance

/-- The checks of the table. -/
structure Checked (row : ProfileObservationRow) : Prop where
  sequence_pos : 0 < row.sequence
  observedAt_pos : 0 < row.observedAt
  collectedAt_pos : 0 < row.collectedAt
  expiresAt_gt : row.observedAt < row.expiresAt
  age_le : row.expiresAt - row.observedAt ≤ 86400
  value_size : Json.spacedSize row.value.toJson ≤ profileTextLimit
  source : row.SourceColumns

instance (row : ProfileObservationRow) : Decidable row.Checked :=
  decidable_of_iff
    (0 < row.sequence ∧ 0 < row.observedAt ∧ 0 < row.collectedAt ∧
      row.observedAt < row.expiresAt ∧ row.expiresAt - row.observedAt ≤ 86400 ∧
      Json.spacedSize row.value.toJson ≤ profileTextLimit ∧ row.SourceColumns)
    ⟨fun ⟨h1, h2, h3, h4, h5, h6, h7⟩ => ⟨h1, h2, h3, h4, h5, h6, h7⟩,
     fun h => ⟨h.1, h.2, h.3, h.4, h.5, h.6, h.7⟩⟩

end ProfileObservationRow

instance : Keyed ProfileObservationRow (PrincipalId × ProfileSource) where
  key row := (row.principal, row.source)
  Check := ProfileObservationRow.Checked
  Collide _ _ := False
  decKey := inferInstance
  decCheck _ := inferInstance
  decCollide _ _ := inferInstance

/-- `profile_operations`: the settled updates of local profiles. -/
structure ProfileOperationRow where
  operation : Uuid
  principal : PrincipalId
  actor : PrincipalId
  digest : Digest
  revision : ℤ
deriving DecidableEq

instance : Keyed ProfileOperationRow Uuid where
  key := ProfileOperationRow.operation
  Check row := 0 < row.revision
  Collide _ _ := False
  decKey := inferInstance
  decCheck _ := inferInstance
  decCollide _ _ := inferInstance

/-- Which authentication a step-up grant was made by. -/
inductive GrantSource
  | oidc (identity : Uuid) (provider : ProviderId) (version epoch : ℤ)
  | webauthn (credential : Uuid) (epoch : ℤ) (rp : String) (configuration : ℤ)
deriving DecidableEq

/-- A verified authenticator: its credential id and the state its counter is in. -/
structure Passkey where
  credId : Digest
  state : ℕ
deriving DecidableEq

/-- A credential as a ceremony found it. -/
structure CredentialSnapshot where
  id : Uuid
  version : ℤ
  epoch : ℤ
  passkey : Passkey
deriving DecidableEq

/-- What a ceremony is about, with the verifier's own state of it. -/
inductive Ceremony
  | register (state : ℕ) (label : String) (recover : Bool) (authorization : Option GrantSource)
      (hostRecovery : Bool) (authorizationTime : Option ℤ)
  | authenticate (state : ℕ) (context : StepUpContext) (credentials : List CredentialSnapshot)
deriving DecidableEq

/-- `webauthn_rp`: the active configuration of a relying party. -/
structure WebauthnRpRow where
  rp : String
  fingerprint : Digest
  generation : ℤ
deriving DecidableEq

instance : Keyed WebauthnRpRow String where
  key := WebauthnRpRow.rp
  Check row := 0 < row.generation
  Collide _ _ := False
  decKey := inferInstance
  decCheck _ := inferInstance
  decCollide _ _ := inferInstance

/-- `webauthn_accounts`: whether an account enrolled, and its credential epoch. -/
structure WebauthnAccountRow where
  principal : PrincipalId
  userHandle : Uuid
  enrolled : Bool
  epoch : ℤ
deriving DecidableEq

instance : Keyed WebauthnAccountRow PrincipalId where
  key := WebauthnAccountRow.principal
  Check row := 0 < row.epoch
  Collide row row' := row.userHandle = row'.userHandle
  decKey := inferInstance
  decCheck _ := inferInstance
  decCollide _ _ := inferInstance

/-- `webauthn_credentials`. -/
structure WebauthnCredentialRow where
  id : Uuid
  principal : PrincipalId
  rp : String
  rpConfig : Digest
  credentialHash : Digest
  value : Passkey
  label : String
  epoch : ℤ
  version : ℤ
  revoked : Bool
deriving DecidableEq

instance : Keyed WebauthnCredentialRow Uuid where
  key := WebauthnCredentialRow.id
  Check row := 0 < row.epoch ∧ 0 < row.version
  Collide row row' := row.rp = row'.rp ∧ row.credentialHash = row'.credentialHash
  decKey := inferInstance
  decCheck _ := inferInstance
  decCollide _ _ := inferInstance

/-- `webauthn_ceremonies`. -/
structure WebauthnCeremonyRow where
  id : Uuid
  principal : PrincipalId
  session : SessionId
  authEpoch : ℤ
  membershipEpoch : ℤ
  credentialEpoch : ℤ
  rpConfig : Digest
  state : Ceremony
  createdAt : ℤ
  expiresAt : ℤ
deriving DecidableEq

instance : Keyed WebauthnCeremonyRow Uuid where
  key := WebauthnCeremonyRow.id
  Check row := 0 < row.createdAt ∧ row.createdAt < row.expiresAt ∧
    row.expiresAt - row.createdAt ≤ 120
  Collide _ _ := False
  decKey := inferInstance
  decCheck _ := inferInstance
  decCollide _ _ := inferInstance

/-- `step_up_grants`. -/
structure StepUpGrantRow where
  tokenHash : Digest
  principal : PrincipalId
  session : SessionId
  authEpoch : ℤ
  membershipEpoch : ℤ
  context : StepUpContext
  source : GrantSource
  authenticatedAt : ℤ
  expiresAt : ℤ
deriving DecidableEq

instance : Keyed StepUpGrantRow Digest where
  key := StepUpGrantRow.tokenHash
  Check row := 0 < row.authenticatedAt ∧ row.authenticatedAt < row.expiresAt ∧
    row.expiresAt - row.authenticatedAt ≤ 300
  Collide _ _ := False
  decKey := inferInstance
  decCheck _ := inferInstance
  decCollide _ _ := inferInstance

/-- The tenant's `guard` row; every transaction of the tenant locks it. -/
structure Guard where
  profileSequence : ℤ
  personnelRevision : ℤ
deriving DecidableEq

/-- The database of one provisioned tenant. -/
structure Db where
  tenantGuard : Guard
  accounts : Table AccountRow
  memberships : Table MembershipRow
  localCredentials : Table LocalCredentialRow
  attempts : Table AttemptRow
  passwordAttempts : Table PasswordAttemptRow
  providers : Table ProviderRow
  providerCredentials : Table ProviderCredentialRow
  externalIdentities : Table ExternalIdentityRow
  sessions : Table SessionRow
  linkIntents : Table LinkIntentRow
  oidcTransactions : Table OidcTransactionRow
  platformChallenges : Table PlatformChallengeRow
  localProfiles : Table LocalProfileRow
  profileObservations : Table ProfileObservationRow
  profileOperations : Table ProfileOperationRow
  webauthnRp : Table WebauthnRpRow
  webauthnAccounts : Table WebauthnAccountRow
  webauthnCredentials : Table WebauthnCredentialRow
  webauthnCeremonies : Table WebauthnCeremonyRow
  stepUpGrants : Table StepUpGrantRow

/-- The database of a tenant right after its provisioning. -/
def Db.provisioned : Db where
  tenantGuard := ⟨0, 0⟩
  accounts := .empty
  memberships := .empty
  localCredentials := .empty
  attempts := .empty
  passwordAttempts := .empty
  providers := .empty
  providerCredentials := .empty
  externalIdentities := .empty
  sessions := .empty
  linkIntents := .empty
  oidcTransactions := .empty
  platformChallenges := .empty
  localProfiles := .empty
  profileObservations := .empty
  profileOperations := .empty
  webauthnRp := .empty
  webauthnAccounts := .empty
  webauthnCredentials := .empty
  webauthnCeremonies := .empty
  stepUpGrants := .empty

/-- A transaction on the tenant's database. -/
abbrev Action (α : Type) : Type := Tx Db Failure α

/-- The world of the tenant. -/
abbrev Tenant : Type := World Db

/-- `advance_personnel_revision`, fired once for each row a statement touches. -/
def Db.advanceRevision (db : Db) (rows : ℕ) : Option Db :=
  let revision := db.tenantGuard.personnelRevision + rows
  if isI64 revision then
    some { db with tenantGuard := { db.tenantGuard with personnelRevision := revision } }
  else none

end IdentityAuthority
