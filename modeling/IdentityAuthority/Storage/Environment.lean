import IdentityAuthority.Relational.Statement
import IdentityAuthority.Storage.Schema

/-!
# What the authority is composed with

The deployment's settings, the cryptographic and host components the code calls, and the
tables as statements reach them. Statements on the personnel tables fire a trigger that
advances the tenant's personnel revision; of the session columns, only some do.
-/

namespace IdentityAuthority

open Relational

/-- A management operation, as the host policy sees it. -/
inductive ManagementOperation
  | registerWebauthn
  | removeWebauthn
  | recoverWebauthn
  | authorizeWebauthnRecovery
  | readProfileSources
  | readLocalProfile
  | updateLocalProfile
  | readLatestProfile
  | listAccounts
  | readAccount
  | readLatestDepartments
  | createAccount
  | provisionAccount (tenant : Uuid)
  | setAccountEnabled (value : Bool)
  | setMembership (value : Bool)
  | resetPassword
  | changeOwnPassword
  | listProviders
  | createProvider
  | updateProvider (provider : ProviderId)
  | setProviderEnabled (provider : ProviderId) (value : Bool)
  | testProvider (provider : ProviderId)
deriving DecidableEq

/-- How recently the host policy wants the actor to have authenticated, in seconds. -/
inductive ReauthenticationRequirement
  | none
  | recent (age : ℤ)
  | recentMfa (age : ℤ)
deriving DecidableEq

/-- What the host policy decides on. -/
structure ManagementContext where
  actor : AccountKey
  target : Option AccountKey
  operation : ManagementOperation
  assurance : Assurance
  groups : Groups
  departmentSnapshot : DepartmentFacts

/-- The host's verifier of platform credentials. Its answers, and the audience it serves, may
depend on the whole state and the time they are asked in. -/
structure PlatformVerifier where
  audience : Tenant → String
  challengeSeconds : Tenant → ℤ
  resolve : Uuid → Tenant → Option PlatformBinding
  recheck : PlatformBinding → Tenant → Bool
  authorizePurpose : PlatformBinding → PlatformPurpose → Tenant → Bool

/-- What an assertion for a relying party says of a login. Its subject is the account. -/
structure EnterpriseClaims where
  iss : String
  sub : Uuid × AccountKey
  aud : String
  jti : Uuid
  iat : ℤ
  exp : ℤ
  scope : String
  clientId : String
  rp : String
  authTime : Option ℤ
  userPresence : Bool
  userVerification : Bool
  keyPossession : Bool

/-- The relying parties a host serves and the signer of their assertions. No two of them share
their identifier or their issuer. -/
structure EnterpriseConfig where
  targets : List EnterpriseTarget
  sign : EnterpriseClaims → Option String
  size : 0 < targets.length ∧ targets.length ≤ 128
  ids : (targets.map EnterpriseTarget.id).Nodup
  issuers : (targets.map EnterpriseTarget.issuer).Nodup

/-- `EnterpriseConfig::target`: the relying party that a login is for, if it is for one. -/
def EnterpriseConfig.target (config : EnterpriseConfig) :
    PlatformPurpose → Option (Option EnterpriseTarget)
  | .browserLogin => some none
  | .enterpriseRp id => (config.targets.find? fun target => decide (target.id = id)).map some

/-- What the verifier of authenticator responses found in one. -/
structure AuthenticationResult where
  credId : Digest
  userVerified : Bool
  state : ℕ

/-- The library that runs authenticator ceremonies; a number stands for its state of one. -/
structure WebauthnVerifier where
  startRegistration : Uuid → List Digest → ℕ → Option ℕ
  finishRegistration : ℕ → ℕ → Option Passkey
  startAuthentication : List Passkey → ℕ → Option ℕ
  finishAuthentication : ℕ → ℕ → Option AuthenticationResult
  updateCredential : Passkey → AuthenticationResult → Option Passkey

/-- A deployment: the instance, its settings, and the components it is composed with. -/
structure Env where
  instanceId : Uuid
  entropy : Entropy
  sha256 : Sha256
  parsers : Parsers
  signer : StateSigner
  sessionPolicy : SessionPolicy
  groupPolicy : GroupFactsMaxAge
  profileLimits : ProfileLimits
  factsSize : AuthenticationFacts → ℕ
  assuranceProfile : ProviderSettings parsers → AssuranceProfile
  sealCredentials : ProviderId → ℤ → ℕ → ℕ → Option ℕ
  policy : ManagementContext → Tenant → Option ReauthenticationRequirement
  returnUrls : String → Bool
  platform : Option PlatformVerifier
  enterprise : Tenant → Option EnterpriseConfig
  webauthn : WebauthnVerifier

/-- The database with its personnel revision moved on. -/
def Db.revised (db : Db) (rows : ℕ) : Db :=
  { db with tenantGuard := { db.tenantGuard with
      personnelRevision := db.tenantGuard.personnelRevision + rows } }

@[simp] theorem advanceRevision_eq_some {db db' : Db} {rows : ℕ} :
    db.advanceRevision rows = some db' ↔
      isI64 (db.tenantGuard.personnelRevision + rows) = true ∧ db' = db.revised rows := by
  simp only [Db.advanceRevision, Db.revised]
  split <;> simp [*, eq_comm]

namespace Tables

@[simps] def accounts : Relation Db AccountRow :=
  ⟨Db.accounts, fun db t n => { db with accounts := t }.advanceRevision n⟩

@[simps] def memberships : Relation Db MembershipRow :=
  ⟨Db.memberships, fun db t n => { db with memberships := t }.advanceRevision n⟩

@[simps] def localCredentials : Relation Db LocalCredentialRow :=
  ⟨Db.localCredentials, fun db t n => { db with localCredentials := t }.advanceRevision n⟩

@[simps] def providers : Relation Db ProviderRow :=
  ⟨Db.providers, fun db t n => { db with providers := t }.advanceRevision n⟩

@[simps] def providerCredentials : Relation Db ProviderCredentialRow :=
  ⟨Db.providerCredentials, fun db t _ => some { db with providerCredentials := t }⟩

@[simps] def externalIdentities : Relation Db ExternalIdentityRow :=
  ⟨Db.externalIdentities, fun db t n => { db with externalIdentities := t }.advanceRevision n⟩

@[simps] def profileObservations : Relation Db ProfileObservationRow :=
  ⟨Db.profileObservations, fun db t n => { db with profileObservations := t }.advanceRevision n⟩

@[simps] def localProfiles : Relation Db LocalProfileRow :=
  ⟨Db.localProfiles, fun db t n => { db with localProfiles := t }.advanceRevision n⟩

/-- Sessions, for inserts and for updates of a column the trigger names. -/
@[simps] def sessions : Relation Db SessionRow :=
  ⟨Db.sessions, fun db t n => { db with sessions := t }.advanceRevision n⟩

/-- Sessions, for updates of the idle expiry, the credential digest and the profile
locator, which the trigger does not name. -/
@[simps] def sessionsUntracked : Relation Db SessionRow :=
  ⟨Db.sessions, fun db t _ => some { db with sessions := t }⟩

@[simps] def attempts : Relation Db AttemptRow :=
  ⟨Db.attempts, fun db t _ => some { db with attempts := t }⟩

@[simps] def passwordAttempts : Relation Db PasswordAttemptRow :=
  ⟨Db.passwordAttempts, fun db t _ => some { db with passwordAttempts := t }⟩

@[simps] def linkIntents : Relation Db LinkIntentRow :=
  ⟨Db.linkIntents, fun db t _ => some { db with linkIntents := t }⟩

@[simps] def oidcTransactions : Relation Db OidcTransactionRow :=
  ⟨Db.oidcTransactions, fun db t _ => some { db with oidcTransactions := t }⟩

@[simps] def platformChallenges : Relation Db PlatformChallengeRow :=
  ⟨Db.platformChallenges, fun db t _ => some { db with platformChallenges := t }⟩

@[simps] def profileOperations : Relation Db ProfileOperationRow :=
  ⟨Db.profileOperations, fun db t _ => some { db with profileOperations := t }⟩

@[simps] def webauthnRp : Relation Db WebauthnRpRow :=
  ⟨Db.webauthnRp, fun db t _ => some { db with webauthnRp := t }⟩

@[simps] def webauthnAccounts : Relation Db WebauthnAccountRow :=
  ⟨Db.webauthnAccounts, fun db t _ => some { db with webauthnAccounts := t }⟩

@[simps] def webauthnCredentials : Relation Db WebauthnCredentialRow :=
  ⟨Db.webauthnCredentials, fun db t _ => some { db with webauthnCredentials := t }⟩

@[simps] def webauthnCeremonies : Relation Db WebauthnCeremonyRow :=
  ⟨Db.webauthnCeremonies, fun db t _ => some { db with webauthnCeremonies := t }⟩

@[simps] def stepUpGrants : Relation Db StepUpGrantRow :=
  ⟨Db.stepUpGrants, fun db t _ => some { db with stepUpGrants := t }⟩

end Tables

/-- Whole seconds of a fresh clock reading (`now`). -/
def now : Action ℤ := do
  let micros ← Tx.clockTimestamp
  pure (seconds micros)

/-- A fresh non-nil UUID. -/
def newV4 (env : Env) : Action Uuid := do
  let draw ← Tx.random env.entropy
  pure (Uuid.newV4 draw)

/-- A fresh secret (`random_secret`). -/
def randomSecret (env : Env) : Action Secret := do
  let draw ← Tx.random env.entropy
  pure ⟨draw⟩

variable {w w' : Tenant}

@[simp] theorem run_now {t : ℤ} :
    now.run w = .ok (t, w') ↔ t = seconds w.tick.clock ∧ w' = w.tick := by
  simp only [now, Tx.run_bind, Tx.run_clockTimestamp, Tx.run_pure]
  constructor
  · rintro ⟨_, _, ⟨rfl, rfl⟩, rfl, rfl⟩
    exact ⟨rfl, rfl⟩
  · rintro ⟨rfl, rfl⟩
    exact ⟨_, _, ⟨rfl, rfl⟩, rfl, rfl⟩

@[simp] theorem run_newV4 {env : Env} {id : Uuid} :
    (newV4 env).run w = .ok (id, w') ↔
      id = Uuid.newV4 (env.entropy.draw w.drawn) ∧ w' = { w with drawn := w.drawn + 1 } := by
  simp only [newV4, Tx.run_bind, Tx.run_random, Tx.run_pure]
  constructor
  · rintro ⟨_, _, ⟨rfl, rfl⟩, rfl, rfl⟩
    exact ⟨rfl, rfl⟩
  · rintro ⟨rfl, rfl⟩
    exact ⟨_, _, ⟨rfl, rfl⟩, rfl, rfl⟩

@[simp] theorem run_randomSecret {env : Env} {s : Secret} :
    (randomSecret env).run w = .ok (s, w') ↔
      s = ⟨env.entropy.draw w.drawn⟩ ∧ w' = { w with drawn := w.drawn + 1 } := by
  simp only [randomSecret, Tx.run_bind, Tx.run_random, Tx.run_pure]
  constructor
  · rintro ⟨_, _, ⟨rfl, rfl⟩, rfl, rfl⟩
    exact ⟨rfl, rfl⟩
  · rintro ⟨rfl, rfl⟩
    exact ⟨_, _, ⟨rfl, rfl⟩, rfl, rfl⟩

/-- A number for each text, no two texts sharing one. -/
def textCode (s : String) : ℕ := s.toList.foldr (fun c n => c.toNat + 1 + 1114113 * n) 0

theorem charCode_lt (c : Char) : c.toNat < 1114112 := by
  rcases c.valid with h | h
  · exact lt_trans h (by decide)
  · exact h.2

theorem textCode_injective : Function.Injective textCode := by
  suffices h : ∀ l l' : List Char, l.foldr (fun c n => c.toNat + 1 + 1114113 * n) 0 =
      l'.foldr (fun c n => c.toNat + 1 + 1114113 * n) 0 → l = l' from
    fun s t hcode => String.toList_inj.mp (h _ _ hcode)
  intro l
  induction l with
  | nil =>
    rintro (_ | ⟨c, l'⟩) h
    · rfl
    · simp only [List.foldr] at h
      omega
  | cons c l ih =>
    rintro (_ | ⟨c', l'⟩) h
    · simp only [List.foldr] at h
      omega
    · simp only [List.foldr] at h
      have hc := charCode_lt c
      have hc' := charCode_lt c'
      have hhead : c.toNat = c'.toNat := by omega
      rw [Char.toNat_inj.mp hhead, ih l' (by omega)]

/-- A signer whose tokens count their attempt and purpose in unary. -/
def StateSigner.unary : StateSigner where
  issue locator := String.ofList (.replicate (3 * locator.id.value + locator.purpose.code) 'x')
  verify state :=
    if state.toList = .replicate state.toList.length 'x' then
      (Purpose.fromCode (state.toList.length % 3)).map fun purpose =>
        ⟨⟨state.toList.length / 3⟩, purpose⟩
    else none
  verify_eq_some := by
    rintro state ⟨⟨id⟩, purpose⟩
    have hcode : purpose.code < 3 := by cases purpose <;> decide
    constructor
    · intro h
      split at h
      · rename_i hunary
        simp only [Option.map_eq_some_iff, Purpose.fromCode_eq_some, StateLocator.mk.injEq,
          Digest.mk.injEq] at h
        obtain ⟨found, hmod, hdiv, rfl⟩ := h
        have hlen : state.toList.length = 3 * id + found.code := by omega
        rw [← hlen, ← hunary, String.ofList_toList]
      · cases h
    · rintro rfl
      have hmod : (3 * id + purpose.code) % 3 = purpose.code := by omega
      have hdiv : (3 * id + purpose.code) / 3 = id := by omega
      simp [hmod, hdiv, Purpose.fromCode_eq_some.mpr rfl]

/-- A deployment with transparent cryptography and a permissive host, to run the model on:
drawn values count up, digests are their preimages, every text is a plain URL. -/
def Env.transparent : Env where
  instanceId := Uuid.newV4 0
  entropy := ⟨id, Function.injective_id⟩
  sha256 :=
    { secret := fun s => ⟨2 * s.value⟩
      text := fun s => ⟨2 * textCode s + 1⟩
      secret_injective := fun ⟨s⟩ ⟨t⟩ h => by simpa using h
      text_injective := fun s t h => textCode_injective (by simpa using h) }
  parsers := ⟨fun _ => some ⟨"https", true, false, false, false, false⟩, fun id => toString id.value⟩
  signer := .unary
  sessionPolicy := ⟨1800, 43200, by decide, by decide⟩
  groupPolicy := ⟨300, validMaxAge_five_minutes⟩
  profileLimits := .standard
  factsSize := fun _ => 0
  assuranceProfile := fun _ => ⟨⟨0⟩, true⟩
  sealCredentials := fun _ _ credentials _ => some credentials
  policy := fun _ _ => some .none
  returnUrls := fun _ => true
  platform := none
  enterprise := fun _ => none
  webauthn :=
    { startRegistration := fun _ _ draw => some draw
      finishRegistration := fun response _ => some ⟨⟨response⟩, 0⟩
      startAuthentication := fun _ draw => some draw
      finishAuthentication := fun response _ => some ⟨⟨response⟩, true, 1⟩
      updateCredential := fun passkey result =>
        if passkey.credId = result.credId then some ⟨passkey.credId, result.state⟩ else none }

end IdentityAuthority
