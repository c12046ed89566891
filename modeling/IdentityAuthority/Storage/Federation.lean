import IdentityAuthority.Storage.Environment

/-!
# Providers, origins and attempts in storage

Reading a provider and the origin of a session, and the life of an attempt at the
upstream: it is inserted with the secrets of its exchange, claimed once, and deleted when
it is consumed or over.
-/

namespace IdentityAuthority

open Relational

/-- A provider as storage holds it, its settings valid. -/
structure ProviderView (parsers : Parsers) where
  id : ProviderId
  version : ℤ
  enabled : Bool
  revocationEpoch : ℤ
  settings : ProviderSettings parsers
  assuranceProfile : Digest
  credentialVersion : ℤ
deriving DecidableEq

/-- Reads a provider (`provider`). -/
def provider (env : Env) (id : ProviderId) : Action (ProviderView env.parsers) := do
  let row ← Tx.find Tables.providers id
  let row ← Tx.demand row .rejected
  let settings ← Tx.demand (ProviderSettings.tryFrom env.parsers row.settings).toOption .corrupt
  Tx.require (1 ≤ row.configVersion ∧ 1 ≤ row.revocationEpoch) .corrupt
  pure
    { id
      version := row.configVersion
      enabled := row.enabled
      revocationEpoch := row.revocationEpoch
      settings
      assuranceProfile := row.assuranceProfile
      credentialVersion := row.credentialVersion }

/-- The provider is enabled, and still at this version. -/
def exact {parsers : Parsers} (view : ProviderView parsers) (version : ℤ) :
    Except FederationError Unit :=
  if view.enabled = false then .error .rejected
  else if view.version ≠ version then .error .staleConfiguration
  else .ok ()

/-- The upstream identity a session came from, with the facts of its authentication. -/
structure Origin where
  identity : Uuid
  epoch : ℤ
  facts : AuthenticationFacts
  factsSequence : ℤ
deriving DecidableEq

/-- The origin of a session, if it has an upstream one (`origin`). -/
def origin (session : SessionId) : Action (Option Origin) := do
  let row ← Tx.find Tables.sessions session
  let row ← Tx.demand row .unavailable
  match row.externalIdentity with
  | some identity => do
    let epoch ← Tx.demand row.providerEpoch .unavailable
    let factsSequence ← Tx.demand row.factsSequence .unavailable
    let facts ← Tx.demand row.authFacts .unavailable
    let facts ← Tx.ofExcept facts.decode
    pure (some { identity, epoch, facts, factsSequence })
  | none => do
    Tx.require (row.providerEpoch = none ∧ row.authFacts = none) .corrupt
    pure none

/-- An origin is still good for an account: the identity is bound to it, and the provider is
enabled at the version and the epoch of the origin (`check_origin`). -/
def checkOrigin (env : Env) (key : AccountKey) (origin : Origin) : Action FactSource := do
  let identity ← Tx.find Tables.externalIdentities origin.identity
  let identity ← Tx.demand identity .rejected
  let provider ← Tx.find Tables.providers identity.provider
  let provider ← Tx.demand provider .rejected
  Tx.require (provider.enabled = true ∧ provider.revocationEpoch = origin.epoch ∧
    provider.configVersion = origin.facts.providerConfigVersion ∧ identity.principal = key)
    .rejected
  Tx.demand (FactSource.new env.parsers identity.provider identity.issuer) .corrupt

/-- The provider, issuer and subject of an upstream identity (`identity`). -/
def identity (id : Uuid) : Action (ProviderId × String × String) := do
  let row ← Tx.find Tables.externalIdentities id
  let row ← Tx.demand row .unavailable
  pure (row.provider, row.issuer, row.subject)

/-- An attempt as it was begun. -/
structure OidcAttempt where
  context : Option StepUpContext
  profileSequence : ℤ
  mode : AuthenticationMode
  browser : Digest
  provider : ProviderId
  version : ℤ
  purpose : Purpose
  expiry : ℤ
  created : ℤ
  returnUrl : String
  link : Option Uuid
  replacement : Option SessionId
deriving DecidableEq

/-- The attempt of a stored row. -/
def OidcTransactionRow.attemptView (row : OidcTransactionRow) : OidcAttempt where
  context := row.operationContext
  profileSequence := row.profileSequence
  mode := row.authenticationMode
  browser := row.browserHash
  provider := row.provider
  version := row.configVersion
  purpose := row.purpose
  expiry := row.expiresAt
  created := row.createdAt
  returnUrl := row.returnUrl
  link := row.linkIntent
  replacement := row.replacementSession

/-- The row of an attempt matches what its caller presents, at a time. -/
structure OidcTransactionRow.Presented (env : Env) (row : OidcTransactionRow)
    (locator : StateLocator) (state browser : String) (claimed : Bool) (now : ℤ) : Prop where
  state : row.stateHash = env.sha256.text state
  browser : row.browserHash = env.sha256.text browser
  claimed : row.claimed = claimed
  purpose : row.purpose = locator.purpose
  created : row.createdAt ≤ now
  unexpired : now < row.expiresAt

instance (env : Env) (row : OidcTransactionRow) (locator : StateLocator) (state browser : String)
    (claimed : Bool) (now : ℤ) : Decidable (row.Presented env locator state browser claimed now) :=
  decidable_of_iff (row.stateHash = env.sha256.text state ∧
      row.browserHash = env.sha256.text browser ∧ row.claimed = claimed ∧
      row.purpose = locator.purpose ∧ row.createdAt ≤ now ∧ now < row.expiresAt)
    ⟨fun ⟨h1, h2, h3, h4, h5, h6⟩ => ⟨h1, h2, h3, h4, h5, h6⟩,
     fun h => ⟨h.1, h.2, h.3, h.4, h.5, h.6⟩⟩

/-- Reads the attempt of a state, claimed or not; the secrets of the exchange are there only
until it is claimed (`attempt`). -/
def oidcAttempt (env : Env) (locator : StateLocator) (state browser : String) (claimed : Bool) :
    Action (OidcAttempt × Option (Secret × Secret)) := do
  let row ← Tx.find Tables.oidcTransactions locator.id
  let row ← Tx.demand row .rejected
  let now ← now
  Tx.require (row.Presented env locator state browser claimed now) .rejected
  if claimed then pure (row.attemptView, none)
  else do
    let nonce ← Tx.demand row.nonce .unavailable
    let verifier ← Tx.demand row.verifier .unavailable
    pure (row.attemptView, some (nonce, verifier))

/-- The material of an exchange: the state, and the secrets kept with the attempt. -/
structure ProtocolMaterial where
  state : String
  nonce : Secret
  verifier : Secret

/-- An attempt to insert. -/
structure NewAttempt (parsers : Parsers) where
  context : Option StepUpContext
  mode : AuthenticationMode
  locator : StateLocator
  material : ProtocolMaterial
  provider : ProviderView parsers
  browser : String
  returnUrl : String
  link : Option Uuid
  replacement : Option SessionId
  expiry : Option ℤ

/-- The next number of the tenant's profile sequence (`profiles::sequence`). -/
def profileSequence : Action ℤ := do
  Tx.write (fun db =>
    if isI64 (db.tenantGuard.profileSequence + 1) then
      some { db with tenantGuard := { db.tenantGuard with
        profileSequence := db.tenantGuard.profileSequence + 1 } }
    else none) .unavailable
  Tx.query fun db => db.tenantGuard.profileSequence

/-- Removes attempts that are over, up to 128, and then link intents that are over and have
no attempt left, up to 128. -/
def removeExpiredAttempts (now : ℤ) : Action Unit := do
  let past ← Tx.select Tables.oidcTransactions fun row => decide (row.expiresAt ≤ now)
  let past := ((past.insertionSort fun r s => r.expiresAt ≤ s.expiresAt).take 128).map
    OidcTransactionRow.attempt
  let _ ← Tx.deleteFrom Tables.oidcTransactions (fun row => past.contains row.attempt) .constraint
  let attempts ← Tx.select Tables.oidcTransactions fun _ => true
  let past ← Tx.select Tables.linkIntents fun intent =>
    decide (intent.expiresAt ≤ now) &&
      attempts.all fun row => decide (row.linkIntent ≠ some intent.intent)
  let past := (past.take 128).map LinkIntentRow.intent
  let _ ← Tx.deleteFrom Tables.linkIntents (fun row => past.contains row.intent) .constraint
  pure ()

/-- Inserts an attempt for two minutes at most, under the provider's version at that time
(`insert_attempt`). -/
def insertAttempt (env : Env) (input : NewAttempt env.parsers) : Action Unit := do
  let current ← provider env input.provider.id
  Tx.ofExcept (ofFederation (exact current input.provider.version))
  let now ← now
  let expiry := min (input.expiry.getD (now + 120)) (now + 120)
  Tx.require ((input.mode = .stepUp) ↔ (input.context.isSome = true)) .rejected
  Tx.require (now < expiry) .rejected
  removeExpiredAttempts now
  let attempts ← Tx.select Tables.oidcTransactions fun _ => true
  Tx.require (attempts.length < 10000) .rejected
  let sequence ← profileSequence
  Tx.insertInto Tables.oidcTransactions
    { attempt := input.locator.id
      operationContext := input.context
      provider := input.provider.id
      configVersion := input.provider.version
      stateHash := env.sha256.text input.material.state
      browserHash := env.sha256.text input.browser
      profileSequence := sequence
      purpose := input.locator.purpose
      authenticationMode := input.mode
      nonce := some input.material.nonce
      verifier := some input.material.verifier
      claimed := false
      createdAt := now
      expiresAt := expiry
      returnUrl := input.returnUrl
      linkIntent := input.link
      replacementSession := input.replacement } .constraint

/-- Removes an attempt (`consume`). -/
def consumeAttempt (locator : StateLocator) : Action Unit := do
  let _ ← Tx.deleteFrom Tables.oidcTransactions (fun row => decide (row.attempt = locator.id))
    .constraint
  pure ()

variable {env : Env} {w w' : Tenant}

theorem run_profileSequence {n : ℤ} (h : profileSequence.run w = .ok (n, w')) :
    ∃ g, w' = { w with state := { w.state with tenantGuard := g } } := by
  simp only [profileSequence, Tx.run_bind, Tx.run_write, Tx.run_query] at h
  obtain ⟨-, _, ⟨db, hdb, rfl⟩, -, rfl⟩ := h
  split at hdb
  · cases hdb
    exact ⟨_, rfl⟩
  · cases hdb

/-- The stored row of a provider. -/
def ProviderView.row {parsers : Parsers} (view : ProviderView parsers) : ProviderRow where
  provider := view.id
  configVersion := view.version
  revocationEpoch := view.revocationEpoch
  enabled := view.enabled
  settings := view.settings.input
  assuranceProfile := view.assuranceProfile
  credentialVersion := view.credentialVersion

/-- Reading a provider reads its row. -/
theorem run_provider {id : ProviderId} {view : ProviderView env.parsers}
    (h : (provider env id).run w = .ok (view, w')) :
    w' = w ∧ view.id = id ∧ w.state.providers.find? id = some view.row := by
  simp only [provider, Tx.run_bind, Tx.run_find, Tx.run_demand, Tx.run_require, Tx.run_pure,
    Tables.providers_get] at h
  obtain ⟨_, _, ⟨rfl, rfl⟩, row, _, ⟨hrow, rfl⟩, settings, _, ⟨hsettings, rfl⟩, -, _, ⟨-, rfl⟩,
    rfl, rfl⟩ := h
  refine ⟨rfl, rfl, ?_⟩
  unfold ProviderSettings.tryFrom at hsettings
  split at hsettings
  · simp only [Except.toOption, Option.some.injEq] at hsettings
    subst hsettings
    have hkey : row.provider = id := Table.key_of_find? hrow
    rw [hrow, ← hkey]
    rfl
  · simp [Except.toOption] at hsettings

@[simp] theorem exact_eq_ok {parsers : Parsers} {view : ProviderView parsers} {version : ℤ} :
    exact view version = .ok () ↔ view.enabled = true ∧ view.version = version := by
  unfold exact
  split
  · simp [*]
  · split <;> simp_all

/-- What a session row says about its origin. -/
inductive SessionRow.HasOrigin (row : SessionRow) : Option Origin → Prop
  | upstream {origin : Origin} : row.externalIdentity = some origin.identity →
      row.providerEpoch = some origin.epoch → row.authFacts = some origin.facts →
      row.factsSequence = some origin.factsSequence → origin.facts.decodable = true →
      row.HasOrigin (some origin)
  | own : row.externalIdentity = none → row.HasOrigin none

/-- A row has one origin. -/
theorem SessionRow.HasOrigin.unique {row : SessionRow} {o o' : Option Origin}
    (h : row.HasOrigin o) (h' : row.HasOrigin o') : o = o' := by
  cases h with
  | own hnone =>
    cases h' with
    | own => rfl
    | upstream hidentity =>
      rw [hnone] at hidentity
      cases hidentity
  | @upstream found hidentity hepoch hfacts hsequence =>
    cases h' with
    | own hnone =>
      rw [hnone] at hidentity
      cases hidentity
    | @upstream found' hidentity' hepoch' hfacts' hsequence' =>
      rw [hidentity, Option.some.injEq] at hidentity'
      rw [hepoch, Option.some.injEq] at hepoch'
      rw [hfacts, Option.some.injEq] at hfacts'
      rw [hsequence, Option.some.injEq] at hsequence'
      obtain ⟨_, _, _, _⟩ := found
      obtain ⟨_, _, _, _⟩ := found'
      simp only at hidentity' hepoch' hfacts' hsequence'
      rw [hidentity', hepoch', hfacts', hsequence']

/-- The origin of a row is a matter of four of its columns. -/
theorem SessionRow.HasOrigin.congr {row next : SessionRow} {o : Option Origin}
    (h : row.HasOrigin o) (hidentity : next.externalIdentity = row.externalIdentity)
    (hepoch : next.providerEpoch = row.providerEpoch) (hfacts : next.authFacts = row.authFacts)
    (hsequence : next.factsSequence = row.factsSequence) : next.HasOrigin o := by
  cases h with
  | own hnone => exact .own (hidentity.trans hnone)
  | upstream h1 h2 h3 h4 h5 =>
    exact .upstream (hidentity.trans h1) (hepoch.trans h2) (hfacts.trans h3) (hsequence.trans h4) h5

/-- Reading the origin of a session reads the columns of its row. -/
theorem run_origin {session : SessionId} {o : Option Origin}
    (h : (origin session).run w = .ok (o, w')) :
    w' = w ∧ ∃ row, w.state.sessions.find? session = some row ∧ row.HasOrigin o := by
  simp only [origin, Tx.run_bind, Tx.run_find, Tx.run_demand, Tables.sessions_get] at h
  obtain ⟨_, _, ⟨rfl, rfl⟩, row, _, ⟨hrow, rfl⟩, h⟩ := h
  cases hidentity : row.externalIdentity with
  | none =>
    simp only [hidentity, Tx.run_bind, Tx.run_require, Tx.run_pure] at h
    obtain ⟨-, _, ⟨-, rfl⟩, rfl, rfl⟩ := h
    exact ⟨rfl, row, hrow, .own hidentity⟩
  | some identity =>
    simp only [hidentity, Tx.run_bind, Tx.run_demand, Tx.run_ofExcept, Tx.run_pure] at h
    obtain ⟨epoch, _, ⟨hepoch, rfl⟩, sequence, _, ⟨hsequence, rfl⟩, facts, _, ⟨hfacts, rfl⟩,
      decoded, _, ⟨hdecode, rfl⟩, rfl, rfl⟩ := h
    obtain ⟨hdecodable, rfl⟩ := AuthenticationFacts.decode_eq_ok.mp hdecode
    exact ⟨rfl, row, hrow, .upstream hidentity hepoch hfacts hsequence hdecodable⟩

/-- The tables back an origin for an account. -/
structure Db.Backs (db : Db) (key : AccountKey) (origin : Origin) (identity : ExternalIdentityRow)
    (provider : ProviderRow) : Prop where
  bound : db.externalIdentities.find? origin.identity = some identity
  configured : db.providers.find? identity.provider = some provider
  enabled : provider.enabled = true
  epoch : provider.revocationEpoch = origin.epoch
  version : provider.configVersion = origin.facts.providerConfigVersion
  principal : identity.principal = key

/-- The check of an origin succeeds exactly where the tables back it. -/
theorem run_checkOrigin {key : AccountKey} {o : Origin} {source : FactSource} :
    (checkOrigin env key o).run w = .ok (source, w') ↔
      w = w' ∧ ∃ identity provider, w.state.Backs key o identity provider ∧
        FactSource.new env.parsers identity.provider identity.issuer = some source := by
  simp only [checkOrigin, Tx.run_bind, Tx.run_find, Tx.run_demand, Tx.run_require,
    Tables.externalIdentities_get, Tables.providers_get]
  constructor
  · rintro ⟨_, _, ⟨rfl, rfl⟩, identity, _, ⟨hidentity, rfl⟩, _, _, ⟨rfl, rfl⟩, provider, _,
      ⟨hprovider, rfl⟩, -, _, ⟨⟨henabled, hepoch, hversion, hkey⟩, rfl⟩, hsource, rfl⟩
    exact ⟨rfl, identity, provider, ⟨hidentity, hprovider, henabled, hepoch, hversion, hkey⟩,
      hsource⟩
  · rintro ⟨rfl, identity, provider, h, hsource⟩
    exact ⟨_, _, ⟨rfl, rfl⟩, identity, _, ⟨h.bound, rfl⟩, _, _, ⟨rfl, rfl⟩, provider, _,
      ⟨h.configured, rfl⟩, (), _, ⟨⟨h.enabled, h.epoch, h.version, h.principal⟩, rfl⟩, hsource, rfl⟩

theorem run_identity {id : Uuid} {found : ProviderId × String × String}
    (h : (identity id).run w = .ok (found, w')) :
    w' = w ∧ ∃ row, w.state.externalIdentities.find? id = some row ∧
      found = (row.provider, row.issuer, row.subject) := by
  simp only [identity, Tx.run_bind, Tx.run_find, Tx.run_demand, Tx.run_pure,
    Tables.externalIdentities_get] at h
  obtain ⟨_, _, ⟨rfl, rfl⟩, row, _, ⟨hrow, rfl⟩, rfl, rfl⟩ := h
  exact ⟨rfl, row, hrow, rfl⟩

/-- An attempt is read at one clock reading, and matches what is presented at that time. -/
theorem run_oidcAttempt {locator : StateLocator} {state browser : String} {claimed : Bool}
    {found : OidcAttempt × Option (Secret × Secret)}
    (h : (oidcAttempt env locator state browser claimed).run w = .ok (found, w')) :
    w' = w.tick ∧ ∃ row, w.state.oidcTransactions.find? locator.id = some row ∧
      row.Presented env locator state browser claimed (seconds w.tick.clock) ∧
      found.1 = row.attemptView ∧
      (claimed = false → ∃ nonce verifier, row.nonce = some nonce ∧
        row.verifier = some verifier ∧ found.2 = some (nonce, verifier)) := by
  simp only [oidcAttempt, Tx.run_bind, Tx.run_find, Tx.run_demand, Tx.run_require, run_now,
    Tx.run_ite, Tx.run_pure, Tables.oidcTransactions_get] at h
  obtain ⟨_, _, ⟨rfl, rfl⟩, row, _, ⟨hrow, rfl⟩, _, _, ⟨rfl, rfl⟩, -, _, ⟨hpresented, rfl⟩, h⟩ := h
  rcases h with ⟨hclaimed, rfl, rfl⟩ | ⟨-, nonce, _, ⟨hnonce, rfl⟩, verifier, _, ⟨hverifier, rfl⟩,
    rfl, rfl⟩
  · exact ⟨rfl, row, hrow, hpresented, rfl, fun hfalse => by simp [hfalse] at hclaimed⟩
  · exact ⟨rfl, row, hrow, hpresented, rfl, fun _ => ⟨nonce, verifier, hnonce, hverifier, rfl⟩⟩

end IdentityAuthority
