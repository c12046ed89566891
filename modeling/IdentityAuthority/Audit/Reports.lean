import IdentityAuthority.Audit.Events
import IdentityAuthority.Operations.Link
import IdentityAuthority.Operations.Platform
import IdentityAuthority.Operations.Providers
import IdentityAuthority.Operations.Sessions
import IdentityAuthority.Operations.Webauthn
import IdentityAuthority.Operations.Accounts
import IdentityAuthority.Relational.Reporting

/-!
# What transactions report

The operations that settle security events, with the events they give. Each is the operation of its
name: it commits where that one does, and to the same state.
-/

namespace IdentityAuthority

open Relational

/-- Where events are reported from: the spelling of identifiers, and the tenant. -/
structure Reporter where
  ids : UuidFormat
  tenant : Uuid

namespace Reporter

variable (reporter : Reporter)

/-- A change of an account (`AccountEvent::account`). -/
def accountEvent (action : SecurityAction) (state : AccountState) (actor : Option AccountKey) :
    AccountEvent where
  action := action.wire
  tenant := reporter.ids.text reporter.tenant
  principal := state.key.uuid
  actor := actor.map PrincipalId.uuid
  epoch := state.epoch
  state := ⟨state.enabled, state.memberActive, state.membershipEpoch⟩

/-- A change of an account, as an event (`SecurityEvent::account`). -/
def account (action : SecurityAction) (state : AccountState) (actor : Option AccountKey) :
    SecurityEvent :=
  .account (reporter.accountEvent action state actor)

/-- An account that an actor of another tenant provisioned (`SecurityEvent::provisioned`). -/
def provisioned (state : AccountState) (actorTenant : Uuid) (actor : AccountKey)
    (instanceId : Uuid) : SecurityEvent :=
  .provisioned
    { account := reporter.accountEvent .accountCreated state (some actor)
      actorTenant := reporter.ids.text actorTenant
      actorInstance := reporter.ids.text instanceId }

/-- What happened to a session (`sessions::event`). -/
def session (action : SessionAction) (state : AccountState) (id : SessionId)
    (replaced : Option SessionId) (source : AuthenticationSource) : SecurityEvent :=
  .session
    { action
      tenant := reporter.ids.text reporter.tenant
      principal := state.key.uuid
      source
      session := id
      replaced
      epoch := state.epoch }

/-- An action at a provider, or through one (`federation::event`). -/
def federation {parsers : Parsers} (action : FederationAction) (view : ProviderView parsers)
    (principal : Option AccountKey) : SecurityEvent :=
  .federation
    { tenant := reporter.ids.text reporter.tenant
      action
      provider := view.id
      configVersion := view.version
      principal := principal.map PrincipalId.uuid
      diagnostic := none }

/-- What happened to the authenticators of an account (`step_up::event`). -/
def authentication (key : AccountKey) (action : AuthenticationAction) : SecurityEvent :=
  .authentication
    { tenant := reporter.ids.text reporter.tenant
      principal := key.uuid
      action }

/-- What happened to a profile (`profiles::event`). -/
def profile (event : ProfileEvent) : SecurityEvent :=
  .profile (reporter.ids.text reporter.tenant) event

end Reporter

/-- A transaction that reports what its value tells. -/
def reporting {σ α : Type} (m : Tx σ Failure α) (events : α → List SecurityEvent) :
    Tx σ Failure (α × List SecurityEvent) := do
  let a ← m
  pure (a, events a)

section Accounts

variable (env : Env) (reporter : Reporter)

/-- `initialize` with its event. -/
def initializeTenantReporting (key : AccountKey) (login hash : String) :
    Action (AccountState × List SecurityEvent) :=
  reporting (initializeTenant key login hash) fun state =>
    [reporter.account .accountCreated state none]

/-- `create_local_account` with its event. -/
def createLocalAccountReporting (actor : AuthenticatedSession) (login hash : String) :
    Action (AccountState × List SecurityEvent) :=
  reporting (createLocalAccount env actor login hash) fun state =>
    [reporter.account .accountCreated state (some actor.key)]

/-- `AccountProvisioner::create_local_account_in` with its event. -/
def provisionLocalAccountReporting (provisioner : AccountProvisioner) (target actorTenant : Uuid)
    (actor : AuthenticatedSession) (login hash : String) :
    Tx TwoTenants Failure (AccountState × List SecurityEvent) :=
  reporting (provisionLocalAccount env provisioner target actorTenant actor login hash) fun state =>
    [Reporter.provisioned ⟨reporter.ids, target⟩ state actorTenant actor.key env.instanceId]

/-- `apply_account_change` with its event: the transition says what it was. -/
def applyAccountChangeReporting (actor : AuthenticatedSession) (target : AccountKey)
    (change : AccountChange) (reauthentication : Option AuthenticationCandidate) :
    Action (AccountState × List SecurityEvent) := do
  let loaded ← recheck env actor
  recheckReauthentication env actor target reauthentication
  authorize env loaded (change.operation reauthentication.isSome) (some target)
  let old ← load target
  let (next, action) ← Tx.ofExcept (ofRule (old.state.transition change.localChange))
  setAccount next
  applyPassword env target change
  setMembership next
  pure (next, [reporter.account action next (some actor.key)])

/-- `recover_local_password` with its event. -/
def recoverLocalPasswordReporting (key : AccountKey) (hash : String) :
    Action (AccountState × List SecurityEvent) := do
  let old ← load key
  let (next, action) ← Tx.ofExcept (ofRule old.state.recover)
  let _ ← Tx.updateIn Tables.accounts (fun row => decide (row.principal = key))
    (fun row => { row with authEpoch := next.epoch }) .constraint
  setPassword env key hash
  pure (next, [reporter.account action next none])

/-- `update_local_profile` with its events: a repeated update has none. -/
def updateLocalProfileReporting (actor : AuthenticatedSession) (target : AccountKey)
    (change : ProfileChange) :
    Action ((ProfileReceipt × List ProfileEvent) × List SecurityEvent) :=
  reporting (updateLocalProfile env actor target change) fun settled =>
    settled.2.map reporter.profile

end Accounts

section Sessions

variable (env : Env) (reporter : Reporter)

/-- What a session says of how it was authenticated. -/
def SessionAuthentication.source : SessionAuthentication → AuthenticationSource
  | localPassword _ => .localPassword
  | oidc _ => .oidc
  | platform _ => .platform

/-- What the audit learns of an observation that was accepted. -/
def observedEvent (key : AccountKey) (observation : Observation) (snapshot : Uuid)
    (previous : Option Profile) (limits : ProfileLimits) : ProfileEvent where
  principal := key
  actor := none
  action := "observed"
  source := observation.source
  snapshot := some snapshot
  revision := observation.revision
  changedFields := changes previous (observation.profile.applyLimits limits)

/-- Stores what is left of an observation, with its event unless a newer one is there. -/
def storeObservationReporting (key : AccountKey) (session : SessionId) (observation : Observation)
    (expiresAt : ℤ) : Action (Unit × Option SecurityEvent) := do
  let snapshot ← newV4 env
  let previous ← Tx.find Tables.profileObservations (key, observation.source)
  let collectedAt ← Tx.clockTimestamp
  let accepted ← upsertObservation
    (observation.row env.profileLimits key snapshot collectedAt expiresAt)
  if accepted then do
    bindProfile session (some observation.source) (some snapshot)
    pure ((), some (reporter.profile (observedEvent key observation snapshot
      (previous.map ProfileObservationRow.value) env.profileLimits)))
  else pure ((), none)

/-- `accept` with its event. -/
def acceptReporting (key : AccountKey) (session : SessionId) (absolute : ℤ)
    (observation : Observation) : Action (Unit × Option SecurityEvent) := do
  Tx.require (observation.profile.valid = true) .corrupt
  let now ← now
  let expiresAt ← Tx.demand (observation.deadline env.profileLimits absolute) .corrupt
  if now < observation.sourceTime ∨ expiresAt ≤ now then pure ((), none)
  else storeObservationReporting env reporter key session observation expiresAt

/-- `create_session_for` with its events. -/
def createSessionForReporting (candidate : AuthenticationCandidate)
    (replacement : Option AuthenticatedSession) (kind : CredentialKind) :
    Action (IssuedSession × List SecurityEvent) := do
  Tx.require (∀ old ∈ replacement, old.key = candidate.state.key ∧
    old.view.credentialKind = kind) .rejected
  let state ← current env candidate
  let replaced ← recheckReplacement env replacement
  let now ← now
  let issued ← insertSession env state replaced (.localPassword candidate.authenticatedAt) now kind
  let observation ← localObservation candidate.state.key now
  let (_, observed) ← acceptReporting env reporter candidate.state.key issued.view.id
    issued.view.absoluteExpiresAt observation
  pure (issued, [reporter.session .created state issued.view.id replaced .localPassword] ++
    observed.toList)

/-- `refresh_session` with its event. -/
def refreshSessionReporting (old : Secret) : Action (IssuedSession × List SecurityEvent) := do
  let secret ← randomSecret env
  let loaded ← lookup env (env.sha256.secret old) .cookie env.platform
  let loaded ← touch loaded
  let _ ← Tx.updateIn Tables.sessionsUntracked
    (fun row => decide (row.session = loaded.view.id))
    (fun row => { row with tokenHash := env.sha256.secret secret }) .constraint
  pure ({ secret, view := loaded.view, now := loaded.now, state := loaded.state },
    [reporter.session .refreshed loaded.state loaded.view.id none loaded.source])

/-- Burns the epoch of an account, with its event, which has the new epoch. -/
def revokeAllReporting (actor : AuthenticatedSession) (loaded : Loaded) :
    Action (Unit × List SecurityEvent) := do
  let next ← Tx.ofExcept (ofRule loaded.state.revokeSessions)
  let _ ← Tx.updateIn Tables.accounts (fun row => decide (row.principal = loaded.state.key))
    (fun row => { row with authEpoch := next.epoch }) .constraint
  pure ((), [reporter.session .allRevoked next actor.view.id none loaded.source])

/-- `revoke_session` with its event. -/
def revokeSessionReporting (actor : AuthenticatedSession) (all : Bool) :
    Action (Unit × List SecurityEvent) := do
  let loaded ← recheck env actor
  if all then revokeAllReporting reporter actor loaded
  else reporting (close actor.view.id loaded.now) fun _ =>
    [reporter.session .revoked loaded.state actor.view.id none loaded.source]

end Sessions

section Providers

variable (env : Env) (reporter : Reporter)

/-- `persist_create_provider` with its event. -/
def createProviderReporting (actor : AuthenticatedSession)
    (settings : ProviderSettings env.parsers) (credentials : ℕ) (profile : Digest) :
    Action (ProviderView env.parsers × List SecurityEvent) :=
  reporting (createProvider env actor settings credentials profile) fun view =>
    [reporter.federation .providerCreated view (some actor.key)]

/-- What an edit of a provider is reported as. -/
def ProviderEdit.action {parsers : Parsers} : ProviderEdit parsers → FederationAction
  | settings _ _ _ => .providerUpdated
  | enabled true => .providerEnabled
  | enabled false => .providerDisabled

/-- `edit_provider` with its event. -/
def editProviderReporting (actor : AuthenticatedSession) (id : ProviderId) (expected : ℤ)
    (edit : ProviderEdit env.parsers) :
    Action (ProviderView env.parsers × List SecurityEvent) :=
  reporting (editProvider env actor id expected edit) fun view =>
    [reporter.federation edit.action view (some actor.key)]

/-- The event of a test: a failed one comes with its diagnostic. -/
def Reporter.tested {parsers : Parsers} (view : ProviderView parsers) (actor : AccountKey)
    (result : Except FederationError Unit) : SecurityEvent :=
  .federation
    { tenant := reporter.ids.text reporter.tenant
      action :=
        match result with
        | .ok _ => .providerTested
        | .error _ => .providerTestFailed
      provider := view.id
      configVersion := view.version
      principal := some actor.uuid
      diagnostic :=
        match result with
        | .ok _ => none
        | .error error => some error.diagnostic }

/-- Reports the test of a provider that is still at the version it was tested at; it changes
nothing (the last transaction of `persist_test_provider`). -/
def persistTestReporting (actor : AuthenticatedSession) (id : ProviderId)
    (view : ProviderView env.parsers) (result : Except FederationError Unit) :
    Action (Unit × List SecurityEvent) := do
  let loaded ← recheck env actor
  authorize env loaded (.testProvider id) none
  let current ← provider env id
  Tx.require (current.version = view.version) (.federation .staleConfiguration)
  pure ((), [reporter.tested view actor.key result])

/-- The account a verified subject is bound to, or a new one, with its event. -/
def entraAccountReporting (view : ProviderView env.parsers) (subject : String) :
    Action (AccountKey × List SecurityEvent) := do
  let bound ← Tx.select Tables.externalIdentities fun row =>
    decide (row.provider = view.id ∧ row.issuer = view.settings.input.issuer ∧
      row.subject = subject)
  match bound.head? with
  | some row => pure (row.principal, [])
  | none => do
    Tx.require (view.settings.input.jit = true) (.federation .rejected)
    let principal ← newV4 env
    insertFederatedAccount ⟨principal⟩
    let identity ← newV4 env
    Tx.insertInto Tables.externalIdentities
      { identity
        principal := ⟨principal⟩
        provider := view.id
        issuer := view.settings.input.issuer
        subject } .constraint
    pure (⟨principal⟩, [reporter.federation .jitCreated view (some ⟨principal⟩)])

/-- `resolve` with its event: an account that was there already has none. -/
def resolveEntraReporting (verified : VerifiedExternalSubject) :
    Action (AccountState × List SecurityEvent) := do
  let view ← provider env verified.provider
  Tx.ofExcept (ofFederation (checkCurrent verified view))
  let (key, events) ← entraAccountReporting env reporter view
    (verified.subject.storageKey env.parsers)
  let stored ← load key
  Tx.require (stored.state.active = true) .rejected
  pure (stored.state, events)

end Providers

section Reconciliation

variable {env : Env} {reporter : Reporter} {profile : ProviderSettings env.parsers → Digest}
  {w w' : Tenant}

/-- Brings providers to their current profiles one by one, until the transaction has as many
events as it may. -/
def reconcileReporting (env : Env) (reporter : Reporter)
    (profile : ProviderSettings env.parsers → Digest) :
    List ProviderId → List SecurityEvent → Action (Bool × List SecurityEvent)
  | [], events => pure (false, events)
  | id :: ids, events => do
    let view ← provider env id
    if profile view.settings = view.assuranceProfile then
      reconcileReporting env reporter profile ids events
    else do
      let next ← Tx.ofExcept (view.reconciled (profile view.settings))
      storeProvider next
      let events := events ++ [reporter.federation .providerUpdated next none]
      if events.length = maxMutationEvents then pure (true, events)
      else reconcileReporting env reporter profile ids events

/-- One transaction of `reconcile_assurance_profiles`, with its events; it says whether another one
must follow. -/
def reconcileBatch (env : Env) (reporter : Reporter)
    (profile : ProviderSettings env.parsers → Digest) : Action (Bool × List SecurityEvent) := do
  let rows ← Tx.select Tables.providers fun _ => true
  let ids := (rows.map ProviderRow.provider).insertionSort fun p q => p.uuid.value ≤ q.uuid.value
  Tx.require (ids.length ≤ maxProviders) .rejected
  reconcileReporting env reporter profile ids []

/-- A step of the scan: the provider is as it should be, or it is brought there and reported. -/
theorem run_reconcileReporting_cons {id : ProviderId} {ids : List ProviderId}
    {events events' : List SecurityEvent} {more : Bool} :
    (reconcileReporting env reporter profile (id :: ids) events).run w = .ok ((more, events'), w') ↔
      ∃ view, (provider env id).run w = .ok (view, w) ∧
        ((profile view.settings = view.assuranceProfile ∧
            (reconcileReporting env reporter profile ids events).run w =
              .ok ((more, events'), w')) ∨
          profile view.settings ≠ view.assuranceProfile ∧
            ∃ next w₁, view.reconciled (profile view.settings) = .ok next ∧
              (storeProvider next).run w = .ok ((), w₁) ∧
              (if events.length + 1 = maxMutationEvents then
                more = true ∧
                  events' = events ++ [reporter.federation .providerUpdated next none] ∧ w' = w₁
              else
                (reconcileReporting env reporter profile ids
                    (events ++ [reporter.federation .providerUpdated next none])).run w₁ =
                  .ok ((more, events'), w'))) := by
  simp only [reconcileReporting, Tx.run_bind, Tx.run_ite, Tx.run_ofExcept, Tx.run_pure,
    List.length_append, List.length_singleton, Prod.mk.injEq]
  constructor
  · rintro ⟨view, w₁, hview, h⟩
    obtain ⟨rfl, -, -⟩ := run_provider hview
    refine ⟨view, hview, ?_⟩
    rcases h with ⟨hsame, h⟩ | ⟨hsame, next, _, ⟨hnext, rfl⟩, u, w₂, hstore, h⟩
    · exact .inl ⟨hsame, h⟩
    · refine .inr ⟨hsame, next, w₂, hnext, hstore, ?_⟩
      rcases h with ⟨hfull, ⟨rfl, rfl⟩, rfl⟩ | ⟨hfull, h⟩
      · rw [if_pos hfull]
        exact ⟨rfl, rfl, rfl⟩
      · rw [if_neg hfull]
        exact h
  · rintro ⟨view, hview, h⟩
    refine ⟨view, w, hview, ?_⟩
    rcases h with ⟨hsame, h⟩ | ⟨hsame, next, w₁, hnext, hstore, h⟩
    · exact .inl ⟨hsame, h⟩
    · refine .inr ⟨hsame, next, w, ⟨hnext, rfl⟩, (), w₁, hstore, ?_⟩
      split at h
      next hfull =>
        obtain ⟨rfl, rfl, rfl⟩ := h
        exact .inl ⟨hfull, ⟨rfl, rfl⟩, rfl⟩
      next hfull => exact .inr ⟨hfull, h⟩

end Reconciliation

section Logins

variable (env : Env) (reporter : Reporter)

/-- The grant of a step-up, with its event. -/
def commitStepUpReporting (committing : CommittingAttempt env) (claims : UpstreamClaims) :
    Action (FederatedOutcome × List SecurityEvent) :=
  reporting (commitStepUp env committing claims) fun _ =>
    [reporter.authentication committing.state.key .verified]

/-- The new session of a link, with its events. -/
def commitLinkReporting (committing : CommittingAttempt env) :
    Action (FederatedOutcome × List SecurityEvent) := do
  let id ← Tx.demand committing.attempt.link .rejected
  let found ← intent id
  Tx.require (found.stage = .targetReady ∧ found.target = committing.view.id ∧
    found.version = committing.view.version) .rejected
  let state ← Tx.ofExcept (ofRule committing.state.revokeSessions)
  setAuthEpoch state
  advance id .targetReady
  checkIntentOrigin env state.key found.origin
  let authentication ← Tx.ofExcept found.authentication
  let issued ← insertSession env state (some found.session) authentication committing.now .cookie
  retainBinding state.key found.session issued.view.id
  requireUnexpired committing.attempt
  consumeAttempt committing.locator
  pure (.session issued committing.attempt.returnUrl (some committing.alreadyBound),
    [reporter.federation (if committing.alreadyBound then .alreadyLinked else .linked)
        committing.view (some committing.state.key),
      reporter.session .created state issued.view.id (some found.session) authentication.source])

/-- The session of a login, with its events. An identity that was not bound before came with a new
account. -/
def commitLoginReporting (committing : CommittingAttempt env) (claims : UpstreamClaims) :
    Action (FederatedOutcome × List SecurityEvent) := do
  Tx.require (∀ actor ∈ committing.actor, actor.state.key = committing.state.key) .rejected
  let factsSequence ← profileSequence
  let facts ← collectFacts env claims committing.view committing.now
  let issued ← insertSession env committing.state committing.attempt.replacement
    (.oidc { identity := committing.identity, epoch := committing.view.revocationEpoch, facts,
             factsSequence }) committing.now .cookie
  requireUnexpired committing.attempt
  let (_, observed) ← acceptReporting env reporter committing.state.key issued.view.id
    issued.view.absoluteExpiresAt
    (oidcObservation claims committing.view committing.attempt.profileSequence)
  consumeAttempt committing.locator
  pure (.session issued committing.attempt.returnUrl none,
    [reporter.federation (if committing.alreadyBound then .loggedIn else .jitCreated)
        committing.view (some committing.state.key),
      reporter.session .created committing.state issued.view.id committing.attempt.replacement
        .oidc] ++ observed.toList)

/-- The second transaction of `complete` with its events. -/
def commitAttemptReporting (held : ClaimedAttempt env) (claims : UpstreamClaims) :
    Action (FederatedOutcome × List SecurityEvent) := do
  Tx.require (exchangeAccepted env held claims = true) (.federation .claims)
  Tx.require (held.attempt.purpose ≠ .reauthenticate) .rejected
  let committing ← prepareCommit env held claims
  if committing.attempt.mode = .stepUp then commitStepUpReporting env reporter committing claims
  else if committing.attempt.purpose = .link then commitLinkReporting env reporter committing
  else commitLoginReporting env reporter committing claims

/-- The last transaction of `finish_reauthentication` with its event. -/
def finishReauthenticationReporting (held : ClaimedAttempt env) (claims : UpstreamClaims)
    (target : ProviderView env.parsers) : Action (FederatedOutcome × List SecurityEvent) := do
  Tx.require (exchangeAccepted env held claims = true) (.federation .claims)
  Tx.require (held.attempt.purpose = .reauthenticate) .rejected
  Tx.require (assuranceProfileCurrent env target = true) (.federation .staleConfiguration)
  let id ← Tx.demand held.attempt.link .rejected
  let (locator, material) ← newMaterial env .link
  let (attempt, _) ← oidcAttempt env held.locator held.callback.state held.callback.browser true
  let currentSource ← provider env held.view.id
  Tx.ofExcept (ofFederation (exact currentSource held.view.version))
  let _ ← checkActor env attempt held.callback.session
  let found ← intent id
  let origin ← Tx.demand found.origin .rejected
  let _ ← checkOrigin env found.principal origin
  let source ← identity origin.identity
  let now ← now
  Tx.require (ProvesSource env held claims source attempt.created now) (.federation .claims)
  let facts ← collectFacts env claims held.view now
  let facts ← Tx.ofExcept (facts.encode env.factsSize)
  let sequence ← profileSequence
  setSourceFacts id facts sequence
  advance id .reauthenticationRequired
  consumeAttempt held.locator
  insertAttempt env
    { context := none
      mode := .login
      locator
      material
      provider := target
      browser := held.callback.browser
      returnUrl := attempt.returnUrl
      link := some id
      replacement := none
      expiry := some found.expiry }
  pure (.redirect locator, [reporter.federation .reauthenticated held.view (some found.principal)])

/-- Accepts an observation with a session, if there is one, with its event. -/
def acceptObservationReporting (key : AccountKey) (issued : IssuedSession)
    (observation : Option Observation) : Action (Unit × Option SecurityEvent) :=
  match observation with
  | some observation =>
    acceptReporting env reporter key issued.view.id issued.view.absoluteExpiresAt observation
  | none => pure ((), none)

/-- The second transaction of `complete_platform_login` with its events. -/
def completePlatformLoginReporting (id : Uuid) (nonce : Secret) (browser : String)
    (context : PlatformChallengeContext) (evidence : PlatformEvidence) :
    Action (PlatformLogin × List SecurityEvent) := do
  Tx.require (browserValid browser = true) (.federation .rejected)
  let verifier ← Tx.demand env.platform (.federation .configuration)
  Tx.require (evidence.accepted = true) .rejected
  let authentication := context.authentication evidence
  let row ← readChallenge env id nonce browser
  Tx.require (row.binding = authentication.binding ∧ row.audience = authentication.audience)
    .rejected
  let stored ← load row.binding.account
  Tx.require (stored.state.active = true ∧ stored.state.epoch = row.authEpoch ∧
    stored.state.membershipEpoch = row.membershipEpoch) .rejected
  recheckPlatform env row.binding.account authentication env.platform
  Tx.require (row.purpose = context.purpose) .rejected
  let world ← Tx.world
  Tx.require (verifier.authorizePurpose row.binding row.purpose world = true) .rejected
  let target ← Tx.ofExcept (enterpriseTarget (env.enterprise world) row.purpose .rejected)
  Tx.require (row.target = target) .rejected
  let instant ← now
  Tx.require (∀ t ∈ authentication.authenticatedAt,
    saturatingSub context.createdAt 30 ≤ t ∧ t ≤ instant) .rejected
  let observation ← platformObservation env evidence.profile context.createdAt row instant
  let issued ← insertSession env stored.state none (.platform authentication) instant .cookie
  let assertion ← issueFor env (env.enterprise world) target authentication instant
    (min issued.view.absoluteExpiresAt issued.view.idleExpiresAt)
  let (_, observed) ← acceptObservationReporting env reporter row.binding.account issued observation
  let instant ← now
  Tx.require (instant < row.expiresAt) .rejected
  let _ ← Tx.deleteFrom Tables.platformChallenges (fun row => decide (row.challenge = id))
    .constraint
  pure ({ session := issued, assertion },
    [reporter.session .created stored.state issued.view.id none .platform] ++ observed.toList)

end Logins

section Webauthn

variable (env : Env) (reporter : Reporter)

/-- What a registration is reported as. -/
def Ceremony.registered : Ceremony → AuthenticationAction
  | register _ _ true _ _ _ => .recovered
  | _ => .registered

/-- `finish_registration` with its event. -/
def finishRegistrationReporting (this : WebauthnAuthority) (actor : AuthenticatedSession)
    (id : Uuid) (snapshot : CeremonySnapshot) (response : ℕ) : Action (Uuid × List SecurityEvent) :=
  reporting (finishRegistration env this actor id snapshot response) fun _ =>
    [reporter.authentication actor.key snapshot.ceremony.registered]

/-- `finish_authentication` with its event. -/
def finishAuthenticationReporting (this : WebauthnAuthority) (actor : AuthenticatedSession)
    (id : Uuid) (snapshot : CeremonySnapshot) (response : ℕ) :
    Action (StepUpGrant × List SecurityEvent) :=
  reporting (finishAuthentication env this actor id snapshot response) fun _ =>
    [reporter.authentication actor.key .verified]

/-- `remove` with its event. -/
def removeCredentialReporting (this : WebauthnAuthority) (actor : AuthenticatedSession)
    (id : Uuid) (grant : Secret) : Action (Unit × List SecurityEvent) :=
  reporting (removeCredential env this actor id grant) fun _ =>
    [reporter.authentication actor.key .removed]

end Webauthn

section Reports

variable {env : Env} {reporter : Reporter}

/-- What the value tells of a transaction is beside it. -/
theorem reporting_reports {σ α : Type} (m : Tx σ Failure α) (events : α → List SecurityEvent) :
    (reporting m events).Reports m :=
  .attach m events

theorem applyAccountChange_reports {actor : AuthenticatedSession} {target : AccountKey}
    {change : AccountChange} {reauthentication : Option AuthenticationCandidate} :
    (applyAccountChangeReporting env reporter actor target change reauthentication).Reports
      (applyAccountChange env actor target change reauthentication) := by
  refine .after fun loaded => .after fun _ => .after fun _ => .after fun old => .after ?_
  rintro ⟨next, action⟩
  exact .after fun _ => .after fun _ => .after fun _ => .of_pure

theorem recoverLocalPassword_reports {key : AccountKey} {hash : String} :
    (recoverLocalPasswordReporting env reporter key hash).Reports
      (recoverLocalPassword env key hash) := by
  refine .after fun old => .after ?_
  rintro ⟨next, action⟩
  exact .after fun _ => .after fun _ => .of_pure

/-- The value that an observation replaces is read for its event only. -/
theorem storeObservation_reports {key : AccountKey} {session : SessionId}
    {observation : Observation} {expiresAt : ℤ} :
    (storeObservationReporting env reporter key session observation expiresAt).Reports
      (storeObservation env key session observation expiresAt) := by
  refine .after fun snapshot => .look fun previous => .after fun collectedAt =>
    .after fun accepted => .ite ?_ .of_pure
  exact .attach _ _

theorem accept_reports {key : AccountKey} {session : SessionId} {absolute : ℤ}
    {observation : Observation} :
    (acceptReporting env reporter key session absolute observation).Reports
      (accept env key session absolute observation) :=
  .after fun _ => .after fun _ => .after fun _ => .ite .of_pure storeObservation_reports

theorem createSessionFor_reports {candidate : AuthenticationCandidate}
    {replacement : Option AuthenticatedSession} {kind : CredentialKind} :
    (createSessionForReporting env reporter candidate replacement kind).Reports
      (createSessionFor env candidate replacement kind) :=
  .after fun _ => .after fun _ => .after fun _ => .after fun _ => .after fun _ =>
    .after fun _ => .bind accept_reports fun _ _ => .of_pure

theorem refreshSession_reports {old : Secret} :
    (refreshSessionReporting env reporter old).Reports (refreshSession env old) :=
  .after fun _ => .after fun _ => .after fun _ => .after fun _ => .of_pure

theorem revokeSession_reports {actor : AuthenticatedSession} {all : Bool} :
    (revokeSessionReporting env reporter actor all).Reports (revokeSession env actor all) := by
  refine .after fun loaded => .ite ?_ (reporting_reports _ _)
  exact .after fun next => .after fun _ => .of_pure

/-- The account of an identity that is bound already has nothing to report. -/
theorem entraAccount_reports {view : ProviderView env.parsers} {subject : String} :
    (entraAccountReporting env reporter view subject).Reports (entraAccount env view subject) := by
  refine .after fun bound => ?_
  cases bound.head? with
  | some row => exact .of_pure
  | none =>
    exact .after fun _ => .after fun principal => .after fun _ => .after fun identity =>
      .after fun _ => .of_pure

theorem resolveEntra_reports {verified : VerifiedExternalSubject} :
    (resolveEntraReporting env reporter verified).Reports (resolveEntra env verified) :=
  .after fun _ => .after fun _ => .bind entraAccount_reports fun _ _ =>
    .after fun _ => .after fun _ => .of_pure

/-- A step of the scan without its events. -/
theorem run_reconcileProviders_cons {profile : ProviderSettings env.parsers → Digest}
    {id : ProviderId} {ids : List ProviderId} {reported : ℕ} {more : Bool} {w w' : Tenant} :
    (reconcileProviders env profile (id :: ids) reported).run w = .ok (more, w') ↔
      ∃ view, (provider env id).run w = .ok (view, w) ∧
        ((profile view.settings = view.assuranceProfile ∧
            (reconcileProviders env profile ids reported).run w = .ok (more, w')) ∨
          profile view.settings ≠ view.assuranceProfile ∧
            ∃ next w₁, view.reconciled (profile view.settings) = .ok next ∧
              (storeProvider next).run w = .ok ((), w₁) ∧
              (if reported + 1 = maxMutationEvents then more = true ∧ w' = w₁
              else (reconcileProviders env profile ids (reported + 1)).run w₁ =
                .ok (more, w'))) := by
  rw [reconcileProviders]
  simp only [reconcileProvider, Tx.run_bind, Tx.run_ite, Tx.run_ofExcept, Tx.run_pure]
  constructor
  · rintro ⟨changed, w₂, ⟨view, w₁, hview, hchanged⟩, h⟩
    obtain ⟨rfl, -, -⟩ := run_provider hview
    refine ⟨view, hview, ?_⟩
    rcases hchanged with ⟨hsame, rfl, rfl⟩ | ⟨hsame, next, _, ⟨hnext, rfl⟩, u, w₂, hstore, rfl, rfl⟩
    · exact .inl ⟨hsame, by simpa using h⟩
    · refine .inr ⟨hsame, next, w₂, hnext, hstore, ?_⟩
      simp only [true_and, if_true] at h
      rcases h with ⟨hfull, rfl, rfl⟩ | ⟨hfull, h⟩
      · rw [if_pos hfull]
        exact ⟨rfl, rfl⟩
      · rw [if_neg hfull]
        exact h
  · rintro ⟨view, hview, h⟩
    rcases h with ⟨hsame, h⟩ | ⟨hsame, next, w₁, hnext, hstore, h⟩
    · exact ⟨false, w, ⟨view, w, hview, .inl ⟨hsame, rfl, rfl⟩⟩, by simpa using h⟩
    · refine ⟨true, w₁, ⟨view, w, hview, .inr ⟨hsame, next, w, ⟨hnext, rfl⟩, (), w₁, hstore, rfl,
        rfl⟩⟩, ?_⟩
      simp only [true_and, if_true]
      split at h
      next hfull => exact .inl ⟨hfull, h.1, h.2.symm⟩
      next hfull => exact .inr ⟨hfull, h⟩

/-- The scan counts the events it has. -/
theorem reconcileReporting_reports {profile : ProviderSettings env.parsers → Digest}
    (ids : List ProviderId) : ∀ events : List SecurityEvent,
    (reconcileReporting env reporter profile ids events).Reports
      (reconcileProviders env profile ids events.length) := by
  induction ids with
  | nil => exact fun _ => .of_pure
  | cons id ids ih =>
    intro events w more w'
    rw [run_reconcileProviders_cons]
    simp only [run_reconcileReporting_cons]
    constructor
    · rintro ⟨view, hview, h⟩
      rcases h with ⟨hsame, h⟩ | ⟨hsame, next, w₁, hnext, hstore, h⟩
      · obtain ⟨events', h⟩ := (ih events _ _ _).mp h
        exact ⟨events', view, hview, .inl ⟨hsame, h⟩⟩
      · by_cases hfull : events.length + 1 = maxMutationEvents
        · rw [if_pos hfull] at h
          obtain ⟨rfl, rfl⟩ := h
          refine ⟨events ++ [reporter.federation .providerUpdated next none], view, hview,
            .inr ⟨hsame, next, w', hnext, hstore, ?_⟩⟩
          rw [if_pos hfull]
          exact ⟨rfl, rfl, rfl⟩
        · rw [if_neg hfull] at h
          have hscan := ih (events ++ [reporter.federation .providerUpdated next none]) w₁ more w'
          rw [List.length_append, List.length_singleton] at hscan
          obtain ⟨events', h⟩ := hscan.mp h
          refine ⟨events', view, hview, .inr ⟨hsame, next, w₁, hnext, hstore, ?_⟩⟩
          rw [if_neg hfull]
          exact h
    · rintro ⟨events', view, hview, h⟩
      refine ⟨view, hview, ?_⟩
      rcases h with ⟨hsame, h⟩ | ⟨hsame, next, w₁, hnext, hstore, h⟩
      · exact .inl ⟨hsame, (ih events _ _ _).mpr ⟨events', h⟩⟩
      · refine .inr ⟨hsame, next, w₁, hnext, hstore, ?_⟩
        by_cases hfull : events.length + 1 = maxMutationEvents
        · rw [if_pos hfull] at h ⊢
          exact ⟨h.1, h.2.2⟩
        · rw [if_neg hfull] at h ⊢
          have hscan := ih (events ++ [reporter.federation .providerUpdated next none]) w₁ more w'
          rw [List.length_append, List.length_singleton] at hscan
          exact hscan.mpr ⟨events', h⟩

theorem reconcileBatch_reports {profile : ProviderSettings env.parsers → Digest} :
    (reconcileBatch env reporter profile).Reports (reconcileAssuranceProfiles env profile) :=
  .after fun _ => .after fun _ => reconcileReporting_reports _ []

theorem commitLink_reports {committing : CommittingAttempt env} :
    (commitLinkReporting env reporter committing).Reports (commitLink env committing) :=
  .after fun _ => .after fun _ => .after fun _ => .after fun _ => .after fun _ => .after fun _ =>
    .after fun _ => .after fun _ => .after fun _ => .after fun _ => .after fun _ =>
    .after fun _ => .of_pure

theorem commitLogin_reports {committing : CommittingAttempt env} {claims : UpstreamClaims} :
    (commitLoginReporting env reporter committing claims).Reports
      (commitLogin env committing claims) :=
  .after fun _ => .after fun _ => .after fun _ => .after fun _ => .after fun _ =>
    .bind accept_reports fun _ _ => .after fun _ => .of_pure

theorem commitAttempt_reports {held : ClaimedAttempt env} {claims : UpstreamClaims} :
    (commitAttemptReporting env reporter held claims).Reports (commitAttempt env held claims) :=
  .after fun _ => .after fun _ => .after fun _ =>
    .ite (reporting_reports _ _) (.ite commitLink_reports commitLogin_reports)

theorem finishReauthentication_reports {held : ClaimedAttempt env} {claims : UpstreamClaims}
    {target : ProviderView env.parsers} :
    (finishReauthenticationReporting env reporter held claims target).Reports
      (finishReauthentication env held claims target) := by
  refine .after fun _ => .after fun _ => .after fun _ => .after fun id => .after ?_
  rintro ⟨locator, material⟩
  refine .after ?_
  rintro ⟨attempt, secrets⟩
  refine .after fun _ => .after fun _ => .after fun _ => .after fun found => .after fun _ =>
    .after fun _ => .after fun _ => .after fun _ => .after fun _ => .after fun _ => .after fun _ =>
    .after fun _ => .after fun _ => .after fun _ => .after fun _ => .after fun _ => .of_pure

theorem acceptObservation_reports {key : AccountKey} {issued : IssuedSession}
    {observation : Option Observation} :
    (acceptObservationReporting env reporter key issued observation).Reports
      (acceptObservation env key issued observation) := by
  cases observation with
  | some observation => exact accept_reports
  | none => exact .of_pure

theorem completePlatformLogin_reports {id : Uuid} {nonce : Secret} {browser : String}
    {context : PlatformChallengeContext} {evidence : PlatformEvidence} :
    (completePlatformLoginReporting env reporter id nonce browser context evidence).Reports
      (completePlatformLogin env id nonce browser context evidence) :=
  .after fun _ => .after fun _ => .after fun _ => .after fun _ => .after fun _ => .after fun _ =>
    .after fun _ => .after fun _ => .after fun _ => .after fun _ => .after fun _ => .after fun _ =>
    .after fun _ => .after fun _ => .after fun _ => .after fun _ => .after fun _ => .after fun _ =>
    .bind acceptObservation_reports fun _ _ => .after fun _ => .after fun _ => .after fun _ =>
    .of_pure

end Reports

end IdentityAuthority
