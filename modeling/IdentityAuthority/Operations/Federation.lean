import IdentityAuthority.Storage.LinkIntents
import IdentityAuthority.Storage.Management
import IdentityAuthority.Storage.Profiles
import IdentityAuthority.Storage.StepUp

/-!
# Federation attempts

An attempt is begun, claimed by one completion, exchanged at the upstream outside of any
transaction, and committed. Its result is a session, a step-up grant, a linked identity, or
the redirect to the target of a link.
-/

namespace IdentityAuthority

open Relational

/-- `check_browser`: 43 characters of the URL-safe alphabet. -/
def browserValid (browser : String) : Bool :=
  decide (browser.utf8ByteSize = 43) &&
    browser.toList.all fun c => c.isAlphanum || c = '_' || c = '-'

/-- The deployment still interprets the provider's assurance as it did when the provider was
stored (`check_assurance_profile`). -/
def assuranceProfileCurrent (env : Env) (view : ProviderView env.parsers) : Bool :=
  decide ((env.assuranceProfile view.settings).fingerprint = view.assuranceProfile)

/-- The provider can prove a step-up for an account (`check_step_up`). -/
def checkStepUp (env : Env) (key : AccountKey) (view : ProviderView env.parsers) :
    Action Unit := do
  Tx.require (assuranceProfileCurrent env view = true) (.federation .staleConfiguration)
  Tx.require (view.enabled = true ∧
    (env.assuranceProfile view.settings).supportsStepUp = true) (.federation .rejected)
  let linked ← Tx.exists? Tables.externalIdentities fun row =>
    decide (row.principal = key ∧ row.provider = view.id ∧
      row.issuer = view.settings.input.issuer)
  Tx.require (linked = true) (.federation .rejected)

/-- Reads the provider a step-up is begun with, for a rechecked actor. -/
def readStepUpProvider (env : Env) (actor : AuthenticatedSession) (id : ProviderId) :
    Action (ProviderView env.parsers) := do
  let _ ← recheck env actor
  let view ← provider env id
  checkStepUp env actor.key view
  pure view

/-- Draws the state of a new attempt and the secrets of its exchange. Nothing reads them before
the attempt is inserted, so they are drawn by the transaction that inserts it. -/
def newMaterial (env : Env) (purpose : Purpose) : Action (StateLocator × ProtocolMaterial) := do
  let draw ← Tx.random env.entropy
  let nonce ← randomSecret env
  let verifier ← randomSecret env
  let locator : StateLocator := ⟨⟨draw⟩, purpose⟩
  pure (locator, { state := env.signer.issue locator, nonce, verifier })

/-- A login to begin. -/
structure LoginRequest where
  browser : String
  returnUrl : String
  replacement : Option AuthenticatedSession

/-- The session an attempt will replace, rechecked; a step-up is rechecked at its provider. -/
def attemptReplacement (env : Env) (request : LoginRequest) (mode : AuthenticationMode)
    (view : ProviderView env.parsers) : Action (Option SessionId) :=
  match request.replacement with
  | none => pure none
  | some proof => do
    let loaded ← recheck env proof
    if mode = .stepUp then do
      let current ← provider env view.id
      Tx.ofExcept (ofFederation (exact current view.version))
      checkStepUp env proof.key current
      pure (some loaded.view.id)
    else pure (some loaded.view.id)

/-- Begins a login, or a step-up for an operation, at a provider that was read before
(`begin_authentication`). -/
def beginFederated (env : Env) (request : LoginRequest) (mode : AuthenticationMode)
    (context : Option StepUpContext) (view : ProviderView env.parsers) : Action StateLocator := do
  Tx.require (mode ≠ .reauthenticate) .rejected
  Tx.require (∀ proof ∈ request.replacement, proof.view.credentialKind = .cookie) .rejected
  Tx.require (browserValid request.browser = true) (.federation .rejected)
  Tx.require (env.returnUrls request.returnUrl = true) (.federation .configuration)
  Tx.require (mode = .stepUp → request.replacement.isSome = true) (.federation .rejected)
  Tx.require (assuranceProfileCurrent env view = true) (.federation .staleConfiguration)
  Tx.require (view.enabled = true) (.federation .rejected)
  let (locator, material) ← newMaterial env .login
  let replacement ← attemptReplacement env request mode view
  insertAttempt env
    { context
      mode
      locator
      material
      provider := view
      browser := request.browser
      returnUrl := request.returnUrl
      link := none
      replacement
      expiry := none }
  pure locator

/-- What a browser presents to end or complete an attempt. -/
structure Callback where
  state : String
  browser : String
  issuer : String
  session : Option Digest
deriving DecidableEq

/-- Ends an attempt that the upstream rejected (`cancel`). -/
def cancelAttempt (env : Env) (callback : Callback) : Action Unit := do
  Tx.require (browserValid callback.browser = true) (.federation .rejected)
  let locator ← Tx.demand (env.signer.verify callback.state) (.federation .rejected)
  let (attempt, _) ← oidcAttempt env locator callback.state callback.browser false
  let view ← provider env attempt.provider
  Tx.ofExcept (ofFederation (exact view attempt.version))
  Tx.require (view.settings.input.issuer = callback.issuer) (.federation .claims)
  let _ ← checkActor env attempt callback.session
  consumeAttempt locator

/-- The provider can still prove a step-up for the actor of a step-up attempt. -/
def recheckStepUp (env : Env) (attempt : OidcAttempt) (actor : Option Loaded)
    (view : ProviderView env.parsers) : Action Unit :=
  if attempt.mode = .stepUp then do
    let actor ← Tx.demand actor .rejected
    checkStepUp env actor.state.key view
  else pure ()

/-- A claimed attempt, with the secrets of its exchange. -/
structure ClaimedAttempt (env : Env) where
  callback : Callback
  locator : StateLocator
  attempt : OidcAttempt
  view : ProviderView env.parsers
  material : ProtocolMaterial

/-- Claims an attempt: from here on its secrets are held by the caller alone (the first
transaction of `complete`). -/
def claimAttempt (env : Env) (callback : Callback) : Action (ClaimedAttempt env) := do
  Tx.require (browserValid callback.browser = true) (.federation .rejected)
  let locator ← Tx.demand (env.signer.verify callback.state) (.federation .rejected)
  let (attempt, secrets) ← oidcAttempt env locator callback.state callback.browser false
  let view ← provider env attempt.provider
  Tx.ofExcept (ofFederation (exact view attempt.version))
  Tx.require (view.settings.input.issuer = callback.issuer) (.federation .claims)
  let actor ← checkActor env attempt callback.session
  recheckStepUp env attempt actor view
  let (nonce, verifier) ← Tx.demand secrets .corrupt
  let _ ← Tx.updateIn Tables.oidcTransactions (fun row => decide (row.attempt = locator.id))
    (fun row => { row with claimed := true, nonce := none, verifier := none }) .constraint
  pure { callback, locator, attempt, view,
         material := { state := callback.state, nonce, verifier } }

/-- The upstream's answer is one the completion goes on with. -/
def exchangeAccepted (env : Env) (held : ClaimedAttempt env) (claims : UpstreamClaims) : Bool :=
  assuranceProfileCurrent env held.view && env.returnUrls held.attempt.returnUrl &&
    claims.valid && claims.subject.matchesMapping held.view.settings.input.claims.subject &&
    decide (claims.issuer = held.view.settings.input.issuer)

/-- The upstream identity of verified claims, if it is bound already. -/
def boundIdentity (env : Env) (view : ProviderView env.parsers) (claims : UpstreamClaims) :
    Action (Option ExternalIdentityRow) := do
  let rows ← Tx.select Tables.externalIdentities fun row =>
    decide (row.provider = view.id ∧ row.issuer = claims.issuer ∧
      row.subject = claims.subject.storageKey env.parsers)
  pure rows.head?

/-- The account an attempt is for: the actor of a link, the account the identity is bound to, or
a new one where the provider admits it. -/
def attemptAccount (env : Env) (attempt : OidcAttempt) (view : ProviderView env.parsers)
    (actor : Option Loaded) (bound : Option ExternalIdentityRow) : Action AccountKey :=
  if attempt.purpose = .link then do
    let actor ← Tx.demand actor .rejected
    pure actor.state.key
  else
    match bound with
    | some row => pure row.principal
    | none => do
      Tx.require (attempt.mode ≠ .stepUp ∧ view.settings.input.jit = true) (.federation .rejected)
      let principal ← newV4 env
      insertFederatedAccount ⟨principal⟩
      pure ⟨principal⟩

/-- The identity of verified claims, bound to the account of the attempt. -/
def bindIdentity (env : Env) (key : AccountKey) (view : ProviderView env.parsers)
    (claims : UpstreamClaims) (bound : Option ExternalIdentityRow) : Action Uuid :=
  match bound with
  | some row => do
    Tx.require (row.principal = key) (.federation .conflict)
    pure row.identity
  | none => do
    let identity ← newV4 env
    Tx.insertInto Tables.externalIdentities
      { identity
        principal := key
        provider := view.id
        issuer := claims.issuer
        subject := claims.subject.storageKey env.parsers } .constraint
    pure identity

/-- What a completion gives its caller. -/
inductive FederatedOutcome
  | stepUp (grant : StepUpGrant) (returnUrl : String)
  | redirect (locator : StateLocator)
  | session (issued : IssuedSession) (returnUrl : String) (alreadyLinked : Option Bool)

/-- An attempt that was read again for its commit, with the account it is for. -/
structure CommittingAttempt (env : Env) where
  locator : StateLocator
  attempt : OidcAttempt
  view : ProviderView env.parsers
  actor : Option Loaded
  identity : Uuid
  alreadyBound : Bool
  state : AccountState
  now : ℤ

/-- The attempt is not over. -/
def requireUnexpired (attempt : OidcAttempt) : Action Unit := do
  let instant ← now
  Tx.require (instant < attempt.expiry) .rejected

/-- Commits a step-up as a grant of its actor. -/
def commitStepUp (env : Env) (committing : CommittingAttempt env) (claims : UpstreamClaims) :
    Action FederatedOutcome := do
  let actor ← Tx.demand committing.actor .rejected
  Tx.require (actor.state.key = committing.state.key) .rejected
  let context ← Tx.demand committing.attempt.context .corrupt
  let authenticatedAt ← Tx.demand claims.assurance.authTime .rejected
  let grant ← issueGrant env actor context
    (.oidc committing.identity committing.view.id committing.view.version
      committing.view.revocationEpoch) authenticatedAt
  requireUnexpired committing.attempt
  consumeAttempt committing.locator
  pure (.stepUp grant committing.attempt.returnUrl)

/-- Burns the epoch of an account (`UPDATE accounts SET auth_epoch`). -/
def setAuthEpoch (state : AccountState) : Action Unit := do
  let _ ← Tx.updateIn Tables.accounts (fun row => decide (row.principal = state.key))
    (fun row => { row with authEpoch := state.epoch }) .constraint
  pure ()

/-- The origin of an intent, if it has one, is still good. -/
def checkIntentOrigin (env : Env) (key : AccountKey) (origin : Option Origin) : Action Unit :=
  match origin with
  | some o => do
    let _ ← checkOrigin env key o
    pure ()
  | none => pure ()

/-- How the session of a completed link was authenticated: as the intent's actor was. -/
def Intent.authentication (found : Intent) : Except Failure SessionAuthentication :=
  match found.origin with
  | some origin => .ok (.oidc origin)
  | none =>
    match found.localAuthenticatedAt with
    | some time => .ok (.localPassword time)
    | none => .error .rejected

/-- Commits a link: every session of the account ends, and a new one takes over from the
intent's. -/
def commitLink (env : Env) (committing : CommittingAttempt env) : Action FederatedOutcome := do
  let id ← Tx.demand committing.attempt.link .rejected
  let found ← intent id
  Tx.require (found.stage = .targetReady ∧ found.target = committing.view.id ∧
    found.version = committing.view.version) .rejected
  let state ← Tx.ofExcept (ofRule committing.state.revokeSessions)
  setAuthEpoch state
  advance id .targetReady
  checkIntentOrigin env state.key found.origin
  let authentication ← Tx.ofExcept found.authentication
  let issued ← insertSession env state (some found.session) authentication committing.now .cookie
  retainBinding state.key found.session issued.view.id
  requireUnexpired committing.attempt
  consumeAttempt committing.locator
  pure (.session issued committing.attempt.returnUrl (some committing.alreadyBound))

/-- The facts of verified claims, under fresh snapshot identifiers. -/
def collectFacts (env : Env) (claims : UpstreamClaims) (view : ProviderView env.parsers)
    (now : ℤ) : Action AuthenticationFacts := do
  let groupsId ← newV4 env
  let departmentId ← newV4 env
  Tx.ofExcept (ofFederation (AuthenticationFacts.collect claims view.version env.groupPolicy
    view.settings.input.claims.departmentSnapshot groupsId departmentId now))

/-- Commits a login as a session with the profile it observed. -/
def commitLogin (env : Env) (committing : CommittingAttempt env) (claims : UpstreamClaims) :
    Action FederatedOutcome := do
  Tx.require (∀ actor ∈ committing.actor, actor.state.key = committing.state.key) .rejected
  let factsSequence ← profileSequence
  let facts ← collectFacts env claims committing.view committing.now
  let issued ← insertSession env committing.state committing.attempt.replacement
    (.oidc { identity := committing.identity, epoch := committing.view.revocationEpoch, facts,
             factsSequence }) committing.now .cookie
  requireUnexpired committing.attempt
  accept env committing.state.key issued.view.id issued.view.absoluteExpiresAt
    (oidcObservation claims committing.view committing.attempt.profileSequence)
  consumeAttempt committing.locator
  pure (.session issued committing.attempt.returnUrl none)

/-- Reads a claimed attempt again for its commit, and finds or makes its account. -/
def prepareCommit (env : Env) (held : ClaimedAttempt env) (claims : UpstreamClaims) :
    Action (CommittingAttempt env) := do
  let (attempt, _) ← oidcAttempt env held.locator held.callback.state held.callback.browser true
  let view ← provider env attempt.provider
  Tx.ofExcept (ofFederation (exact view attempt.version))
  let actor ← checkActor env attempt held.callback.session
  recheckStepUp env attempt actor view
  let bound ← boundIdentity env view claims
  let key ← attemptAccount env attempt view actor bound
  let identity ← bindIdentity env key view claims bound
  let stored ← load key
  Tx.require (stored.state.active = true) .rejected
  let now ← now
  Tx.ofExcept (ofFederation (claims.assurance.check attempt.mode attempt.created now))
  pure { locator := held.locator, attempt, view, actor, identity, alreadyBound := bound.isSome,
         state := stored.state, now }

/-- Commits an exchanged attempt, unless it is a reauthentication (the second transaction of
`complete`). -/
def commitAttempt (env : Env) (held : ClaimedAttempt env) (claims : UpstreamClaims) :
    Action FederatedOutcome := do
  Tx.require (exchangeAccepted env held claims = true) (.federation .claims)
  Tx.require (held.attempt.purpose ≠ .reauthenticate) .rejected
  let committing ← prepareCommit env held claims
  if committing.attempt.mode = .stepUp then commitStepUp env committing claims
  else if committing.attempt.purpose = .link then commitLink env committing
  else commitLogin env committing claims

end IdentityAuthority
