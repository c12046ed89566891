import IdentityAuthority.Operations.Federation

/-!
# Linking an identity

The actor proves themselves by their password, or at the provider their session came from.
Only then does an attempt at the target begin, under an intent that names the session.
-/

namespace IdentityAuthority

open Relational

/-- The actor of a link as first read: the account, the origin of the session, and the login
key where the account has one. -/
structure LinkActor where
  actor : AuthenticatedSession
  account : AccountState
  origin : Option Origin
  login : Option String

/-- Reads the actor of a link (the first transaction of `begin_link`). -/
def readLinkActor (env : Env) (actor : AuthenticatedSession) : Action LinkActor := do
  Tx.require (actor.view.credentialKind = .cookie) .rejected
  let loaded ← recheck env actor
  let origin ← origin actor.view.id
  let credential ← Tx.find Tables.localCredentials actor.key
  pure { actor, account := loaded.state, origin, login := credential.map LocalCredentialRow.loginKey }

/-- Reads the provider that a session came from, to prove the actor there. -/
def readSourceProvider (env : Env) (origin : Origin) : Action (ProviderView env.parsers) := do
  let (id, _, _) ← identity origin.identity
  provider env id

/-- A link to begin, its actor proved by a password if there is a candidate. -/
structure LinkRequest (env : Env) where
  link : LinkActor
  browser : String
  returnUrl : String
  target : ProviderView env.parsers
  candidate : Option AuthenticationCandidate
  source : ProviderView env.parsers

namespace LinkRequest

variable {env : Env}

/-- What the attempt of the request is for. -/
def purpose (request : LinkRequest env) : Purpose :=
  if request.candidate.isSome then .link else .reauthenticate

/-- The provider the attempt is at: the target once the actor is proved, the source before. -/
def attemptProvider (request : LinkRequest env) : ProviderView env.parsers :=
  if request.candidate.isSome then request.target else request.source

/-- What the upstream is asked for. -/
def mode (request : LinkRequest env) : AuthenticationMode :=
  if request.candidate.isSome then .login else .reauthenticate

/-- The stage the intent begins at. -/
def stage (request : LinkRequest env) : LinkStage := request.purpose.stage

/-- The origin the intent keeps: a password leaves none. -/
def keptOrigin (request : LinkRequest env) : Option Origin :=
  if request.candidate.isSome then none else request.link.origin

/-- The request is one that can be begun. -/
structure Admissible (request : LinkRequest env) : Prop where
  browser : browserValid request.browser = true
  returnUrl : env.returnUrls request.returnUrl = true
  proof : request.candidate.isSome = request.link.login.isSome
  account : ∀ candidate ∈ request.candidate, candidate.state.key = request.link.account.key
  origin : request.candidate = none → request.link.origin.isSome = true
  target : request.target.enabled = true
  profile : assuranceProfileCurrent env request.attemptProvider = true

instance (request : LinkRequest env) : Decidable request.Admissible :=
  decidable_of_iff (browserValid request.browser = true ∧ env.returnUrls request.returnUrl = true ∧
      request.candidate.isSome = request.link.login.isSome ∧
      (∀ candidate ∈ request.candidate, candidate.state.key = request.link.account.key) ∧
      (request.candidate = none → request.link.origin.isSome = true) ∧
      request.target.enabled = true ∧
      assuranceProfileCurrent env request.attemptProvider = true)
    ⟨fun ⟨h1, h2, h3, h4, h5, h6, h7⟩ => ⟨h1, h2, h3, h4, h5, h6, h7⟩,
     fun h => ⟨h.1, h.2, h.3, h.4, h.5, h.6, h.7⟩⟩

end LinkRequest

/-- The password candidate of a link, if there is one, is still current. -/
def recheckCandidate (env : Env) (candidate : Option AuthenticationCandidate) : Action Unit :=
  match candidate with
  | some candidate => do
    let _ ← current env candidate
    pure ()
  | none => pure ()

/-- The row of an intent to insert. -/
def LinkRequest.row {env : Env} (request : LinkRequest env) (id : Uuid)
    (facts : Option AuthenticationFacts) (now : ℤ) : LinkIntentRow where
  intent := id
  principal := request.link.account.key
  session := request.link.actor.view.id
  authEpoch := request.link.account.epoch
  membershipEpoch := request.link.account.membershipEpoch
  sourceIdentity := request.keptOrigin.map Origin.identity
  sourceEpoch := request.keptOrigin.map Origin.epoch
  sourceFacts := facts
  sourceFactsSequence := request.keptOrigin.map Origin.factsSequence
  localAuthenticatedAt := request.candidate.map AuthenticationCandidate.authenticatedAt
  targetProvider := request.target.id
  targetVersion := request.target.version
  browserHash := env.sha256.text request.browser
  stage := request.stage.code
  createdAt := now
  expiresAt := now + 300

/-- Begins a link: the intent, and the attempt that proves the actor or links the target
(the last transaction of `begin_link`). -/
def beginLink (env : Env) (request : LinkRequest env) : Action StateLocator := do
  Tx.require request.Admissible .rejected
  let (locator, material) ← newMaterial env request.purpose
  let loaded ← recheck env request.link.actor
  Tx.require (loaded.state.matchesVerification request.link.account = true) .rejected
  let target ← provider env request.target.id
  Tx.ofExcept (ofFederation (exact target request.target.version))
  recheckCandidate env request.candidate
  let now ← now
  let id ← newV4 env
  let facts ← Tx.ofExcept (encodedFacts env request.keptOrigin)
  Tx.insertInto Tables.linkIntents (request.row id facts now) .constraint
  insertAttempt env
    { context := none
      mode := request.mode
      locator
      material
      provider := request.attemptProvider
      browser := request.browser
      returnUrl := request.returnUrl
      link := some id
      replacement := none
      expiry := some (now + 300) }
  pure locator

/-- Reads the target of an intent (the first transaction of `finish_reauthentication`). -/
def readLinkTarget (env : Env) (id : Uuid) : Action (ProviderView env.parsers) := do
  let found ← intent id
  let target ← provider env found.target
  Tx.ofExcept (ofFederation (exact target found.version))
  pure target

/-- Keeps the facts of a reauthentication with the intent. -/
def setSourceFacts (id : Uuid) (facts : AuthenticationFacts) (sequence : ℤ) : Action Unit := do
  let _ ← Tx.updateIn Tables.linkIntents (fun row => decide (row.intent = id))
    (fun row => { row with sourceFacts := some facts, sourceFactsSequence := some sequence })
    .constraint
  pure ()

/-- The upstream proved the identity the session of the intent came from. -/
structure ProvesSource (env : Env) (held : ClaimedAttempt env) (claims : UpstreamClaims)
    (source : ProviderId × String × String) (created now : ℤ) : Prop where
  provider : source.1 = held.view.id
  issuer : source.2.1 = claims.issuer
  subject : source.2.2 = claims.subject.storageKey env.parsers
  assurance : claims.assurance.accepted .reauthenticate created now = true

instance (env : Env) (held : ClaimedAttempt env) (claims : UpstreamClaims)
    (source : ProviderId × String × String) (created now : ℤ) :
    Decidable (ProvesSource env held claims source created now) :=
  decidable_of_iff (source.1 = held.view.id ∧ source.2.1 = claims.issuer ∧
      source.2.2 = claims.subject.storageKey env.parsers ∧
      claims.assurance.accepted .reauthenticate created now = true)
    ⟨fun ⟨h1, h2, h3, h4⟩ => ⟨h1, h2, h3, h4⟩, fun h => ⟨h.1, h.2, h.3, h.4⟩⟩

/-- Commits an exchanged reauthentication: the intent goes on to its target, where a new attempt
begins (the last transaction of `finish_reauthentication`). -/
def finishReauthentication (env : Env) (held : ClaimedAttempt env) (claims : UpstreamClaims)
    (target : ProviderView env.parsers) : Action FederatedOutcome := do
  Tx.require (exchangeAccepted env held claims = true) (.federation .claims)
  Tx.require (held.attempt.purpose = .reauthenticate) .rejected
  Tx.require (assuranceProfileCurrent env target = true) (.federation .staleConfiguration)
  let id ← Tx.demand held.attempt.link .rejected
  let (locator, material) ← newMaterial env .link
  let (attempt, _) ← oidcAttempt env held.locator held.callback.state held.callback.browser true
  let currentSource ← provider env held.view.id
  Tx.ofExcept (ofFederation (exact currentSource held.view.version))
  let _ ← checkActor env attempt held.callback.session
  let found ← intent id
  let origin ← Tx.demand found.origin .rejected
  let _ ← checkOrigin env found.principal origin
  let source ← identity origin.identity
  let now ← now
  Tx.require (ProvesSource env held claims source attempt.created now) (.federation .claims)
  let facts ← collectFacts env claims held.view now
  let facts ← Tx.ofExcept (facts.encode env.factsSize)
  let sequence ← profileSequence
  setSourceFacts id facts sequence
  advance id .reauthenticationRequired
  consumeAttempt held.locator
  insertAttempt env
    { context := none
      mode := .login
      locator
      material
      provider := target
      browser := held.callback.browser
      returnUrl := attempt.returnUrl
      link := some id
      replacement := none
      expiry := some found.expiry }
  pure (.redirect locator)

end IdentityAuthority
