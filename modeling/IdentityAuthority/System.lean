import IdentityAuthority.Operations.ProtocolFootprints
import IdentityAuthority.Transition.Run

/-!
# The authority as a transition system

A step is a transaction that commits, or time that passes. Between its transactions a call holds
on to what the earlier ones gave it: a claim on a login, a verified password, an attempt with
the secrets of its exchange, a ceremony. Calls interleave freely, and may end anywhere.
-/

namespace IdentityAuthority

open Relational Transition

/-- What a call holds on to between its transactions; nothing outside of the component can make
one up. -/
inductive Held (env : Env)
  | passwordClaim (login : String) (claim : PasswordClaim)
  | passwordRead (login : String) (candidate : AuthenticationCandidate)
  | passwordChecked (login : String) (candidate : AuthenticationCandidate)
  | verified (candidate : AuthenticationCandidate)
  | linkActor (link : LinkActor)
  | attempt (held : ClaimedAttempt env)
  | challenge (id : Uuid) (nonce : Secret) (browser : String) (context : PlatformChallengeContext)
  | ceremony (this : WebauthnAuthority) (actor : AuthenticatedSession) (id : Uuid)
      (snapshot : CeremonySnapshot)

/-- A transaction that commits, with what it was given and what it answered. -/
inductive Commit (env : Env)
  | initializeTenant (key : AccountKey) (login hash : String) (result : AccountState)
  | createLocalAccount (actor : AuthenticatedSession) (login hash : String) (result : AccountState)
  | createLocalAccountIn (login hash : String) (result : AccountState)
  | applyAccountChange (actor : AuthenticatedSession) (target : AccountKey)
      (change : AccountChange) (reauthentication : Option AuthenticationCandidate)
      (result : AccountState)
  | recoverLocalPassword (key : AccountKey) (hash : String) (result : AccountState)
  | reserve (source scope : String) (result : Except AuthorityError Unit)
  | claimPassword (login source : String) (lease : ℤ)
      (result : Except AuthorityError PasswordClaim)
  | readPassword (login : String) (result : Option (Stored × AuthenticationCandidate))
  | confirmPassword (login : String) (candidate result : AuthenticationCandidate)
  | settlePassword (login : String) (claim : PasswordClaim)
      (outcome result : Except AuthorityError AuthenticationCandidate)
  | createSession (candidate : AuthenticationCandidate)
      (replacement : Option AuthenticatedSession) (kind : CredentialKind) (result : IssuedSession)
  | authenticate (digest : Digest) (kind : CredentialKind) (activity : Bool)
      (result : AuthenticatedSession)
  | refreshSession (old : Secret) (result : IssuedSession)
  | revokeSession (actor : AuthenticatedSession) (all : Bool)
  | createProvider (actor : AuthenticatedSession) (settings : ProviderSettings env.parsers)
      (credentials : ℕ) (profile : Digest) (result : ProviderView env.parsers)
  | editProvider (actor : AuthenticatedSession) (id : ProviderId) (expected : ℤ)
      (edit : ProviderEdit env.parsers) (result : ProviderView env.parsers)
  | reconcileAssuranceProfiles (profile : ProviderSettings env.parsers → Digest) (result : Bool)
  | resolveEntra (verified : VerifiedExternalSubject) (result : AccountState)
  | beginFederated (request : LoginRequest) (mode : AuthenticationMode)
      (context : Option StepUpContext) (view : ProviderView env.parsers) (result : StateLocator)
  | cancelAttempt (callback : Callback)
  | claimAttempt (callback : Callback) (result : ClaimedAttempt env)
  | commitAttempt (held : ClaimedAttempt env) (claims : UpstreamClaims)
      (result : FederatedOutcome)
  | finishReauthentication (held : ClaimedAttempt env) (claims : UpstreamClaims)
      (target : ProviderView env.parsers) (result : FederatedOutcome)
  | readLinkActor (actor : AuthenticatedSession) (result : LinkActor)
  | beginLink (request : LinkRequest env) (result : StateLocator)
  | consumeStepUp (actor : AuthenticatedSession) (expected : StepUpContext) (handle : Secret)
      (result : ConsumedStepUp)
  | cancelStepUp (actor : AuthenticatedSession) (handle : Secret)
  | beginPlatformLogin (binding : Uuid) (purpose : PlatformPurpose) (browser : String)
      (result : PlatformChallenge)
  | showChallenge (id : Uuid) (nonce : Secret) (browser : String)
      (result : PlatformChallengeContext)
  | completePlatformLogin (id : Uuid) (nonce : Secret) (browser : String)
      (context : PlatformChallengeContext) (evidence : PlatformEvidence) (result : PlatformLogin)
  | updateLocalProfile (actor : AuthenticatedSession) (target : AccountKey)
      (change : ProfileChange) (result : ProfileReceipt × List ProfileEvent)
  | connectWebauthn (party : RelyingParty) (result : WebauthnAuthority)
  | beginRegistration (this : WebauthnAuthority) (actor : AuthenticatedSession) (label : String)
      (recover : Bool) (authorization : RegistrationAuthorization) (result : WebauthnChallenge)
  | beginAuthentication (this : WebauthnAuthority) (actor : AuthenticatedSession)
      (context : StepUpContext) (result : WebauthnChallenge)
  | snapshotCeremony (this : WebauthnAuthority) (actor : AuthenticatedSession) (id : Uuid)
      (result : CeremonySnapshot)
  | finishRegistration (this : WebauthnAuthority) (actor : AuthenticatedSession) (id : Uuid)
      (snapshot : CeremonySnapshot) (response : ℕ) (result : Uuid)
  | finishAuthentication (this : WebauthnAuthority) (actor : AuthenticatedSession) (id : Uuid)
      (snapshot : CeremonySnapshot) (response : ℕ) (result : StepUpGrant)
  | removeCredential (this : WebauthnAuthority) (actor : AuthenticatedSession) (id : Uuid)
      (grant : Secret)
  | cancelCeremony (this : WebauthnAuthority) (actor : AuthenticatedSession) (id : Uuid)
  | activateWebauthnRp (party : RelyingParty) (expectedGeneration : ℤ) (result : ℤ)

namespace Commit

variable {env : Env}

/-- The transaction commits, from one world to another. -/
def Runs (commit : Commit env) (w w' : Tenant) : Prop :=
  match commit with
  | initializeTenant key login hash result =>
    (IdentityAuthority.initializeTenant key login hash).run w = .ok (result, w')
  | createLocalAccount actor login hash result =>
    (IdentityAuthority.createLocalAccount env actor login hash).run w = .ok (result, w')
  | createLocalAccountIn login hash result =>
    (IdentityAuthority.createLocalAccountIn env login hash).run w = .ok (result, w')
  | applyAccountChange actor target change reauthentication result =>
    (IdentityAuthority.applyAccountChange env actor target change reauthentication).run w =
      .ok (result, w')
  | recoverLocalPassword key hash result =>
    (IdentityAuthority.recoverLocalPassword env key hash).run w = .ok (result, w')
  | reserve source scope result =>
    (IdentityAuthority.reserve source scope).run w = .ok (result, w')
  | claimPassword login source lease result =>
    (IdentityAuthority.claimPassword env login source lease).run w = .ok (result, w')
  | readPassword login result =>
    (IdentityAuthority.readPassword env login).run w = .ok (result, w')
  | confirmPassword _ candidate result =>
    (IdentityAuthority.confirmPassword env candidate).run w = .ok (result, w')
  | settlePassword _ claim outcome result =>
    (IdentityAuthority.settlePassword env claim outcome).run w = .ok (result, w')
  | createSession candidate replacement kind result =>
    (createSessionFor env candidate replacement kind).run w = .ok (result, w')
  | authenticate digest kind activity result =>
    (authenticateSession env digest kind activity).run w = .ok (result, w')
  | refreshSession old result =>
    (IdentityAuthority.refreshSession env old).run w = .ok (result, w')
  | revokeSession actor all =>
    (IdentityAuthority.revokeSession env actor all).run w = .ok ((), w')
  | createProvider actor settings credentials profile result =>
    (IdentityAuthority.createProvider env actor settings credentials profile).run w =
      .ok (result, w')
  | editProvider actor id expected edit result =>
    (IdentityAuthority.editProvider env actor id expected edit).run w = .ok (result, w')
  | reconcileAssuranceProfiles profile result =>
    (IdentityAuthority.reconcileAssuranceProfiles env profile).run w = .ok (result, w')
  | resolveEntra verified result =>
    (IdentityAuthority.resolveEntra env verified).run w = .ok (result, w')
  | beginFederated request mode context view result =>
    (IdentityAuthority.beginFederated env request mode context view).run w = .ok (result, w')
  | cancelAttempt callback =>
    (IdentityAuthority.cancelAttempt env callback).run w = .ok ((), w')
  | claimAttempt callback result =>
    (IdentityAuthority.claimAttempt env callback).run w = .ok (result, w')
  | commitAttempt held claims result =>
    (IdentityAuthority.commitAttempt env held claims).run w = .ok (result, w')
  | finishReauthentication held claims target result =>
    (IdentityAuthority.finishReauthentication env held claims target).run w = .ok (result, w')
  | readLinkActor actor result =>
    (IdentityAuthority.readLinkActor env actor).run w = .ok (result, w')
  | beginLink request result =>
    (IdentityAuthority.beginLink env request).run w = .ok (result, w')
  | consumeStepUp actor expected handle result =>
    (consumeStepUpOn env actor expected handle).run w = .ok (result, w')
  | cancelStepUp actor handle =>
    (IdentityAuthority.cancelStepUp env actor handle).run w = .ok ((), w')
  | beginPlatformLogin binding purpose browser result =>
    (IdentityAuthority.beginPlatformLogin env binding purpose browser).run w = .ok (result, w')
  | showChallenge id nonce browser result =>
    (IdentityAuthority.showChallenge env id nonce browser).run w = .ok (result, w')
  | completePlatformLogin id nonce browser context evidence result =>
    (IdentityAuthority.completePlatformLogin env id nonce browser context evidence).run w =
      .ok (result, w')
  | updateLocalProfile actor target change result =>
    (IdentityAuthority.updateLocalProfile env actor target change).run w = .ok (result, w')
  | connectWebauthn party result =>
    (IdentityAuthority.connectWebauthn env party).run w = .ok (result, w')
  | beginRegistration this actor label recover authorization result =>
    (IdentityAuthority.beginRegistration env this actor label recover authorization).run w =
      .ok (result, w')
  | beginAuthentication this actor context result =>
    (IdentityAuthority.beginAuthentication env this actor context).run w = .ok (result, w')
  | snapshotCeremony this actor id result =>
    (IdentityAuthority.snapshotCeremony env this actor id).run w = .ok (result, w')
  | finishRegistration this actor id snapshot response result =>
    (IdentityAuthority.finishRegistration env this actor id snapshot response).run w =
      .ok (result, w')
  | finishAuthentication this actor id snapshot response result =>
    (IdentityAuthority.finishAuthentication env this actor id snapshot response).run w =
      .ok (result, w')
  | removeCredential this actor id grant =>
    (IdentityAuthority.removeCredential env this actor id grant).run w = .ok ((), w')
  | cancelCeremony this actor id =>
    (IdentityAuthority.cancelCeremony env this actor id).run w = .ok ((), w')
  | activateWebauthnRp party expected result =>
    (IdentityAuthority.activateWebauthnRp env party expected).run w = .ok (result, w')

/-- The areas a transaction may write to. -/
def areas : Commit env → List Area
  | initializeTenant .. | createLocalAccount .. | createLocalAccountIn .. => [.accounts]
  | applyAccountChange .. | recoverLocalPassword .. => [.accounts, .attempts]
  | reserve .. | claimPassword .. | settlePassword .. => [.attempts]
  | createSession .. => [.sessions, .bindings, .profiles, .sequence]
  | authenticate .. | refreshSession .. => [.sessions]
  | revokeSession .. => [.sessions, .accounts]
  | createProvider .. | editProvider .. | reconcileAssuranceProfiles .. => [.providers]
  | resolveEntra .. => [.identities, .accounts]
  | beginFederated .. => [.oidc, .sequence]
  | cancelAttempt .. | claimAttempt .. => [.oidc]
  | commitAttempt .. => commitAreas
  | finishReauthentication .. => [.proofs, .oidc, .sequence]
  | beginLink .. => [.intents, .oidc, .sequence]
  | consumeStepUp .. | cancelStepUp .. => [.grants]
  | beginPlatformLogin .. => [.challenges, .sequence]
  | completePlatformLogin .. => [.challenges, .sessions, .bindings, .profiles, .sequence]
  | updateLocalProfile .. => [.localProfiles, .operations]
  | connectWebauthn .. | beginAuthentication .. | snapshotCeremony .. | finishRegistration ..
  | cancelCeremony .. | activateWebauthnRp .. => [.webauthn]
  | beginRegistration .. | finishAuthentication .. | removeCredential .. => [.webauthn, .grants]
  | readPassword .. | confirmPassword .. | readLinkActor .. | showChallenge .. => []

/-- Every transaction writes to its areas only, and only what the effects allow. -/
theorem effects {commit : Commit env} {w w' : Tenant} (h : commit.Runs w w') :
    Effects env commit.areas w w w' := by
  cases commit with
  | initializeTenant => exact initializeTenant_writes (by simp [areas]) _ _ _ (.refl _) h
  | createLocalAccount => exact createLocalAccount_writes (by simp [areas]) _ _ _ (.refl _) h
  | createLocalAccountIn => exact createLocalAccountIn_writes (by simp [areas]) _ _ _ (.refl _) h
  | applyAccountChange => exact applyAccountChange_effects (by simp [areas]) (by simp [areas]) h
  | recoverLocalPassword => exact recoverLocalPassword_effects (by simp [areas]) (by simp [areas]) h
  | reserve => exact reserve_writes (by simp [areas]) _ _ _ (.refl _) h
  | claimPassword => exact claimPassword_writes (by simp [areas]) _ _ _ (.refl _) h
  | readPassword => exact readPassword_writes _ _ _ (.refl _) h
  | confirmPassword => exact confirmPassword_writes _ _ _ (.refl _) h
  | settlePassword => exact settlePassword_writes (by simp [areas]) _ _ _ (.refl _) h
  | createSession =>
    obtain ⟨_, _, -, hissues⟩ := createSessionFor_issues
      (show Area.sessions ∈ [.sessions, .bindings, .profiles, .sequence] by simp) (by simp) (by simp)
      (by simp) (.refl _) h
    exact hissues.effects (.refl w)
  | authenticate => exact authenticateSession_effects (by simp [areas]) h
  | refreshSession => exact refreshSession_effects (by simp [areas]) (.refl _) h
  | revokeSession => exact revokeSession_effects (by simp [areas]) (by simp [areas]) h
  | createProvider => exact createProvider_writes (by simp [areas]) _ _ _ (.refl _) h
  | editProvider => exact editProvider_effects (by simp [areas]) h
  | reconcileAssuranceProfiles => exact reconcileAssuranceProfiles_effects (by simp [areas]) h
  | resolveEntra => exact resolveEntra_effects (by simp [areas]) (by simp [areas]) h
  | beginFederated =>
    exact beginFederated_writes (by simp [areas]) (by simp [areas]) (.refl _) _ _ _ (.refl _) h
  | cancelAttempt => exact cancelAttempt_writes (by simp [areas]) _ _ _ (.refl _) h
  | claimAttempt => exact claimAttempt_writes (by simp [areas]) _ _ _ (.refl _) h
  | commitAttempt => exact commitAttempt_effects h
  | finishReauthentication =>
    exact finishReauthentication_writes (by simp [areas]) (by simp [areas]) (by simp [areas]) (.refl _) _ _ _
      (.refl _) h
  | readLinkActor => exact readLinkActor_writes _ _ _ (.refl _) h
  | beginLink =>
    exact beginLink_writes (by simp [areas]) (by simp [areas]) (by simp [areas]) (.refl _) _ _ _ (.refl _) h
  | consumeStepUp => exact consumeStepUpOn_writes (by simp [areas]) _ _ _ (.refl _) h
  | cancelStepUp => exact cancelStepUp_writes (by simp [areas]) _ _ _ (.refl _) h
  | beginPlatformLogin =>
    exact beginPlatformLogin_writes (by simp [areas]) (by simp [areas]) (.refl _) _ _ _ (.refl _) h
  | showChallenge => exact showChallenge_writes _ _ _ (.refl _) h
  | completePlatformLogin =>
    exact (completePlatformLogin_issues (by simp [areas]) (by simp [areas]) (by simp [areas])
      (by simp [areas])
      (by simp [areas]) (.refl _) h).effects (.refl w)
  | updateLocalProfile => exact updateLocalProfile_effects (by simp [areas]) (by simp [areas]) h
  | connectWebauthn => exact connectWebauthn_writes (by simp [areas]) _ _ _ (.refl _) h
  | beginRegistration =>
    exact beginRegistration_writes (by simp [areas]) (by simp [areas]) _ _ _ (.refl _) h
  | beginAuthentication => exact beginAuthentication_writes (by simp [areas]) _ _ _ (.refl _) h
  | snapshotCeremony => exact snapshotCeremony_writes (by simp [areas]) _ _ _ (.refl _) h
  | finishRegistration => exact finishRegistration_writes (by simp [areas]) _ _ _ (.refl _) h
  | finishAuthentication =>
    exact finishAuthentication_writes (by simp [areas]) (by simp [areas]) (.refl _) _ _ _ (.refl _) h
  | removeCredential => exact removeCredential_writes (by simp [areas]) (by simp [areas]) _ _ _ (.refl _) h
  | cancelCeremony => exact cancelCeremony_writes (by simp [areas]) _ _ _ (.refl _) h
  | activateWebauthnRp => exact activateWebauthnRp_writes (by simp [areas]) _ _ _ (.refl _) h

/-- What the call of a transaction must hold. -/
def Admissible (held : List (Held env)) : Commit env → Prop
  | confirmPassword login candidate _ => .passwordRead login candidate ∈ held
  | settlePassword login claim outcome _ => .passwordClaim login claim ∈ held ∧
      ∀ candidate, outcome = .ok candidate → .passwordChecked login candidate ∈ held
  | createSession candidate _ _ _ => .verified candidate ∈ held
  | applyAccountChange _ _ _ reauthentication _ =>
    ∀ candidate ∈ reauthentication, .verified candidate ∈ held
  | beginLink request _ => .linkActor request.link ∈ held ∧
      ∀ candidate ∈ request.candidate, .verified candidate ∈ held
  | commitAttempt attempt _ _ => .attempt attempt ∈ held
  | finishReauthentication attempt _ _ _ => .attempt attempt ∈ held
  | completePlatformLogin id nonce browser context _ _ => .challenge id nonce browser context ∈ held
  | finishRegistration this actor id snapshot _ _ => .ceremony this actor id snapshot ∈ held
  | finishAuthentication this actor id snapshot _ _ => .ceremony this actor id snapshot ∈ held
  | _ => True

/-- What the call of a transaction holds on to after it. -/
def gives : Commit env → List (Held env)
  | claimPassword login _ _ (.ok claim) => [.passwordClaim login claim]
  | readPassword login (some (_, candidate)) => [.passwordRead login candidate]
  | confirmPassword login _ candidate => [.passwordChecked login candidate]
  | settlePassword _ _ _ (.ok candidate) => [.verified candidate]
  | readLinkActor _ link => [.linkActor link]
  | claimAttempt _ attempt => [.attempt attempt]
  | showChallenge id nonce browser context => [.challenge id nonce browser context]
  | snapshotCeremony this actor id snapshot => [.ceremony this actor id snapshot]
  | _ => []

end Commit

/-- The world of the tenant, and what the calls in flight hold. -/
structure System (env : Env) where
  world : Tenant
  held : List (Held env)

/-- What a step is: a transaction that commits, or time that passes. A transaction that fails
leaves no trace but the time it took and the values it drew. -/
inductive Label (env : Env)
  | commit (commit : Commit env)
  | elapse

/-- One step of the authority. -/
inductive Step (env : Env) : System env → Label env → System env → Prop
  | commit {s : System env} {commit : Commit env} {w' : Tenant} : commit.Admissible s.held →
      commit.Runs s.world w' → Step env s (.commit commit) ⟨w', commit.gives ++ s.held⟩
  | elapse {s : System env} {w' : Tenant} : w'.state = s.world.state → s.world.Advances w' →
      Step env s .elapse ⟨w', s.held⟩

/-- A tenant that was just provisioned, at any time. -/
def System.Provisioned {env : Env} (s : System env) : Prop :=
  s.world.state = .provisioned ∧ s.held = []

variable {env : Env} {s s' : System env} {label : Label env}

/-- Every step is made of effects; time alone makes none. -/
theorem Step.effects (h : Step env s label s') :
    ∃ areas, Effects env areas s.world s.world s'.world := by
  cases h with
  | commit _ hruns => exact ⟨_, Commit.effects hruns⟩
  | elapse hstate hadvances => exact ⟨[], .pass hstate hadvances⟩

/-- A property of worlds that time and every statement keep is kept by every step. -/
theorem Step.invariant {Inv : Tenant → Prop}
    (hpass : ∀ w w' : Tenant, Inv w → w'.state = w.state → w.Advances w' → Inv w')
    (hwrite : ∀ start w a db, start.Advances w → Inv w → Effect env start w a db →
      Inv { w with state := db })
    (hinv : Inv s.world) (h : Step env s label s') : Inv s'.world := by
  obtain ⟨areas, heffects⟩ := h.effects
  exact heffects.invariant hpass (fun w a db hw hinv _ => hwrite _ w a db hw hinv) hinv

theorem Step.advances (h : Step env s label s') : s.world.Advances s'.world := by
  obtain ⟨areas, heffects⟩ := h.effects
  exact heffects.advances

/-- A property of worlds that holds at provisioning, and that time and every statement keep, holds
in every state reached. -/
theorem invariant_of_run (Inv : Tenant → Prop) {s₀ : System env}
    {trace : List (Event (System env) (Label env))} (hstart : s₀.Provisioned)
    (hrun : Run (Step env) s₀ trace s)
    (hprovisioned : ∀ w : Tenant, w.state = .provisioned → Inv w)
    (hpass : ∀ w w' : Tenant, Inv w → w'.state = w.state → w.Advances w' → Inv w')
    (hwrite : ∀ start w a db, start.Advances w → Inv w → Effect env start w a db →
      Inv { w with state := db }) : Inv s.world := by
  refine hrun.history (H := fun _ s => Inv s.world) (hprovisioned _ hstart.1) ?_
  intro trace s label s' _ hinv hstep
  exact hstep.invariant hpass hwrite hinv

/-- The first login of a tenant, call after call: its first account is made, and signs in with its
password. -/
def firstLogin (env : Env) (key : AccountKey) (login hash : String) : Action IssuedSession := do
  let _ ← initializeTenant key login hash
  let claimed ← claimPassword env login "127.0.0.1" 60
  let claim ← Tx.demand claimed.toOption .rejected
  let found ← readPassword env login
  let found ← Tx.demand found .rejected
  let candidate ← confirmPassword env found.2
  let settled ← settlePassword env claim (.ok candidate)
  let candidate ← Tx.demand settled.toOption .rejected
  createSessionFor env candidate none .cookie

theorem eq_ok_of_toOption {ε α : Type} {r : Except ε α} {a : α} (h : r.toOption = some a) :
    r = .ok a := by
  cases r with
  | error e => cases h
  | ok b =>
    cases h
    rfl

/-- A run goes on by a transaction that commits. -/
theorem commit_step {start : System env} {trace : List (Event (System env) (Label env))}
    (commit : Commit env) (hrun : Run (Step env) start trace s)
    (hadmissible : commit.Admissible s.held) {w' : Tenant} (hruns : commit.Runs s.world w') :
    Run (Step env) start (trace ++ [⟨s, .commit commit, ⟨w', commit.gives ++ s.held⟩⟩])
      ⟨w', commit.gives ++ s.held⟩ :=
  hrun.step (.commit hadmissible hruns)

/-- The first login is a run of the authority. -/
theorem run_firstLogin {key : AccountKey} {login hash : String} {w w' : Tenant}
    {issued : IssuedSession} (h : (firstLogin env key login hash).run w = .ok (issued, w')) :
    ∃ trace held, Run (Step env) ⟨w, []⟩ trace ⟨w', held⟩ := by
  simp only [firstLogin, Tx.run_bind, Tx.run_demand] at h
  obtain ⟨_, _, hinitialize, claimed, _, hclaim, claim, _, ⟨hclaimed, rfl⟩, read, _, hread, found,
    _, ⟨hfound, rfl⟩, candidate, _, hconfirm, settled, _, hsettle, verified, _, ⟨hsettled, rfl⟩,
    hcreate⟩ := h
  obtain rfl := eq_ok_of_toOption hclaimed
  obtain rfl := eq_ok_of_toOption hsettled
  subst hfound
  obtain ⟨stored, offered⟩ := found
  have hrun : Run (Step env) ⟨w, []⟩ [] ⟨w, []⟩ := .start
  have hrun := commit_step (.initializeTenant key login hash _) hrun trivial hinitialize
  have hrun := commit_step (.claimPassword login "127.0.0.1" 60 (.ok claim)) hrun trivial hclaim
  have hrun := commit_step (.readPassword login _) hrun trivial hread
  have hrun := commit_step (.confirmPassword login offered candidate) hrun
    (by simp [Commit.gives, Commit.Admissible]) hconfirm
  have hrun := commit_step (.settlePassword login claim (.ok candidate) (.ok verified)) hrun
    (by simp [Commit.gives, Commit.Admissible]) hsettle
  have hrun := commit_step (.createSession verified none .cookie issued) hrun
    (by simp [Commit.gives, Commit.Admissible]) hcreate
  exact ⟨_, _, hrun⟩

/-- The world of a tenant that was provisioned a hundred seconds after the epoch. -/
def newTenant : Tenant := ⟨.provisioned, 100000000, [], 0⟩

/-- The first login of `ada` on the transparent deployment. -/
@[irreducible] def signedIn : Except Failure (IssuedSession × Tenant) :=
  (firstLogin .transparent ⟨Uuid.newV4 0⟩ "ada" "hash").run newTenant

/-- The world after it. -/
@[irreducible] def signedInWorld : Tenant :=
  match signedIn with
  | .ok (_, w) => w
  | .error _ => newTenant

/-- The first login of `ada` succeeds. -/
theorem signedIn_reachable : ∃ trace held,
    Run (Step .transparent) ⟨newTenant, []⟩ trace ⟨signedInWorld, held⟩ := by
  have hok : signedIn.toOption.isSome = true := by decide +kernel
  obtain ⟨⟨issued, w⟩, hsome⟩ := Option.isSome_iff_exists.mp hok
  have hrun := eq_ok_of_toOption hsome
  have hw : signedInWorld = w := by
    unfold signedInWorld
    rw [hrun]
  rw [hw]
  unfold signedIn at hrun
  exact run_firstLogin hrun

/-- Ada, signed in, sets up a provider that admits accounts of its own, and its first subject logs
in from there. -/
def partnerLogin (env : Env) (key : AccountKey) (login hash browser : String)
    (settings : ProviderSettings env.parsers) (claims : UpstreamClaims) :
    Action FederatedOutcome := do
  let issued ← firstLogin env key login hash
  let actor ← authenticateSession env (env.sha256.secret issued.secret) .cookie false
  let view ← createProvider env actor settings 0 (env.assuranceProfile settings).fingerprint
  let view ← editProvider env actor view.id view.version (.enabled true)
  let locator ← beginFederated env ⟨browser, "/", none⟩ .login none view
  let held ← claimAttempt env ⟨env.signer.issue locator, browser, settings.input.issuer, none⟩
  commitAttempt env held claims

/-- The login at a provider is a run of the authority; a provider was edited in it, and its last step
commits the attempt. -/
theorem run_partnerLogin {key : AccountKey} {login hash browser : String}
    {settings : ProviderSettings env.parsers} {claims : UpstreamClaims} {w w' : Tenant}
    {outcome : FederatedOutcome}
    (h : (partnerLogin env key login hash browser settings claims).run w = .ok (outcome, w')) :
    ∃ trace held, Run (Step env) ⟨w, []⟩ trace ⟨w', held⟩ ∧
      (∃ e ∈ trace, ∃ actor id expected edit result,
        e.label = .commit (.editProvider actor id expected edit result)) ∧
      ∃ earlier e claimed, trace = earlier ++ [e] ∧
        e.label = .commit (.commitAttempt claimed claims outcome) := by
  simp only [partnerLogin, Tx.run_bind] at h
  obtain ⟨issued, _, hfirst, actor, _, hactor, view, _, hcreate, edited, _, hedit, locator, _,
    hbegin, claimed, _, hclaim, hcommit⟩ := h
  obtain ⟨trace, held, hrun⟩ := run_firstLogin hfirst
  have hrun := commit_step (.authenticate _ .cookie false actor) hrun trivial hactor
  have hrun := commit_step (.createProvider actor settings 0 _ view) hrun trivial hcreate
  have hrun := commit_step (.editProvider actor view.id view.version (.enabled true) edited) hrun
    trivial hedit
  have hrun := commit_step (.beginFederated _ .login none edited locator) hrun trivial hbegin
  have hrun := commit_step (.claimAttempt _ claimed) hrun trivial hclaim
  have hrun := commit_step (.commitAttempt claimed claims outcome) hrun
    (by simp [Commit.gives, Commit.Admissible]) hcommit
  refine ⟨_, _, hrun, ?_, _, _, claimed, rfl, rfl⟩
  simp [or_and_right, exists_or]

/-- A provider that admits accounts of its own. -/
def partnerInput : ProviderSettingsInput where
  issuer := "https://idp"
  clientId := "client"
  redirectUri := "https://host"
  scopes := ["openid"]
  claims := { subject := .oidc, profile := ⟨none, 300⟩, groups := none, departmentSnapshot := none }
  jit := true

def partner : ProviderSettings Env.transparent.parsers := ⟨partnerInput, by decide +kernel⟩

/-- What the provider says of its first subject. -/
def partnerClaims : UpstreamClaims where
  issuer := "https://idp"
  subject := .oidc "bob"
  profile := .absent
  groups := .notConfigured
  departmentSnapshot := .notConfigured
  issuedAt := 100
  expiresAt := 400
  assurance := ⟨none, .unspecified, [], by decide, by decide, by decide⟩

/-- The login of `bob` from the provider that `ada` set up. -/
@[irreducible] def federated : Except Failure (FederatedOutcome × Tenant) :=
  (partnerLogin .transparent ⟨Uuid.newV4 0⟩ "ada" "hash"
    "0123456789012345678901234567890123456789012" partner partnerClaims).run newTenant

/-- The world after it. -/
@[irreducible] def federatedWorld : Tenant :=
  match federated with
  | .ok (_, w) => w
  | .error _ => newTenant

/-- The login of `bob` succeeds. -/
theorem federated_reachable : ∃ trace held,
    Run (Step .transparent) ⟨newTenant, []⟩ trace ⟨federatedWorld, held⟩ ∧
      ∃ e ∈ trace, ∃ actor id expected edit result,
        e.label = .commit (.editProvider actor id expected edit result) := by
  have hok : federated.toOption.isSome = true := by decide +kernel
  obtain ⟨⟨outcome, w⟩, hsome⟩ := Option.isSome_iff_exists.mp hok
  have hrun := eq_ok_of_toOption hsome
  have hw : federatedWorld = w := by
    unfold federatedWorld
    rw [hrun]
  rw [hw]
  unfold federated at hrun
  obtain ⟨trace, held, hrun, hedited, -⟩ := run_partnerLogin hrun
  exact ⟨trace, held, hrun, hedited⟩

end IdentityAuthority
