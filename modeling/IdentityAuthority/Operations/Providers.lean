import IdentityAuthority.Operations.Federation

/-!
# Provider operations

A provider is created disabled. Every later change moves its configuration version, and all
but an idle switch of the enabled flag move its revocation epoch, which ends the sessions that
came from it.
-/

namespace IdentityAuthority

open Relational

/-- How many providers a tenant may have. -/
def maxProviders : ℕ := 100

/-- Seals the client credentials of a provider under a version and stores them, in place of
earlier ones (`write_credentials`). -/
def writeCredentials (env : Env) (id : ProviderId) (version : ℤ) (credentials : ℕ) :
    Action Unit := do
  let nonce ← Tx.random env.entropy
  let sealedValue ← Tx.demand (env.sealCredentials id version credentials nonce) .corrupt
  let stored ← Tx.find Tables.providerCredentials id
  match stored with
  | none =>
    Tx.insertInto Tables.providerCredentials
      { provider := id, credentialVersion := version, sealedValue } .constraint
  | some _ => do
    let _ ← Tx.updateIn Tables.providerCredentials (fun row => decide (row.provider = id))
      (fun row => { row with credentialVersion := version, sealedValue }) .constraint
    pure ()

/-- Creates a disabled provider (`persist_create_provider`). -/
def createProvider (env : Env) (actor : AuthenticatedSession)
    (settings : ProviderSettings env.parsers) (credentials : ℕ) (profile : Digest) :
    Action (ProviderView env.parsers) := do
  let loaded ← recheck env actor
  authorize env loaded .createProvider none
  let held ← Tx.select Tables.providers fun _ => true
  Tx.require (held.length < maxProviders) (.federation .providerLimitReached)
  let id ← newV4 env
  let view : ProviderView env.parsers :=
    { id := ⟨id⟩, version := 1, enabled := false, revocationEpoch := 1, settings,
      assuranceProfile := profile, credentialVersion := 1 }
  Tx.insertInto Tables.providers view.row .constraint
  writeCredentials env view.id 1 credentials
  pure view

/-- A change of a provider by the host: its settings, with the client credentials and the profile
they are read by, or whether it is enabled. -/
inductive ProviderEdit (parsers : Parsers)
  | settings (value : ProviderSettings parsers) (credentials : ℕ) (profile : Digest)
  | enabled (value : Bool)

namespace ProviderEdit

variable {parsers : Parsers}

/-- The management operation an edit is. -/
def operation (id : ProviderId) : ProviderEdit parsers → ManagementOperation
  | settings _ _ _ => .updateProvider id
  | enabled value => .setProviderEnabled id value

/-- An `i64` generation after its next step, or the refusal to take it. -/
def step (generation : ℤ) : Except Failure ℤ :=
  match checkedAdd generation 1 with
  | some next => .ok next
  | none => .error (.federation .rejected)

/-- The revocation epoch after the enabled flag is set: it moves where the flag does. -/
def switchedEpoch (view : ProviderView parsers) (value : Bool) : Except Failure ℤ :=
  if view.enabled ≠ value then step view.revocationEpoch else .ok view.revocationEpoch

/-- What an edit sets, before the version moves on. -/
def set (view : ProviderView parsers) :
    ProviderEdit parsers → Except Failure (ProviderView parsers)
  | settings value _ profile =>
    if value.input.issuer ≠ view.settings.input.issuer then .error (.federation .configuration)
    else do
      let credentialVersion ← step view.credentialVersion
      let revocationEpoch ← step view.revocationEpoch
      .ok { view with settings := value, assuranceProfile := profile, credentialVersion,
                      revocationEpoch }
  | enabled value => do
    let revocationEpoch ← switchedEpoch view value
    .ok { view with enabled := value, revocationEpoch }

/-- New settings come with credentials, sealed under the version they are set at. -/
def sealCredentials {env : Env} (view : ProviderView env.parsers) : ProviderEdit env.parsers → Action Unit
  | settings _ credentials _ => writeCredentials env view.id view.credentialVersion credentials
  | enabled _ => pure ()

end ProviderEdit

/-- Writes the columns of a provider. -/
def storeProvider {parsers : Parsers} (view : ProviderView parsers) : Action Unit := do
  let _ ← Tx.updateIn Tables.providers (fun row => decide (row.provider = view.id))
    (fun row => { view.row with provider := row.provider }) .constraint
  pure ()

/-- Changes a provider that is still at the version the host saw (`edit_provider`). -/
def editProvider (env : Env) (actor : AuthenticatedSession) (id : ProviderId) (expected : ℤ)
    (edit : ProviderEdit env.parsers) : Action (ProviderView env.parsers) := do
  let loaded ← recheck env actor
  authorize env loaded (edit.operation id) none
  let view ← provider env id
  Tx.require (view.version = expected) (.federation .staleConfiguration)
  let next ← Tx.ofExcept (edit.set view)
  edit.sealCredentials next
  let version ← Tx.ofExcept (ProviderEdit.step next.version)
  storeProvider { next with version }
  pure { next with version }

/-- How many security events one transaction may report. -/
def maxMutationEvents : ℕ := 8

/-- A provider under the profile its assurance is read by now; both generations move. -/
def ProviderView.reconciled {parsers : Parsers} (view : ProviderView parsers) (profile : Digest) :
    Except Failure (ProviderView parsers) := do
  let version ← ProviderEdit.step view.version
  let revocationEpoch ← ProviderEdit.step view.revocationEpoch
  .ok { view with version, revocationEpoch, assuranceProfile := profile }

/-- Brings a provider to its current profile; says whether there was something to do. -/
def reconcileProvider (env : Env) (profile : ProviderSettings env.parsers → Digest)
    (id : ProviderId) : Action Bool := do
  let view ← provider env id
  if profile view.settings = view.assuranceProfile then pure false
  else do
    let next ← Tx.ofExcept (view.reconciled (profile view.settings))
    storeProvider next
    pure true

/-- Brings providers to their current profiles one by one, until the transaction has reported
as many events as it may. -/
def reconcileProviders (env : Env) (profile : ProviderSettings env.parsers → Digest) :
    List ProviderId → ℕ → Action Bool
  | [], _ => pure false
  | id :: ids, reported => do
    let changed ← reconcileProvider env profile id
    let reported := if changed then reported + 1 else reported
    if changed ∧ reported = maxMutationEvents then pure true
    else reconcileProviders env profile ids reported

/-- One transaction of `reconcile_assurance_profiles`; it says whether another one must follow.
The profiles are those of the deployment that runs it. -/
def reconcileAssuranceProfiles (env : Env) (profile : ProviderSettings env.parsers → Digest) :
    Action Bool := do
  let rows ← Tx.select Tables.providers fun _ => true
  let ids := (rows.map ProviderRow.provider).insertionSort fun p q => p.uuid.value ≤ q.uuid.value
  Tx.require (ids.length ≤ maxProviders) .rejected
  reconcileProviders env profile ids 0

/-- A subject whose native token was verified for one provider, at its version and epoch. -/
structure VerifiedExternalSubject where
  provider : ProviderId
  version : ℤ
  epoch : ℤ
  tenant : Uuid
  subject : ExternalSubject

/-- The provider is the one a native token profile is for (`check_provider`). -/
def checkEntraProvider {parsers : Parsers} (view : ProviderView parsers) (tenant : Uuid) : Bool :=
  view.enabled && decide (view.settings.input.issuer =
      "https://login.microsoftonline.com/" ++ parsers.uuidText tenant ++ "/v2.0" ∧
    view.settings.input.claims.subject = .entra tenant)

/-- The provider is still what a verified subject was verified for (`check_current`). -/
def checkCurrent {parsers : Parsers} (verified : VerifiedExternalSubject)
    (view : ProviderView parsers) : Except FederationError Unit :=
  if checkEntraProvider view verified.tenant = false then .error .rejected
  else if view.version ≠ verified.version ∨ view.revocationEpoch ≠ verified.epoch then
    .error .rejected
  else .ok ()

/-- The account a verified subject is bound to, or a new one where the provider admits it. -/
def entraAccount (env : Env) (view : ProviderView env.parsers) (subject : String) :
    Action AccountKey := do
  let bound ← Tx.select Tables.externalIdentities fun row =>
    decide (row.provider = view.id ∧ row.issuer = view.settings.input.issuer ∧
      row.subject = subject)
  match bound.head? with
  | some row => pure row.principal
  | none => do
    Tx.require (view.settings.input.jit = true) (.federation .rejected)
    let principal ← newV4 env
    insertFederatedAccount ⟨principal⟩
    let identity ← newV4 env
    Tx.insertInto Tables.externalIdentities
      { identity
        principal := ⟨principal⟩
        provider := view.id
        issuer := view.settings.input.issuer
        subject } .constraint
    pure ⟨principal⟩

/-- Resolves a verified subject to its active account (`resolve`). -/
def resolveEntra (env : Env) (verified : VerifiedExternalSubject) : Action AccountState := do
  let view ← provider env verified.provider
  Tx.ofExcept (ofFederation (checkCurrent verified view))
  let key ← entraAccount env view (verified.subject.storageKey env.parsers)
  let stored ← load key
  Tx.require (stored.state.active = true) .rejected
  pure stored.state

@[simp] theorem checkCurrent_eq_ok {parsers : Parsers} {verified : VerifiedExternalSubject}
    {view : ProviderView parsers} :
    checkCurrent verified view = .ok () ↔ checkEntraProvider view verified.tenant = true ∧
      view.version = verified.version ∧ view.revocationEpoch = verified.epoch := by
  unfold checkCurrent
  split
  · simp [*]
  · split
    · rename_i hne
      simp only [reduceCtorEq, false_iff, not_and]
      intro _ hversion hepoch
      rcases hne with hne | hne
      · exact hne hversion
      · exact hne hepoch
    · rename_i hentra hsame
      simp only [not_or, not_not] at hsame
      simp [hsame, hentra]

end IdentityAuthority
