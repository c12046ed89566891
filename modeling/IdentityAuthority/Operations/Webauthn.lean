import IdentityAuthority.Storage.Management
import IdentityAuthority.Storage.StepUp

/-!
# Authenticator ceremonies

A ceremony is begun in one transaction, verified outside, and settled in another. It names
the session, the account epochs, the credential epoch and the relying-party configuration it
was begun with, and is settled only by the same.
-/

namespace IdentityAuthority

open Relational

/-- A relying party: its identifier and its web origin, each a single line. -/
structure RelyingParty where
  rp : String
  origin : String
  rp_line : '\n' ∉ rp.toList
deriving DecidableEq

/-- The fingerprint of a configuration (`rp_configuration`). -/
def RelyingParty.fingerprint (env : Env) (party : RelyingParty) : Digest :=
  env.sha256.text (party.rp ++ "\n" ++ party.origin ++ "\nuv-required-v1")

/-- A connected relying party: the configuration, and the generation it was found at. -/
structure WebauthnAuthority where
  party : RelyingParty
  generation : ℤ
deriving DecidableEq

/-- The configuration of a connected relying party. -/
def WebauthnAuthority.config (env : Env) (this : WebauthnAuthority) : Digest :=
  this.party.fingerprint env

/-- Connects a relying party, whose configuration is stored by the first to come (`connect`). -/
def connectWebauthn (env : Env) (party : RelyingParty) : Action WebauthnAuthority := do
  let stored ← Tx.find Tables.webauthnRp party.rp
  match stored with
  | some row => do
    Tx.require (row.fingerprint = party.fingerprint env) .rejected
    pure { party, generation := row.generation }
  | none => do
    Tx.insertInto Tables.webauthnRp
      { rp := party.rp, fingerprint := party.fingerprint env, generation := 1 } .constraint
    pure { party, generation := 1 }

/-- The configuration is the active one, at the generation it was connected at
(`check_configuration`). -/
def checkConfiguration (env : Env) (this : WebauthnAuthority) : Action Unit := do
  let row ← Tx.find Tables.webauthnRp this.party.rp
  let row ← Tx.demand row .rejected
  Tx.require (row.fingerprint = this.config env ∧ row.generation = this.generation) .rejected

/-- Moves the account on to its next credential epoch. -/
def advanceCredentialEpoch (key : AccountKey) (f : WebauthnAccountRow → WebauthnAccountRow) :
    Action Unit := do
  let _ ← Tx.updateIn Tables.webauthnAccounts (fun row => decide (row.principal = key))
    (fun row => { f row with epoch := row.epoch + 1 }) .constraint
  pure ()

/-- The account's row, inserted at its first use (`account`). -/
def webauthnAccount (env : Env) (key : AccountKey) : Action WebauthnAccountRow := do
  let stored ← Tx.find Tables.webauthnAccounts key
  match stored with
  | some row => pure row
  | none => do
    let userHandle ← newV4 env
    let row : WebauthnAccountRow := { principal := key, userHandle, enrolled := false, epoch := 1 }
    Tx.insertInto Tables.webauthnAccounts row .constraint
    pure row

/-- The credential is one the account can use with a configuration. -/
def WebauthnCredentialRow.usable (row : WebauthnCredentialRow) (key : AccountKey) (rp : String)
    (config : Digest) : Bool :=
  decide (row.principal = key ∧ row.rp = rp ∧ row.rpConfig = config ∧ row.revoked = false)

/-- The credentials an account can use with a configuration, 17 at most (`credentials`). -/
def usableCredentials (key : AccountKey) (rp : String) (config : Digest) :
    Action (List CredentialSnapshot) := do
  let rows ← Tx.select Tables.webauthnCredentials fun row => row.usable key rp config
  let rows := (rows.insertionSort fun r s => r.id.value ≤ s.id.value).take 17
  pure (rows.map fun row => ⟨row.id, row.version, row.epoch, row.value⟩)

/-- Removes the ceremonies of an account that are over, and up to 128 of the tenant. -/
def removeExpiredCeremonies (key : AccountKey) (now : ℤ) : Action Unit := do
  let _ ← Tx.deleteFrom Tables.webauthnCeremonies
    (fun row => decide (row.principal = key ∧ row.expiresAt ≤ now)) .constraint
  let past ← Tx.select Tables.webauthnCeremonies fun row => decide (row.expiresAt ≤ now)
  let past := ((past.insertionSort fun r s => r.expiresAt ≤ s.expiresAt).take 128).map
    WebauthnCeremonyRow.id
  let _ ← Tx.deleteFrom Tables.webauthnCeremonies (fun row => past.contains row.id) .constraint
  pure ()

/-- The ceremony is a registration. -/
def Ceremony.isRegister : Ceremony → Bool
  | register _ _ _ _ _ _ => true
  | authenticate _ _ _ => false

/-- A ceremony handed to the browser. -/
structure WebauthnChallenge where
  id : Uuid
  expiresAt : ℤ
deriving DecidableEq

/-- When a ceremony ends: after two minutes, or with the session. -/
def ceremonyExpiry (loaded : Loaded) (now : ℤ) : ℤ :=
  min (min (now + 120) loaded.view.idleExpiresAt) loaded.view.absoluteExpiresAt

/-- Stores a ceremony of a loaded session (`store`). -/
def storeCeremony (env : Env) (loaded : Loaded) (epoch : ℤ) (config : Digest)
    (ceremony : Ceremony) : Action WebauthnChallenge := do
  let now ← now
  removeExpiredCeremonies loaded.state.key now
  let held ← Tx.select Tables.webauthnCeremonies fun row =>
    decide (row.principal = loaded.state.key)
  Tx.require (held.length < 8) .rejected
  let id ← newV4 env
  Tx.insertInto Tables.webauthnCeremonies
    { id
      principal := loaded.state.key
      session := loaded.view.id
      authEpoch := loaded.state.epoch
      membershipEpoch := loaded.state.membershipEpoch
      credentialEpoch := epoch
      rpConfig := config
      state := ceremony
      createdAt := now
      expiresAt := ceremonyExpiry loaded now } .constraint
  pure { id, expiresAt := ceremonyExpiry loaded now }

/-- A ceremony as it was found. -/
structure CeremonySnapshot where
  ceremony : Ceremony
  epoch : ℤ
  observedAt : ℤ
  expiresAt : ℤ
deriving DecidableEq

/-- A stored ceremony belongs to a loaded session, at the account's credential epoch, under a
configuration, at a time. -/
structure WebauthnCeremonyRow.BelongsTo (row : WebauthnCeremonyRow) (loaded : Loaded) (epoch : ℤ)
    (config : Digest) (now : ℤ) : Prop where
  principal : row.principal = loaded.state.key
  session : row.session = loaded.view.id
  authEpoch : row.authEpoch = loaded.state.epoch
  membershipEpoch : row.membershipEpoch = loaded.state.membershipEpoch
  credentialEpoch : row.credentialEpoch = epoch
  rpConfig : row.rpConfig = config
  created : row.createdAt ≤ now
  unexpired : now < row.expiresAt

instance (row : WebauthnCeremonyRow) (loaded : Loaded) (epoch : ℤ) (config : Digest) (now : ℤ) :
    Decidable (row.BelongsTo loaded epoch config now) :=
  decidable_of_iff (row.principal = loaded.state.key ∧ row.session = loaded.view.id ∧
      row.authEpoch = loaded.state.epoch ∧ row.membershipEpoch = loaded.state.membershipEpoch ∧
      row.credentialEpoch = epoch ∧ row.rpConfig = config ∧ row.createdAt ≤ now ∧
      now < row.expiresAt)
    ⟨fun ⟨h1, h2, h3, h4, h5, h6, h7, h8⟩ => ⟨h1, h2, h3, h4, h5, h6, h7, h8⟩,
     fun h => ⟨h.1, h.2, h.3, h.4, h.5, h.6, h.7, h.8⟩⟩

/-- Reads the ceremony of a loaded session (`read_loaded`). -/
def readLoaded (env : Env) (loaded : Loaded) (id : Uuid) (config : Digest) :
    Action CeremonySnapshot := do
  let row ← Tx.find Tables.webauthnCeremonies id
  let row ← Tx.demand row .rejected
  let account ← webauthnAccount env loaded.state.key
  let now ← now
  Tx.require (row.BelongsTo loaded account.epoch config now) .rejected
  pure
    { ceremony := row.state
      epoch := account.epoch
      observedAt := now
      expiresAt := row.expiresAt }

/-- Reads the ceremony of an actor (`read`). -/
def readCeremony (env : Env) (actor : AuthenticatedSession) (id : Uuid) (config : Digest) :
    Action CeremonySnapshot := do
  let loaded ← recheck env actor
  readLoaded env loaded id config

/-- Removes a ceremony that must still be there (`consume`). -/
def consumeCeremony (key : AccountKey) (id : Uuid) : Action Unit := do
  let removed ← Tx.deleteFrom Tables.webauthnCeremonies
    (fun row => decide (row.principal = key ∧ row.id = id)) .constraint
  Tx.require (removed = 1) .rejected

/-- The host-side context of a self-service operation (`webauthn_management_context`). -/
def webauthnManagementContext (env : Env) (key : AccountKey) (operation : String)
    (credential : Option Uuid) : StepUpContext where
  purpose := "identity.webauthn." ++ operation
  digest := env.sha256.text (env.parsers.uuidText key.uuid ++ "/" ++ operation ++ "/" ++
    credential.elim "" env.parsers.uuidText)

/-- What a registration is authorized by; the host chooses. -/
inductive RegistrationAuthorization
  | first
  | stepUp (token : Secret)
  | hostRecovery
deriving DecidableEq

/-- The label is one a credential may carry. -/
def labelValid (label : String) : Bool :=
  decide (0 < label.utf8ByteSize ∧ label.utf8ByteSize ≤ 128) && printable label

/-- The management operation a registration is. -/
def registrationOperation (hostRecovery recover : Bool) : ManagementOperation :=
  if hostRecovery then .authorizeWebauthnRecovery
  else if recover then .recoverWebauthn
  else .registerWebauthn

/-- How a registration is authorized: the first one by a recent authentication, a later one by
a consumed grant, a recovery by the host or by a consumed grant. -/
def authorizeRegistration (env : Env) (actor : AuthenticatedSession) (loaded : Loaded)
    (enrolled recover : Bool) (authorization : RegistrationAuthorization) :
    Action (Option ConsumedStepUp) :=
  match authorization with
  | .first => do
    Tx.require (enrolled = false ∧ recover = false) .rejected
    let recent ← recentlyAuthenticated loaded 300
    Tx.require (recent = true) .rejected
    pure none
  | .stepUp token => do
    let consumed ← consumeStepUpOn env actor
      (webauthnManagementContext env actor.key (if recover then "recover" else "register") none)
      token
    pure (some consumed)
  | .hostRecovery => do
    Tx.require (recover = true) .rejected
    pure none

/-- Begins the registration of a credential (`begin_registration`). -/
def beginRegistration (env : Env) (this : WebauthnAuthority) (actor : AuthenticatedSession)
    (label : String) (recover : Bool) (authorization : RegistrationAuthorization) :
    Action WebauthnChallenge := do
  Tx.require (labelValid label = true) .invalidInput
  let loaded ← recheck env actor
  checkConfiguration env this
  let account ← webauthnAccount env actor.key
  let hostRecovery := decide (authorization = .hostRecovery)
  authorize env loaded (registrationOperation hostRecovery recover) (some actor.key)
  let consumed ← authorizeRegistration env actor loaded account.enrolled recover authorization
  let keys ← usableCredentials actor.key this.party.rp (this.config env)
  Tx.require (recover = false → keys.length < 16) .rejected
  let draw ← Tx.random env.entropy
  let state ← Tx.demand (env.webauthn.startRegistration account.userHandle
    (keys.map fun key => key.passkey.credId) draw) .rejected
  storeCeremony env loaded account.epoch (this.config env)
    (.register state label recover (consumed.map ConsumedStepUp.source) hostRecovery
      (consumed.map ConsumedStepUp.authenticatedAt))

/-- Begins an authentication for an operation (`begin_authentication`). -/
def beginAuthentication (env : Env) (this : WebauthnAuthority) (actor : AuthenticatedSession)
    (context : StepUpContext) : Action WebauthnChallenge := do
  let loaded ← recheck env actor
  checkConfiguration env this
  let account ← webauthnAccount env actor.key
  let keys ← usableCredentials actor.key this.party.rp (this.config env)
  Tx.require (keys ≠ []) .rejected
  let draw ← Tx.random env.entropy
  let state ← Tx.demand (env.webauthn.startAuthentication
    (keys.map CredentialSnapshot.passkey) draw) .rejected
  storeCeremony env loaded account.epoch (this.config env) (.authenticate state context keys)

/-- Reads a ceremony for its verification outside (`snapshot`). -/
def snapshotCeremony (env : Env) (this : WebauthnAuthority) (actor : AuthenticatedSession)
    (id : Uuid) : Action CeremonySnapshot := do
  Tx.require (actor.authority = env.instanceId) .rejected
  let loaded ← lookup env actor.digest .cookie actor.checks
  Tx.require (loaded.view.id = actor.view.id ∧ loaded.state.key = actor.key) .rejected
  checkConfiguration env this
  readLoaded env loaded id (this.config env)

/-- What authorized a registration is still good when it is settled. -/
def recheckAuthorization (actor : AuthenticatedSession) (loaded : Loaded)
    (authorization : Option GrantSource) (hostRecovery : Bool) (authorizationTime : Option ℤ) :
    Action Unit :=
  match authorization with
  | some source => do
    let now ← now
    Tx.require (∃ time ∈ authorizationTime, time ≤ now ∧ now - time < 300) .rejected
    validateSource actor.key source
  | none =>
    if hostRecovery then pure ()
    else do
      let recent ← recentlyAuthenticated loaded 300
      Tx.require (recent = true) .rejected

/-- Revokes credentials, each moving to its next epoch. -/
def revokeCredentials (p : WebauthnCredentialRow → Bool) : Action ℕ :=
  Tx.updateIn Tables.webauthnCredentials (fun row => p row && !row.revoked)
    (fun row => { row with revoked := true, epoch := row.epoch + 1 }) .constraint

/-- A recovery revokes every credential the account had. -/
def revokePrevious (key : AccountKey) (recover : Bool) : Action Unit :=
  if recover then do
    let _ ← revokeCredentials fun row => decide (row.principal = key)
    pure ()
  else pure ()

/-- Inserts a credential whose authenticator no one registered at the relying party yet. -/
def insertCredential (env : Env) (this : WebauthnAuthority) (key : AccountKey) (passkey : Passkey)
    (label : String) : Action Uuid := do
  let id ← newV4 env
  let taken ← Tx.exists? Tables.webauthnCredentials fun row =>
    decide (row.rp = this.party.rp ∧ row.credentialHash = passkey.credId)
  Tx.require (taken = false) .rejected
  Tx.insertInto Tables.webauthnCredentials
    { id
      principal := key
      rp := this.party.rp
      rpConfig := this.config env
      credentialHash := passkey.credId
      value := passkey
      label
      epoch := 1
      version := 1
      revoked := false } .constraint
  pure id

/-- Settles a registration whose response was verified (`finish_registration`). -/
def finishRegistration (env : Env) (this : WebauthnAuthority) (actor : AuthenticatedSession)
    (id : Uuid) (snapshot : CeremonySnapshot) (response : ℕ) : Action Uuid :=
  match snapshot.ceremony with
  | .authenticate _ _ _ => Tx.throw .rejected
  | .register state label recover authorization hostRecovery authorizationTime => do
    let passkey ← Tx.demand (env.webauthn.finishRegistration response state) .rejected
    let loaded ← recheck env actor
    checkConfiguration env this
    let current ← readCeremony env actor id (this.config env)
    Tx.require (current.epoch = snapshot.epoch ∧ current.ceremony.isRegister = true) .rejected
    authorize env loaded (registrationOperation hostRecovery recover) (some actor.key)
    recheckAuthorization actor loaded authorization hostRecovery authorizationTime
    revokePrevious actor.key recover
    let credential ← insertCredential env this actor.key passkey label
    advanceCredentialEpoch actor.key fun row => { row with enrolled := true }
    let instant ← now
    Tx.require (instant < current.expiresAt) .rejected
    consumeCeremony actor.key id
    pure credential

/-- The credential a response was made with, its authenticator state moved on. -/
def selectCredential (env : Env) (credentials : List CredentialSnapshot)
    (result : AuthenticationResult) : Option CredentialSnapshot := do
  let selected ← credentials.find? fun key => decide (key.passkey.credId = result.credId)
  let passkey ← env.webauthn.updateCredential selected.passkey result
  some { selected with passkey }

/-- Stores the authenticator state of a credential that is still at its snapshot. -/
def updateAuthenticator (key : AccountKey) (selected : CredentialSnapshot) : Action Unit := do
  let updated ← Tx.updateIn Tables.webauthnCredentials
    (fun row => decide (row.principal = key ∧ row.id = selected.id ∧
      row.version = selected.version ∧ row.epoch = selected.epoch ∧ row.revoked = false))
    (fun row => { row with value := selected.passkey, version := row.version + 1 }) .constraint
  Tx.require (updated = 1) .rejected

/-- Settles an authentication whose response was verified (`finish_authentication`). -/
def finishAuthentication (env : Env) (this : WebauthnAuthority) (actor : AuthenticatedSession)
    (id : Uuid) (snapshot : CeremonySnapshot) (response : ℕ) : Action StepUpGrant :=
  match snapshot.ceremony with
  | .register _ _ _ _ _ _ => Tx.throw .rejected
  | .authenticate state context credentials => do
    let result ← Tx.demand (env.webauthn.finishAuthentication response state) .rejected
    Tx.require (result.userVerified = true) .rejected
    let selected ← Tx.demand (selectCredential env credentials result) .rejected
    let loaded ← recheck env actor
    checkConfiguration env this
    let current ← readCeremony env actor id (this.config env)
    Tx.require (current.epoch = snapshot.epoch ∧ current.ceremony.isRegister = false) .rejected
    updateAuthenticator actor.key selected
    let grant ← issueGrant env loaded context
      (.webauthn selected.id selected.epoch this.party.rp this.generation) snapshot.observedAt
    let instant ← now
    Tx.require (instant < current.expiresAt) .rejected
    consumeCeremony actor.key id
    pure grant

/-- Removes a credential by a consumed grant (`remove`). -/
def removeCredential (env : Env) (this : WebauthnAuthority) (actor : AuthenticatedSession)
    (id : Uuid) (grant : Secret) : Action Unit := do
  let loaded ← recheck env actor
  checkConfiguration env this
  authorize env loaded .removeWebauthn (some actor.key)
  let _ ← consumeStepUpOn env actor
    (webauthnManagementContext env actor.key "remove" (some id)) grant
  let changed ← revokeCredentials fun row => decide (row.principal = actor.key ∧ row.id = id)
  Tx.require (changed = 1) .rejected
  advanceCredentialEpoch actor.key fun row => row

/-- Cancels a ceremony (`cancel`). -/
def cancelCeremony (env : Env) (this : WebauthnAuthority) (actor : AuthenticatedSession)
    (id : Uuid) : Action Unit := do
  let _ ← readCeremony env actor id (this.config env)
  checkConfiguration env this
  consumeCeremony actor.key id

/-- Activates a configuration of a relying party in the next generation, which ends what the
previous one began (`activate_webauthn_rp_on`). -/
def activateWebauthnRp (env : Env) (party : RelyingParty) (expectedGeneration : ℤ) :
    Action ℤ := do
  Tx.require (1 ≤ expectedGeneration) .rejected
  let previous ← Tx.find Tables.webauthnRp party.rp
  let previous ← Tx.demand previous .unavailable
  let changed ← Tx.updateIn Tables.webauthnRp
    (fun row => decide (row.rp = party.rp ∧ row.generation = expectedGeneration))
    (fun row => { row with
      fingerprint := party.fingerprint env, generation := row.generation + 1 }) .constraint
  Tx.require (changed = 1) .rejected
  let _ ← Tx.deleteFrom Tables.webauthnCeremonies
    (fun row => decide (row.rpConfig = previous.fingerprint)) .constraint
  let _ ← revokeCredentials fun row => decide (row.rp = party.rp)
  pure (expectedGeneration + 1)

end IdentityAuthority
