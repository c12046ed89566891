import IdentityAuthority.Storage.Accounts
import IdentityAuthority.Storage.Federation

/-!
# Sessions in storage

Every session path loads the account first, then the session, and judges its lifetime at a
clock reading of its own. A session is admitted by its account, its epochs, its origin and
its lifetime; what it may show of groups and department is judged after that.
-/

namespace IdentityAuthority

open Relational

/-- `PlatformAuthentication::assurance`. -/
def PlatformAuthentication.assurance (stored : PlatformAuthentication) :
    Except Failure Assurance :=
  if stored.binding.valid = false ∨ stored.authenticatedAt.isSome = true ∧
      stored.userVerification = false then .error .corrupt
  else
    match Assurance.new stored.authenticatedAt .unspecified [] with
    | .ok assurance => .ok assurance
    | .error _ => .error .corrupt

/-- The upstream identity a platform binding names is still good (`external`). -/
def external (binding : PlatformBinding) : Action Unit :=
  match binding.externalIdentity with
  | none => pure ()
  | some named => do
    let identity ← Tx.find Tables.externalIdentities named.identity
    let identity ← Tx.demand identity .rejected
    let provider ← Tx.find Tables.providers named.provider
    let provider ← Tx.demand provider .rejected
    Tx.require (identity.principal = binding.account ∧ identity.provider = named.provider ∧
      provider.enabled = true ∧ provider.configVersion = named.configVersion ∧
      provider.revocationEpoch = named.revocationEpoch) .rejected

/-- A platform authentication is still good (`platform::recheck`). -/
def recheckPlatform (env : Env) (key : AccountKey) (stored : PlatformAuthentication)
    (checks : Option PlatformVerifier) : Action Unit := do
  let verifier ← Tx.demand checks .rejected
  let world ← Tx.world
  Tx.require (stored.binding.valid = true ∧ stored.binding.account = key ∧
    stored.binding.instanceId = env.instanceId ∧ verifier.audience world = stored.audience) .rejected
  Tx.require (verifier.recheck stored.binding world = true) .rejected
  external stored.binding
  let _ ← Tx.ofExcept stored.assurance
  pure ()

/-- `SessionView`. -/
structure SessionView where
  credentialKind : CredentialKind
  id : SessionId
  issuedAt : ℤ
  idleExpiresAt : ℤ
  absoluteExpiresAt : ℤ
deriving DecidableEq

/-- `SessionView::new`. -/
def SessionView.new (id : SessionId) (lifetime : SessionLifetime) (kind : CredentialKind) :
    SessionView where
  credentialKind := kind
  id
  issuedAt := lifetime.issuedAt
  idleExpiresAt := lifetime.idleExpiresAt
  absoluteExpiresAt := lifetime.absoluteExpiresAt

/-- A session that passed the checks of its account, origin and lifetime. -/
structure Admitted where
  state : AccountState
  row : SessionRow
  origin : Option Origin
  factSource : Option FactSource
  lifetime : SessionLifetime
  micros : ℤ

/-- Whole seconds of the reading a session was judged at. -/
def Admitted.now (admitted : Admitted) : ℤ := seconds admitted.micros

/-- The columns of a session agree with its account, and it is not revoked. -/
structure SessionRow.Current (row : SessionRow) (key : AccountKey) (state : AccountState) :
    Prop where
  principal : row.principal = key
  active : state.active = true
  authEpoch : row.authEpoch = state.epoch
  membershipEpoch : row.membershipEpoch = state.membershipEpoch
  unrevoked : row.revokedAt = none

instance (row : SessionRow) (key : AccountKey) (state : AccountState) :
    Decidable (row.Current key state) :=
  decidable_of_iff (row.principal = key ∧ state.active = true ∧ row.authEpoch = state.epoch ∧
      row.membershipEpoch = state.membershipEpoch ∧ row.revokedAt = none)
    ⟨fun ⟨h1, h2, h3, h4, h5⟩ => ⟨h1, h2, h3, h4, h5⟩, fun h => ⟨h.1, h.2, h.3, h.4, h.5⟩⟩

/-- The lifetime a session row stores. -/
def SessionRow.lifetime (row : SessionRow) : Option SessionLifetime := do
  let policy ← SessionPolicy.new row.idleTimeout row.absoluteTimeout
  SessionLifetime.restore row.issuedAt row.idleExpiresAt row.absoluteExpiresAt policy

/-- The origin of a session, checked if it has one. -/
def checkedOrigin (env : Env) (key : AccountKey) (sid : SessionId) :
    Action (Option Origin × Option FactSource) := do
  let found ← origin sid
  match found with
  | some o => do
    let source ← checkOrigin env key o
    pure (some o, some source)
  | none => pure (none, none)

/-- The first half of `by_id`: account, epochs, revocation, origin and lifetime. -/
def admitSession (env : Env) (key : AccountKey) (sid : SessionId) : Action Admitted := do
  let stored ← load key
  let row ← Tx.find Tables.sessions sid
  let row ← Tx.demand row .rejected
  Tx.require (row.Current key stored.state) .rejected
  let (origin, factSource) ← checkedOrigin env key sid
  let lifetime ← Tx.demand row.lifetime .corrupt
  let micros ← Tx.clockTimestamp
  Tx.require (0 < micros) .corrupt
  Tx.require (lifetime.validAt (seconds micros) = true) .rejected
  pure { state := stored.state, row, origin, factSource, lifetime, micros }

/-- What a loaded session is and may show. -/
structure Loaded where
  source : AuthenticationSource
  assurance : Assurance
  groups : Groups
  departmentSnapshot : DepartmentFacts
  micros : ℤ
  state : AccountState
  view : SessionView
  lifetime : SessionLifetime
  now : ℤ

/-- The department facts of an admitted session. -/
def Admitted.department (admitted : Admitted) : Except Failure DepartmentFacts :=
  match admitted.origin, admitted.factSource with
  | some origin, some source => origin.facts.departmentSnapshot.facts source
      origin.facts.providerConfigVersion admitted.now
  | none, none =>
    .ok (.unavailable (if admitted.row.authenticationSource = .platform then .notConfigured
      else .localIdentity))
  | _, _ => .error .corrupt

/-- The assurance and the groups of an admitted session; a platform session is rechecked. -/
def assuranceAndGroups (env : Env) (key : AccountKey) (checks : Option PlatformVerifier)
    (admitted : Admitted) : Action (Assurance × Groups) :=
  match admitted.row.authenticationSource, admitted.origin, admitted.factSource with
  | .oidc, some origin, some source => do
    let groups ← Tx.ofExcept (origin.facts.project source admitted.now)
    pure (origin.facts.assurance, groups)
  | .localPassword, none, none => do
    let time ← Tx.demand admitted.row.localAuthenticatedAt .corrupt
    let assurance ← Tx.demand (Assurance.password time).toOption .corrupt
    pure (assurance, .unavailable .localIdentity)
  | .platform, none, none => do
    let stored ← Tx.demand admitted.row.platformAuthentication .corrupt
    recheckPlatform env key stored checks
    let assurance ← Tx.ofExcept stored.assurance
    pure (assurance, .unavailable .notConfigured)
  | _, _, _ => Tx.throw .corrupt

/-- The shared check of a session whose ownership was established (`by_id`). -/
def byId (env : Env) (key : AccountKey) (sid : SessionId) (checks : Option PlatformVerifier) :
    Action Loaded := do
  let admitted ← admitSession env key sid
  let department ← Tx.ofExcept admitted.department
  let (assurance, groups) ← assuranceAndGroups env key checks admitted
  Tx.require (assurance.accepted .login admitted.lifetime.issuedAt admitted.now = true) .rejected
  Tx.require (groups.structurallyValidAt admitted.now = true) .corrupt
  pure
    { source := admitted.row.authenticationSource
      assurance
      groups
      departmentSnapshot := department
      micros := admitted.micros
      state := admitted.state
      view := .new sid admitted.lifetime admitted.row.credentialKind
      lifetime := admitted.lifetime
      now := admitted.now }

/-- `Loaded::recently_authenticated`: judged at a later reading than the session was loaded at,
which the wait for the host policy has moved on. -/
def recentlyAuthenticated (loaded : Loaded) (maxAge : ℤ) : Action Bool := do
  let instant ← Tx.clockTimestamp
  pure <| loaded.assurance.authTime.any fun authenticated =>
    decide (authenticated ≤ loaded.now ∧ maxAge ≠ 0 ∧ 0 < authenticated + maxAge ∧
      instant + 1 < (authenticated + maxAge) * 1000000)

/-- The session a credential digest belongs to, of the kind it is presented as (`lookup`). -/
def lookup (env : Env) (digest : Digest) (kind : CredentialKind)
    (checks : Option PlatformVerifier) : Action Loaded := do
  let found ← Tx.select Tables.sessions fun row => decide (row.tokenHash = digest)
  let located ← Tx.demand found.head? .rejected
  let loaded ← byId env located.principal located.session checks
  let stored ← Tx.find Tables.sessions located.session
  let stored ← Tx.demand stored .unavailable
  Tx.require (stored.tokenHash = digest ∧ loaded.view.credentialKind = kind) .rejected
  pure loaded

/-- A request-scoped proof of authentication; every use rechecks it. -/
structure AuthenticatedSession where
  checks : Option PlatformVerifier
  key : AccountKey
  digest : Digest
  authority : Uuid
  view : SessionView

/-- Loads the session of a proof again (`recheck`). -/
def recheck (env : Env) (actor : AuthenticatedSession) : Action Loaded := do
  Tx.require (actor.authority = env.instanceId) .rejected
  let loaded ← lookup env actor.digest actor.view.credentialKind actor.checks
  Tx.require (loaded.state.key = actor.key ∧ loaded.view.id = actor.view.id) .rejected
  pure loaded

/-- Renews the idle expiry of a loaded session (`touch`). -/
def touch (loaded : Loaded) : Action Loaded := do
  let lifetime ← Tx.demand (loaded.lifetime.renew loaded.now) .rejected
  let _ ← Tx.updateIn Tables.sessionsUntracked
    (fun row => decide (row.session = loaded.view.id))
    (fun row => { row with idleExpiresAt := lifetime.idleExpiresAt }) .constraint
  pure { loaded with
    lifetime
    view := .new loaded.view.id lifetime loaded.view.credentialKind }

/-- Revokes a session (`close`). -/
def close (id : SessionId) (now : ℤ) : Action Unit := do
  let _ ← Tx.updateIn Tables.sessions (fun row => decide (row.session = id))
    (fun row => { row with revokedAt := some now }) .constraint
  pure ()

/-- How a session to insert was authenticated. -/
inductive SessionAuthentication
  | localPassword (time : ℤ)
  | oidc (origin : Origin)
  | platform (stored : PlatformAuthentication)

/-- A session just issued, with its secret. -/
structure IssuedSession where
  secret : Secret
  view : SessionView
  now : ℤ
  state : AccountState

/-- The columns a way to authenticate fills. -/
structure AuthenticationColumns where
  source : AuthenticationSource
  localAuthenticatedAt : Option ℤ
  origin : Option Origin
  platform : Option PlatformAuthentication

/-- The columns of an authentication, where the presentation admits it. -/
def SessionAuthentication.columns (authentication : SessionAuthentication) (now : ℤ)
    (kind : CredentialKind) : Except Failure AuthenticationColumns :=
  match authentication with
  | localPassword time =>
    if 0 < time ∧ time ≤ now then .ok ⟨.localPassword, some time, none, none⟩
    else .error .rejected
  | oidc origin => if kind = .cookie then .ok ⟨.oidc, none, some origin, none⟩ else .error .rejected
  | platform stored =>
    if kind = .cookie then do
      let _ ← stored.assurance
      .ok ⟨.platform, none, none, some stored⟩
    else .error .rejected

/-- The facts of an origin as they are stored. -/
def encodedFacts (env : Env) (origin : Option Origin) : Except Failure (Option AuthenticationFacts) :=
  match origin with
  | some o => do
    let facts ← o.facts.encode env.factsSize
    .ok (some facts)
  | none => .ok none

/-- Revokes the session that a new one replaces, if there is one. -/
def closeReplaced (replaced : Option SessionId) (now : ℤ) : Action Unit :=
  match replaced with
  | some id => close id now
  | none => pure ()

/-- The row of a session to issue. -/
def issuedRow (env : Env) (state : AccountState) (columns : AuthenticationColumns)
    (facts : Option AuthenticationFacts) (lifetime : SessionLifetime) (now : ℤ)
    (kind : CredentialKind) (secret : Secret) (id : SessionId) : SessionRow where
  principal := state.key
  factsSequence := columns.origin.map Origin.factsSequence
  session := id
  authenticationSource := columns.source
  localAuthenticatedAt := columns.localAuthenticatedAt
  platformAuthentication := columns.platform
  credentialKind := kind
  tokenHash := env.sha256.secret secret
  authEpoch := state.epoch
  membershipEpoch := state.membershipEpoch
  issuedAt := now
  idleTimeout := env.sessionPolicy.idle
  absoluteTimeout := env.sessionPolicy.absolute
  idleExpiresAt := lifetime.idleExpiresAt
  absoluteExpiresAt := lifetime.absoluteExpiresAt
  revokedAt := none
  profileSource := none
  profileSnapshot := none
  externalIdentity := columns.origin.map Origin.identity
  providerEpoch := columns.origin.map Origin.epoch
  authFacts := facts

/-- Issues a session for an account, in place of another one if asked (`sessions::insert`). -/
def insertSession (env : Env) (state : AccountState) (replaced : Option SessionId)
    (authentication : SessionAuthentication) (now : ℤ) (kind : CredentialKind) :
    Action IssuedSession := do
  let columns ← Tx.ofExcept (authentication.columns now kind)
  let secret ← randomSecret env
  let lifetime ← Tx.demand (SessionLifetime.new now env.sessionPolicy) .corrupt
  closeReplaced replaced now
  let id ← newV4 env
  let facts ← Tx.ofExcept (encodedFacts env columns.origin)
  Tx.insertInto Tables.sessions
    (issuedRow env state columns facts lifetime now kind secret ⟨id⟩) .constraint
  pure { secret, view := .new ⟨id⟩ lifetime kind, now, state }

variable {env : Env} {w w' : Tenant} {key : AccountKey} {sid : SessionId}

/-- Issuing a session inserts its row. -/
theorem run_insertSession_row {state : AccountState} {replaced : Option SessionId}
    {authentication : SessionAuthentication} {instant : ℤ} {kind : CredentialKind}
    {issued : IssuedSession}
    (h : (insertSession env state replaced authentication instant kind).run w = .ok (issued, w')) :
    issued.state = state ∧ ∃ columns facts lifetime,
      authentication.columns instant kind = .ok columns ∧
      encodedFacts env columns.origin = .ok facts ∧
      SessionLifetime.new instant env.sessionPolicy = some lifetime ∧
      w'.state.sessions.find? issued.view.id =
        some (issuedRow env state columns facts lifetime instant kind issued.secret issued.view.id) := by
  simp only [insertSession, Tx.run_bind, Tx.run_ofExcept, run_randomSecret, Tx.run_demand,
    run_newV4, Tx.run_pure, Tx.run_insertInto, Tables.sessions_put, advanceRevision_eq_some] at h
  obtain ⟨columns, _, ⟨hcolumns, rfl⟩, secret, _, ⟨-, rfl⟩, lifetime, _, ⟨hlifetime, rfl⟩, _, w₁, -,
    id, _, ⟨-, rfl⟩, facts, _, ⟨hfacts, rfl⟩, _, _, ⟨t, _, ht, ⟨-, rfl⟩, rfl⟩, rfl, rfl⟩ := h
  refine ⟨rfl, columns, facts, lifetime, hcolumns, hfacts, hlifetime, ?_⟩
  exact (Table.find?_insert ht _).trans (if_pos rfl)

/-- The lifetime of a row has the times of the row. -/
theorem SessionRow.lifetime_eq_some {row : SessionRow} {lifetime : SessionLifetime}
    (h : row.lifetime = some lifetime) :
    lifetime.issuedAt = row.issuedAt ∧ lifetime.idleExpiresAt = row.idleExpiresAt ∧
      lifetime.absoluteExpiresAt = row.absoluteExpiresAt := by
  simp only [SessionRow.lifetime, Option.bind_eq_bind, Option.bind_eq_some_iff] at h
  obtain ⟨policy, -, h⟩ := h
  obtain ⟨-, -, hissued, hidle, habsolute⟩ := SessionLifetime.restore_eq_some.mp h
  exact ⟨hissued, hidle, habsolute⟩

/-- A checked row stores a lifetime. -/
theorem SessionRow.Checked.lifetime_isSome {row : SessionRow} (h : row.Checked) :
    ∃ lifetime, row.lifetime = some lifetime := by
  have hpolicy : SessionPolicy.new row.idleTimeout row.absoluteTimeout =
      some ⟨row.idleTimeout, row.absoluteTimeout, h.idleTimeout_pos, h.idle_le⟩ := by
    rw [SessionPolicy.new, dif_pos ⟨h.idleTimeout_pos, h.idle_le⟩]
  refine ⟨⟨⟨row.idleTimeout, row.absoluteTimeout, h.idleTimeout_pos, h.idle_le⟩, row.issuedAt,
    row.idleExpiresAt, row.absoluteExpiresAt, h.issuedAt_pos, h.lifetime.1, h.lifetime.2,
    h.duration⟩, ?_⟩
  rw [SessionRow.lifetime, hpolicy]
  refine SessionLifetime.restore_eq_some.mpr ⟨?_, rfl, rfl, rfl, rfl⟩
  rw [h.duration]
  exact h.absolute_i64

/-- The origin of a row, if it has one, is backed by the tables for an account. -/
def SessionRow.Backed (env : Env) (db : Db) (key : AccountKey) : Option Origin → Prop
  | none => True
  | some o => ∃ identity provider, db.Backs key o identity provider ∧
      (FactSource.new env.parsers identity.provider identity.issuer).isSome = true

/-- Which origins are backed depends on identities and providers alone. -/
theorem SessionRow.backed_congr {db db' : Db} {o : Option Origin}
    (h : SessionRow.Backed env db key o)
    (hidentities : db'.externalIdentities = db.externalIdentities)
    (hproviders : db'.providers = db.providers) : SessionRow.Backed env db' key o := by
  cases o with
  | none => trivial
  | some o =>
    obtain ⟨identity, provider, hbacks, hsource⟩ := h
    have hbound := hbacks.bound
    have hconfigured := hbacks.configured
    rw [← hidentities] at hbound
    rw [← hproviders] at hconfigured
    exact ⟨identity, provider, ⟨hbound, hconfigured, hbacks.enabled, hbacks.epoch, hbacks.version,
      hbacks.principal⟩, hsource⟩

theorem run_checkedOrigin {found : Option Origin × Option FactSource}
    (h : (checkedOrigin env key sid).run w = .ok (found, w')) :
    w' = w ∧ ∃ row, w.state.sessions.find? sid = some row ∧ row.HasOrigin found.1 ∧
      SessionRow.Backed env w.state key found.1 := by
  simp only [checkedOrigin, Tx.run_bind] at h
  obtain ⟨o, w₁, horigin, h⟩ := h
  obtain ⟨rfl, row, hrow, hhas⟩ := run_origin horigin
  cases o with
  | none =>
    obtain ⟨rfl, rfl⟩ := Tx.run_pure.mp h
    exact ⟨rfl, row, hrow, hhas, trivial⟩
  | some o =>
    simp only [Tx.run_bind, Tx.run_pure, run_checkOrigin] at h
    obtain ⟨source, _, ⟨rfl, identity, provider, hbacks, hsource⟩, rfl, rfl⟩ := h
    exact ⟨rfl, row, hrow, hhas, identity, provider, hbacks, by simp [hsource]⟩

/-- What an admission established, at the reading after a world. -/
structure Admitted.Of (admitted : Admitted) (env : Env) (w : Tenant) (key : AccountKey)
    (sid : SessionId) : Prop where
  holds : w.state.Holds admitted.state
  account : admitted.state.key = key
  found : w.state.sessions.find? sid = some admitted.row
  current : admitted.row.Current key admitted.state
  origin : admitted.row.HasOrigin admitted.origin
  backed : SessionRow.Backed env w.state key admitted.origin
  lifetime : admitted.row.lifetime = some admitted.lifetime
  micros : admitted.micros = w.tick.clock
  micros_pos : 0 < admitted.micros
  valid : admitted.lifetime.validAt admitted.now = true

theorem run_admitSession {admitted : Admitted}
    (h : (admitSession env key sid).run w = .ok (admitted, w')) :
    w' = w.tick ∧ admitted.Of env w key sid := by
  simp only [admitSession, Tx.run_bind, Tx.run_find, Tx.run_demand, Tx.run_require,
    Tx.run_clockTimestamp, Tx.run_pure, Tables.sessions_get] at h
  obtain ⟨stored, w₁, hload, _, _, ⟨rfl, rfl⟩, row, _, ⟨hrow, rfl⟩, -, _, ⟨hcurrent, rfl⟩, found,
    w₂, horigin, lifetime, _, ⟨hlifetime, rfl⟩, micros, _, ⟨rfl, rfl⟩, -, _, ⟨hpos, rfl⟩, -, _,
    ⟨hvalid, rfl⟩, rfl, rfl⟩ := h
  obtain ⟨rfl, hkey, hholds⟩ := run_load hload
  obtain ⟨rfl, row', hrow', hhas, hbacked⟩ := run_checkedOrigin horigin
  obtain rfl : row = row' := Option.some_injective _ (hrow.symm.trans hrow')
  exact ⟨rfl, hholds, hkey, hrow, hcurrent, hhas, hbacked, hlifetime, rfl, hpos, hvalid⟩

/-- What loading a session established, at the reading after a world. -/
structure Loaded.Of (loaded : Loaded) (env : Env) (w : Tenant) (row : SessionRow) : Prop where
  holds : w.state.Holds loaded.state
  found : w.state.sessions.find? loaded.view.id = some row
  current : row.Current loaded.state.key loaded.state
  backed : ∃ o, row.HasOrigin o ∧ SessionRow.Backed env w.state loaded.state.key o
  lifetime : row.lifetime = some loaded.lifetime
  view : loaded.view = .new row.session loaded.lifetime row.credentialKind
  now : loaded.now = seconds w.tick.clock
  valid : loaded.lifetime.validAt loaded.now = true

theorem run_external {binding : PlatformBinding} {a : Unit}
    (h : (external binding).run w = .ok (a, w')) : w' = w := by
  unfold external at h
  split at h
  · exact (Tx.run_pure.mp h).2.symm
  · simp only [Tx.run_bind, Tx.run_find, Tx.run_demand, Tx.run_require] at h
    obtain ⟨_, _, ⟨-, rfl⟩, _, _, ⟨-, rfl⟩, _, _, ⟨-, rfl⟩, _, _, ⟨-, rfl⟩, -, rfl⟩ := h
    rfl

theorem run_recheckPlatform {stored : PlatformAuthentication} {checks : Option PlatformVerifier}
    {a : Unit} (h : (recheckPlatform env key stored checks).run w = .ok (a, w')) : w' = w := by
  simp only [recheckPlatform, Tx.run_bind, Tx.run_demand, Tx.run_require, Tx.run_world,
    Tx.run_ofExcept, Tx.run_pure] at h
  obtain ⟨_, _, ⟨-, rfl⟩, _, _, ⟨-, rfl⟩, -, _, ⟨-, rfl⟩, -, _, ⟨-, rfl⟩, _, _, hexternal, _, _,
    ⟨-, rfl⟩, -, rfl⟩ := h
  exact run_external hexternal

/-- The assurance of a session is that of its origin, where it has one. -/
theorem run_assuranceAndGroups {checks : Option PlatformVerifier} {admitted : Admitted}
    {found : Assurance × Groups}
    (h : (assuranceAndGroups env key checks admitted).run w = .ok (found, w')) : w' = w := by
  unfold assuranceAndGroups at h
  split at h
  · simp only [Tx.run_bind, Tx.run_ofExcept, Tx.run_pure] at h
    obtain ⟨_, _, ⟨-, rfl⟩, -, rfl⟩ := h
    rfl
  · simp only [Tx.run_bind, Tx.run_demand, Tx.run_pure] at h
    obtain ⟨_, _, ⟨-, rfl⟩, _, _, ⟨-, rfl⟩, -, rfl⟩ := h
    rfl
  · simp only [Tx.run_bind, Tx.run_demand, Tx.run_ofExcept, Tx.run_pure] at h
    obtain ⟨_, _, ⟨-, rfl⟩, _, _, hrecheck, _, _, ⟨-, rfl⟩, -, rfl⟩ := h
    exact run_recheckPlatform hrecheck
  · exact (Tx.run_throw.mp h).elim

/-- A session is loaded at one clock reading, and only if it is admitted there. -/
theorem run_byId {checks : Option PlatformVerifier} {loaded : Loaded}
    (h : (byId env key sid checks).run w = .ok (loaded, w')) :
    w' = w.tick ∧ loaded.view.id = sid ∧ loaded.state.key = key ∧ ∃ row, loaded.Of env w row := by
  simp only [byId, Tx.run_bind, Tx.run_ofExcept, Tx.run_require, Tx.run_pure] at h
  obtain ⟨admitted, w₁, hadmit, department, _, ⟨-, rfl⟩, found, w₂, hfound, -, _, ⟨-, rfl⟩, -, _,
    ⟨-, rfl⟩, rfl, rfl⟩ := h
  obtain ⟨rfl, ha⟩ := run_admitSession hadmit
  obtain rfl := run_assuranceAndGroups hfound
  have hsession : admitted.row.session = sid := Table.key_of_find? ha.found
  refine ⟨rfl, rfl, ha.account, admitted.row, ⟨ha.holds, ha.found, ?_, ⟨_, ha.origin, ?_⟩, ha.lifetime,
    ?_, ?_, ha.valid⟩⟩
  · rw [ha.account]
    exact ha.current
  · rw [ha.account]
    exact ha.backed
  · rw [hsession]
  · rw [← ha.micros]
    rfl

/-- A credential digest finds the live session that carries it. -/
theorem run_lookup {digest : Digest} {kind : CredentialKind} {checks : Option PlatformVerifier}
    {loaded : Loaded} (h : (lookup env digest kind checks).run w = .ok (loaded, w')) :
    w' = w.tick ∧ ∃ row, loaded.Of env w row ∧ row.tokenHash = digest ∧
      row.credentialKind = kind := by
  simp only [lookup, Tx.run_bind, Tx.run_select, Tx.run_demand, Tx.run_find, Tx.run_require,
    Tx.run_pure, Tables.sessions_get] at h
  obtain ⟨_, _, ⟨-, rfl⟩, located, _, ⟨-, rfl⟩, loaded, w₁, hbyId, _, _, ⟨rfl, rfl⟩, stored, _,
    ⟨hstored, rfl⟩, -, _, ⟨⟨hdigest, hkind⟩, rfl⟩, rfl, rfl⟩ := h
  obtain ⟨rfl, hid, -, row, hof⟩ := run_byId hbyId
  have hrow := hof.found
  rw [hid] at hrow
  obtain rfl : stored = row := Option.some_injective _ (hstored.symm.trans hrow)
  refine ⟨rfl, stored, hof, hdigest, ?_⟩
  rw [← hkind, hof.view]
  rfl

/-- Rechecking a proof loads its session again, live and still carrying the proof's digest. -/
theorem run_recheck {actor : AuthenticatedSession} {loaded : Loaded}
    (h : (recheck env actor).run w = .ok (loaded, w')) :
    w' = w.tick ∧ loaded.state.key = actor.key ∧ loaded.view.id = actor.view.id ∧
      ∃ row, loaded.Of env w row ∧ row.tokenHash = actor.digest ∧
        row.credentialKind = actor.view.credentialKind := by
  simp only [recheck, Tx.run_bind, Tx.run_require, Tx.run_pure] at h
  obtain ⟨-, _, ⟨-, rfl⟩, loaded, w₁, hlookup, -, _, ⟨⟨hkey, hid⟩, rfl⟩, rfl, rfl⟩ := h
  obtain ⟨rfl, row, hof, hdigest, hkind⟩ := run_lookup hlookup
  exact ⟨rfl, hkey, hid, row, hof, hdigest, hkind⟩

/-- Rechecking a proof loads the session it names, of its principal, under the digest it presents. -/
theorem run_recheck_byId {actor : AuthenticatedSession} {loaded : Loaded}
    (h : (recheck env actor).run w = .ok (loaded, w')) :
    (byId env actor.key actor.view.id actor.checks).run w = .ok (loaded, w') ∧
      ∃ row, w.state.sessions.find? actor.view.id = some row ∧ row.principal = actor.key ∧
        row.tokenHash = actor.digest := by
  simp only [recheck, lookup, Tx.run_bind, Tx.run_require, Tx.run_select, Tx.run_demand, Tx.run_find,
    Tx.run_pure, Tables.sessions_get] at h
  obtain ⟨-, _, ⟨-, rfl⟩, loaded', _, ⟨rows, _, ⟨hrows, rfl⟩, located, _, ⟨hhead, rfl⟩, loaded'', w₁,
    hbyId, _, _, ⟨rfl, rfl⟩, stored, _, ⟨hstored, rfl⟩, -, _, ⟨⟨hdigest, -⟩, rfl⟩, rfl, rfl⟩, -, _,
    ⟨⟨hkey, hid⟩, rfl⟩, rfl, rfl⟩ := h
  obtain ⟨rfl, hview, hprincipal, -⟩ := run_byId hbyId
  have hsession : located.session = actor.view.id := hview.symm.trans hid
  have hactor : located.principal = actor.key := hprincipal.symm.trans hkey
  have hmem := Table.mem_filter.mp (hrows ▸ List.mem_of_head? hhead)
  have hfound : w.state.sessions.find? located.session = some located :=
    Table.find?_eq_some.mpr ⟨hmem.1, rfl⟩
  rw [hsession] at hfound
  rw [hsession, hactor] at hbyId
  exact ⟨hbyId, located, hfound, hactor, of_decide_eq_true hmem.2⟩

end IdentityAuthority
