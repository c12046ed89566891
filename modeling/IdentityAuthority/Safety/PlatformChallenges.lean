import IdentityAuthority.Safety.Continuity

/-!
# Platform challenges

A challenge is recorded once, under an identifier of its own, and stays as it was recorded until it
is removed. What a device proves is compared with the record again in the transaction that settles
the login, which removes the challenge. An account that has the recorded epochs then has had them
ever since.
-/

namespace IdentityAuthority

open Relational Transition

variable {env : Env} {areas : List Area} {start w w' : Tenant}

section Begin

/-- An account is active at the epochs that a challenge records. -/
def PlatformChallengeRow.AccountCurrent (row : PlatformChallengeRow) (db : Db) : Prop :=
  db.accounts.find? row.binding.account = some ⟨row.binding.account, true, row.authEpoch⟩ ∧
    db.memberships.find? row.binding.account =
      some ⟨row.binding.account, true, row.membershipEpoch⟩

/-- The upstream identity that a challenge names, if any, is linked to its account, and its
provider is enabled at the version and the epoch named. -/
def PlatformChallengeRow.IdentityCurrent (row : PlatformChallengeRow) (db : Db) : Prop :=
  ∀ named ∈ row.binding.externalIdentity, ∃ identity provider,
    db.externalIdentities.find? named.identity = some identity ∧
      identity.principal = row.binding.account ∧ identity.provider = named.provider ∧
      db.providers.find? named.provider = some provider ∧ provider.enabled = true ∧
      provider.configVersion = named.configVersion ∧
      provider.revocationEpoch = named.revocationEpoch

theorem PlatformChallengeRow.AccountCurrent.of_holds {row : PlatformChallengeRow} {db : Db}
    {state : AccountState} (hholds : db.Holds state) (hkey : state.key = row.binding.account)
    (hactive : state.active = true) (hepoch : state.epoch = row.authEpoch)
    (hmembership : state.membershipEpoch = row.membershipEpoch) : row.AccountCurrent db := by
  simp only [AccountState.active, Bool.and_eq_true] at hactive
  have haccount := hholds.account
  have hmember := hholds.membership
  rw [hkey, hactive.1, hepoch] at haccount
  rw [hkey, hactive.2, hmembership] at hmember
  exact ⟨haccount, hmember⟩

/-- What a challenge records of the call that began it. -/
structure PlatformChallengeRow.BegunAs (env : Env) (row : PlatformChallengeRow) (binding : Uuid)
    (purpose : PlatformPurpose) (browser : String) (challenge : PlatformChallenge)
    (w w' : Tenant) : Prop where
  stored : w'.state.platformChallenges.find? row.challenge = some row
  id : challenge.id = row.challenge
  nonce : row.nonceHash = env.sha256.secret challenge.nonce
  browser : row.browserHash = env.sha256.text browser
  payload : challenge.payload = ⟨purpose, row.binding, row.audience, challenge.nonce, row.createdAt,
    row.expiresAt⟩
  served : row.purpose = purpose
  bindingId : row.binding.bindingId = binding
  audience : ∃ verifier ∈ env.platform, ∃ w₁ : Tenant, verifier.audience w₁ = row.audience
  target : ∃ w₁ : Tenant, enterpriseTarget (env.enterprise w₁) purpose
    (.federation .configuration) = .ok row.target
  account : row.AccountCurrent w'.state
  createdAt : row.createdAt ≤ seconds w'.clock
  drawn : ∃ i, row.challenge = freshUuid env i ∧ DrawnIn w w' i
  others : ∀ other ∈ w'.state.platformChallenges,
    other = row ∨ other ∈ w.state.platformChallenges

theorem run_removeExpiredChallenges {instant : ℤ} {u : Unit}
    (h : (removeExpiredChallenges instant).run w = .ok (u, w')) :
    ∃ p, w' = { w with state := { w.state with
      platformChallenges := w.state.platformChallenges.deleteWhere p } } := by
  simp only [removeExpiredChallenges, Tx.run_bind, Tx.run_select, Tx.run_deleteFrom, Tx.run_pure,
    Tables.platformChallenges_put, Tables.platformChallenges_get, Option.some.injEq] at h
  obtain ⟨_, _, ⟨-, rfl⟩, n, _, ⟨db, rfl, -, rfl⟩, -, rfl⟩ := h
  exact ⟨_, rfl⟩

/-- A login that begins records its challenge, for an account that is active. -/
theorem run_beginPlatformLogin {binding : Uuid} {purpose : PlatformPurpose} {browser : String}
    {challenge : PlatformChallenge}
    (h : (beginPlatformLogin env binding purpose browser).run w = .ok (challenge, w')) :
    ∃ row : PlatformChallengeRow, row.BegunAs env binding purpose browser challenge w w' := by
  simp only [beginPlatformLogin, Tx.run_bind, Tx.run_require, Tx.run_demand, Tx.run_world,
    Tx.run_ofExcept, run_now, Tx.run_select, run_newV4, run_randomSecret, Tx.run_insertInto,
    Tx.run_pure, Tables.platformChallenges_put, Tables.platformChallenges_get, and_assoc,
    exists_and_left, exists_eq_left', exists_eq_left, exists_const, Option.some.injEq] at h
  obtain ⟨-, verifier, hverifier, -, -, -, -, target, htarget, resolved, -, -, -, hbinding, stored, w₁,
    hload, hactive, u, w₂, hexternal, -, _, w₃, hremove, -, sequence, w₄, hsequence, _, ⟨t, ht, rfl⟩,
    rfl, rfl⟩ := h
  obtain ⟨rfl, hkey, hholds⟩ := run_load hload
  obtain rfl := run_external hexternal
  obtain ⟨p, rfl⟩ := run_removeExpiredChallenges hremove
  obtain ⟨g, rfl⟩ := run_profileSequence hsequence
  refine ⟨_, (Table.find?_insert ht _).trans (if_pos rfl), rfl, rfl, rfl, rfl, rfl, hbinding,
    ⟨verifier, hverifier, _, rfl⟩, ⟨_, htarget⟩, ?_, le_rfl,
    ⟨w₂.tick.drawn, rfl, (World.Advances.tick w₂).drawn, ?_⟩, ?_⟩
  · exact @PlatformChallengeRow.AccountCurrent.of_holds _ w₂.state _ hholds hkey hactive rfl rfl
  · simp only
    omega
  · intro other hother
    rcases (Table.mem_insert ht).mp hother with rfl | hold
    · exact .inl rfl
    · exact .inr (Table.mem_deleteWhere.mp hold).1

end Begin

section Settle

variable {id : Uuid} {nonce : Secret} {browser : String} {context : PlatformChallengeContext}
  {evidence : PlatformEvidence} {login : PlatformLogin} {row : PlatformChallengeRow}

/-- What the host is shown of a challenge. -/
def PlatformChallengeRow.shown (row : PlatformChallengeRow) (nonce : Secret) :
    PlatformChallengeContext where
  purpose := row.purpose
  binding := row.binding
  audience := row.audience
  nonce
  createdAt := row.createdAt
  expiresAt := row.expiresAt

theorem run_showChallenge (h : (showChallenge env id nonce browser).run w = .ok (context, w')) :
    w'.state = w.state ∧ ∃ row, w.state.platformChallenges.find? id = some row ∧
      context = row.shown nonce := by
  simp only [showChallenge, readChallenge, Tx.run_bind, Tx.run_require, Tx.run_demand, Tx.run_find,
    run_now, Tx.run_pure, Tables.platformChallenges_get, and_assoc, exists_and_left,
    exists_eq_left', exists_eq_left, exists_const] at h
  obtain ⟨-, verifier, -, row, _, ⟨_, hfound, -, -, -, -, rfl, rfl⟩, rfl, rfl⟩ := h
  exact ⟨rfl, row, hfound, rfl⟩

/-- A login was settled against a challenge: what was recorded was compared again, and holds. -/
structure PlatformSettled (env : Env) (id : Uuid) (nonce : Secret) (browser : String)
    (context : PlatformChallengeContext) (evidence : PlatformEvidence) (login : PlatformLogin)
    (row : PlatformChallengeRow) (w w' : Tenant) : Prop where
  found : w.state.platformChallenges.find? id = some row
  consumed : w'.state.platformChallenges =
    w.state.platformChallenges.deleteWhere fun row => decide (row.challenge = id)
  nonce : row.nonceHash = env.sha256.secret nonce
  browser : row.browserHash = env.sha256.text browser
  binding : row.binding = context.binding
  recorded : row.audience = context.audience
  served : row.purpose = context.purpose
  audience : ∃ verifier ∈ env.platform, ∃ w₁ : Tenant, w₁.state = w.state ∧
    verifier.audience w₁ = row.audience ∧
    verifier.authorizePurpose row.binding row.purpose w₁ = true
  target : ∃ w₁ : Tenant, w₁.state = w.state ∧
    enterpriseTarget (env.enterprise w₁) row.purpose .rejected = .ok row.target
  account : row.AccountCurrent w.state
  identity : row.IdentityCurrent w.state
  unexpired : seconds w'.clock < row.expiresAt
  accepted : evidence.accepted = true
  authenticated : ∀ t ∈ evidence.authenticatedAt,
    saturatingSub context.createdAt 30 ≤ t ∧ t ≤ login.session.now
  issuedAt : seconds w.clock ≤ login.session.now ∧ login.session.now ≤ seconds w'.clock
  session : ∃ session, w'.state.sessions.find? login.session.view.id = some session ∧
    session.principal = row.binding.account ∧
    session.platformAuthentication = some (context.authentication evidence)
  asserted : login.assertion.map EnterpriseAssertion.target = row.target
  assertion : ∀ assertion ∈ login.assertion, assertion.expiresAt ≤ login.session.now + 30 ∧
    assertion.expiresAt ≤ login.session.view.absoluteExpiresAt ∧
    assertion.expiresAt ≤ login.session.view.idleExpiresAt

theorem run_external_linked {binding : PlatformBinding} {u : Unit}
    (h : (external binding).run w = .ok (u, w')) (hbinding : row.binding = binding) :
    row.IdentityCurrent w.state := by
  intro named hnamed
  rw [hbinding, Option.mem_def] at hnamed
  simp only [external, hnamed, Tx.run_bind, Tx.run_find, Tx.run_demand, Tx.run_require,
    Tables.externalIdentities_get, Tables.providers_get] at h
  obtain ⟨_, _, ⟨rfl, rfl⟩, identity, _, ⟨hidentity, rfl⟩, _, _, ⟨rfl, rfl⟩, provider, _,
    ⟨hprovider, rfl⟩, ⟨hprincipal, hlinked, henabled, hversion, hepoch⟩, rfl⟩ := h
  rw [← hbinding] at hprincipal
  exact ⟨identity, provider, hidentity, hprincipal, hlinked, hprovider, henabled, hversion, hepoch⟩

/-- A recheck of a platform authentication, in detail. -/
theorem run_recheckPlatform_linked {key : AccountKey} {stored : PlatformAuthentication} {u : Unit}
    (h : (recheckPlatform env key stored env.platform).run w = .ok (u, w'))
    (hbinding : row.binding = stored.binding) :
    (∃ verifier ∈ env.platform, verifier.audience w = stored.audience) ∧
      row.IdentityCurrent w.state := by
  simp only [recheckPlatform, Tx.run_bind, Tx.run_demand, Tx.run_require, Tx.run_world] at h
  obtain ⟨verifier, _, ⟨hverifier, rfl⟩, _, _, ⟨rfl, rfl⟩, -, _, ⟨⟨-, -, -, haudience⟩, rfl⟩, -, _,
    ⟨-, rfl⟩, _, _, hexternal, -⟩ := h
  exact ⟨⟨verifier, hverifier, haudience⟩, run_external_linked hexternal hbinding⟩

/-- An assertion is for the target, and ends in half a minute or with the session. -/
theorem run_issueFor {config : Option EnterpriseConfig} {target : Option EnterpriseTarget}
    {stored : PlatformAuthentication} {instant expiry : ℤ} {assertion : Option EnterpriseAssertion}
    (h : (issueFor env config target stored instant expiry).run w = .ok (assertion, w')) :
    assertion.map EnterpriseAssertion.target = target ∧
      ∀ a ∈ assertion, a.expiresAt ≤ instant + 30 ∧ a.expiresAt ≤ expiry := by
  cases target with
  | none =>
    obtain ⟨rfl, -⟩ := Tx.run_pure.mp h
    exact ⟨rfl, by simp⟩
  | some target =>
    simp only [issueFor, issueAssertion, Tx.run_bind, Tx.run_demand, run_newV4, Tx.run_require,
      Tx.run_pure] at h
    obtain ⟨_, _, -, issued, _, ⟨_, _, -, _, _, -, -, _, -, rfl, -⟩, rfl, -⟩ := h
    refine ⟨rfl, ?_⟩
    rintro a ⟨rfl⟩
    exact ⟨min_le_left _ _, min_le_right _ _⟩

theorem acceptObservation_effects (hb : .bindings ∈ areas) (hp : .profiles ∈ areas)
    (hsince : start.Advances w) {key : AccountKey} {issued : IssuedSession}
    {observation : Option Observation} {u : Unit}
    (h : (acceptObservation env key issued observation).run w = .ok (u, w')) :
    Effects env areas start w w' := by
  cases observation with
  | none => exact WritesOnly.pure _ _ _ (.refl _) h
  | some observation => exact accept_writes hp hb hsince _ _ _ (.refl _) h

/-- A platform session is stored with what its evidence established. -/
theorem insertSession_platform {state : AccountState} {stored : PlatformAuthentication}
    {instant : ℤ} {kind : CredentialKind} {issued : IssuedSession}
    (h : (insertSession env state none (.platform stored) instant kind).run w = .ok (issued, w')) :
    issued.now = instant ∧ w'.state.platformChallenges = w.state.platformChallenges ∧
      ∃ session, w'.state.sessions.find? issued.view.id = some session ∧
        session.principal = state.key ∧ session.platformAuthentication = some stored := by
  obtain ⟨-, columns, facts, lifetime, hcolumns, -, -, hrow⟩ := run_insertSession_row h
  simp only [insertSession, closeReplaced, Tx.run_bind, Tx.run_ofExcept, run_randomSecret,
    Tx.run_demand, run_newV4, Tx.run_pure, Tx.run_insertInto, Tables.sessions_put,
    advanceRevision_eq_some] at h
  obtain ⟨_, _, ⟨-, rfl⟩, secret, _, ⟨-, rfl⟩, _, _, ⟨-, rfl⟩, _, _, ⟨-, rfl⟩, id, _, ⟨-, rfl⟩, _, _,
    ⟨-, rfl⟩, _, _, ⟨t, _, ht, ⟨-, rfl⟩, rfl⟩, rfl, rfl⟩ := h
  refine ⟨rfl, rfl, _, hrow, rfl, ?_⟩
  simp only [SessionAuthentication.columns] at hcolumns
  split at hcolumns
  · cases hassurance : stored.assurance with
    | error e => simp [hassurance, bind, Except.bind] at hcolumns
    | ok assurance =>
      simp only [hassurance, bind, Except.bind, Except.ok.injEq] at hcolumns
      rw [← hcolumns]
      rfl
  · cases hcolumns

/-- A login that commits was settled against the challenge it names. -/
theorem run_completePlatformLogin
    (h : (completePlatformLogin env id nonce browser context evidence).run w = .ok (login, w')) :
    ∃ row, PlatformSettled env id nonce browser context evidence login row w w' := by
  simp only [completePlatformLogin, readChallenge, Tx.run_bind, Tx.run_require, Tx.run_demand,
    Tx.run_find, Tx.run_world, Tx.run_ofExcept, run_now, Tx.run_deleteFrom, Tx.run_pure,
    Tables.platformChallenges_get, Tables.platformChallenges_put, Option.some.injEq, and_assoc,
    exists_and_left, exists_eq_left', exists_eq_left, exists_const] at h
  obtain ⟨-, verifier, hverifier, haccepted, row, _, ⟨_, hfound, hnonce, hbrowser, hcreated, -, rfl,
    rfl⟩, hbinding, haudience, stored, _, hload, hactive, hepoch, hmembership, _, _, hrecheck, hserved,
    hpurpose, target, htarget, hsame, hauthenticated, observation, w₁, hobserve, issued, w₂, hinsert,
    assertion, w₃, hissue, _, w₄, haccept, hunexpired, hrest⟩ := h
  obtain ⟨rfl, rfl⟩ := hrest
  obtain ⟨rfl, hkey, hholds⟩ := run_load hload
  have hworld := run_recheckPlatform hrecheck
  subst hworld
  obtain ⟨⟨verifier', hverifier', haudience'⟩, hidentity⟩ :=
    run_recheckPlatform_linked hrecheck hbinding
  obtain rfl := Option.some_injective _ (hverifier.symm.trans hverifier')
  subst hsame
  obtain ⟨htargeted, hassertion⟩ := run_issueFor hissue
  have hobserved : Effects env [.sequence] w _ w₁ :=
    platformObservation_writes (by decide) _ _ _ (.refl _) hobserve
  have hinserted : w₁.Advances w₂ := (insertSession _ _ _ _ _ _).advances _ _ _ hinsert
  obtain ⟨hnow, hsame, session, hsession, hprincipal, hauthentication⟩ := insertSession_platform hinsert
  have hissued : Effects env [] w w₂ w₃ := issueFor_writes _ _ _ (.refl _) hissue
  have haccept' : Effects env [.bindings, .profiles] w₃ w₃ w₄ :=
    acceptObservation_effects (by decide) (by decide) (.refl _) haccept
  have hframe : ∀ {areas : List Area} {start w₁ w₂ : Tenant}, .challenges ∉ areas →
      Effects env areas start w₁ w₂ → w₂.state.platformChallenges = w₁.state.platformChallenges :=
    fun hno heffects => heffects.frame Db.platformChallenges fun _ _ _ ha heffect =>
      heffect.platformChallenges_eq fun heq => hno (heq ▸ ha)
  have hchallenges : w₄.state.platformChallenges = w.state.platformChallenges := by
    rw [hframe (by decide) haccept', hframe (by decide) hissued, hsame, hframe (by decide) hobserved]
    rfl
  have hclock : (w.tick).tick.clock ≤ w₄.tick.clock :=
    (((hobserved.advances.trans hinserted).trans hissued.advances).trans
      (haccept'.advances.trans (.tick w₄))).clock
  refine ⟨row, hfound, ?_, hnonce, hbrowser, hbinding, haudience, hserved,
    ⟨verifier, hverifier, w.tick, rfl, haudience'.trans haudience.symm, hpurpose⟩,
    ⟨w.tick, rfl, htarget⟩,
    .of_holds hholds hkey hactive hepoch hmembership, hidentity, hunexpired, haccepted, ?_, ?_, ?_,
    htargeted, ?_⟩
  · simp only [World.tick_state, hchallenges]
  · intro t ht
    rw [hnow]
    exact hauthenticated t ht
  · rw [hnow]
    exact ⟨seconds_mono ((World.Advances.tick w).trans (.tick _)).clock, seconds_mono hclock⟩
  · obtain ⟨shown, hshown, hcontinues⟩ := hissued.follows.sessions _ _ hsession
    obtain ⟨kept, hkept, hcontinues'⟩ := haccept'.follows.sessions _ _ hshown
    refine ⟨kept, hkept, ?_, ?_⟩
    · rw [hcontinues'.fixed, hcontinues.fixed]
      exact hprincipal.trans hkey
    · rw [hcontinues'.fixed, hcontinues.fixed]
      exact hauthentication
  · intro assertion hissued
    obtain ⟨hlate, hexpiry⟩ := hassertion assertion hissued
    rw [hnow]
    exact ⟨hlate, hexpiry.trans (min_le_left _ _), hexpiry.trans (min_le_right _ _)⟩

end Settle

section Histories

variable {s₀ s s' : System env} {label : Label env}
  {trace : List (Event (System env) (Label env))} {e : Event (System env) (Label env)}
  {row row' : PlatformChallengeRow}

/-- An event begins a login, and records its challenge. -/
def Begins (e : Event (System env) (Label env)) (row : PlatformChallengeRow) : Prop :=
  ∃ binding purpose browser challenge,
    e.label = .commit (.beginPlatformLogin binding purpose browser challenge) ∧
      row.BegunAs env binding purpose browser challenge e.before.world e.after.world

/-- An event commits a login for a challenge. -/
def SettlesChallenge (e : Event (System env) (Label env)) (id : Uuid) : Prop :=
  ∃ nonce browser context evidence login,
    e.label = .commit (.completePlatformLogin id nonce browser context evidence login)

/-- A challenge was drawn before a certain draw. -/
def ChallengeDrawn (env : Env) (id : Uuid) (n : ℕ) : Prop := ∃ i < n, id = freshUuid env i

theorem ChallengeDrawn.mono {id : Uuid} {m n : ℕ} (h : ChallengeDrawn env id m) (hmn : m ≤ n) :
    ChallengeDrawn env id n := by
  obtain ⟨i, hi, hid⟩ := h
  exact ⟨i, by omega, hid⟩

theorem Begins.drawn (h : Begins e row) : ChallengeDrawn env row.challenge e.after.world.drawn := by
  obtain ⟨_, _, _, _, -, hbegun⟩ := h
  obtain ⟨i, hid, -, hi⟩ := hbegun.drawn
  exact ⟨i, hi, hid⟩

/-- A challenge that was drawn before is not the one that an event begins. -/
theorem Begins.ne {id : Uuid} (h : Begins e row) (hdrawn : ChallengeDrawn env id e.before.world.drawn) :
    row.challenge ≠ id := by
  obtain ⟨_, _, _, _, -, hbegun⟩ := h
  obtain ⟨i, hid, hlo, -⟩ := hbegun.drawn
  obtain ⟨j, hj, hid'⟩ := hdrawn
  intro heq
  have hsame := freshUuid_injective env (hid.symm.trans (heq.trans hid'))
  omega

/-- An event begins one challenge. -/
theorem Begins.unique (h : Begins e row) (h' : Begins e row') : row = row' := by
  obtain ⟨_, _, _, challenge, hlabel, hbegun⟩ := h
  obtain ⟨_, _, _, challenge', hlabel', hbegun'⟩ := h'
  rw [hlabel, Label.commit.injEq, Commit.beginPlatformLogin.injEq] at hlabel'
  obtain ⟨-, -, -, rfl⟩ := hlabel'
  have hid : row.challenge = row'.challenge := hbegun.id.symm.trans hbegun'.id
  have hstored := hbegun.stored
  rw [hid, hbegun'.stored, Option.some.injEq] at hstored
  exact hstored.symm

/-- A login that commits was shown its challenge, and was settled against it. -/
theorem Step.completes {id : Uuid} {nonce : Secret} {browser : String}
    {context : PlatformChallengeContext} {evidence : PlatformEvidence} {login : PlatformLogin}
    (h : Step env s label s')
    (hlabel : label = .commit (.completePlatformLogin id nonce browser context evidence login)) :
    .challenge id nonce browser context ∈ s.held ∧
      ∃ row, PlatformSettled env id nonce browser context evidence login row s.world s'.world := by
  subst hlabel
  cases h with
  | commit hadmissible hruns => exact ⟨hadmissible, run_completePlatformLogin hruns⟩

/-- A step begins a challenge, settles one, or leaves all challenges as they are. -/
theorem Step.challenges (h : Step env s label s') :
    (∃ row, Begins ⟨s, label, s'⟩ row) ∨
      (∃ id nonce browser context evidence login row,
        PlatformSettled env id nonce browser context evidence login row s.world s'.world) ∨
      s'.world.state.platformChallenges = s.world.state.platformChallenges := by
  cases h with
  | elapse hstate _ => exact .inr (.inr (by rw [hstate]))
  | @commit commit w' hadmissible hruns =>
    have hframe : .challenges ∉ commit.areas →
        w'.state.platformChallenges = s.world.state.platformChallenges := fun hno =>
      (Commit.effects hruns).frame Db.platformChallenges fun _ _ _ ha heffect =>
        heffect.platformChallenges_eq fun heq => hno (heq ▸ ha)
    cases commit with
    | beginPlatformLogin binding purpose browser challenge =>
      obtain ⟨row, hbegun⟩ := run_beginPlatformLogin hruns
      exact .inl ⟨row, binding, purpose, browser, challenge, rfl, hbegun⟩
    | completePlatformLogin id nonce browser context evidence login =>
      obtain ⟨row, hsettled⟩ := run_completePlatformLogin hruns
      exact .inr (.inl ⟨id, nonce, browser, context, evidence, login, row, hsettled⟩)
    | _ => exact .inr (.inr (hframe (by simp [Commit.areas, commitAreas])))

/-- What calls in flight hold on to of challenges comes from a step that showed one. -/
theorem Step.challenge_held {id : Uuid} {nonce : Secret} {browser : String}
    {context : PlatformChallengeContext} (h : Step env s label s')
    (hheld : .challenge id nonce browser context ∈ s'.held) :
    .challenge id nonce browser context ∈ s.held ∨ ∃ row,
      s.world.state.platformChallenges.find? id = some row ∧ context = row.shown nonce := by
  cases h with
  | elapse hstate _ => exact .inl hheld
  | @commit commit w' hadmissible hruns =>
    rcases List.mem_append.mp hheld with hgiven | hold
    · cases commit with
      | showChallenge id' nonce' browser' context' =>
        simp only [Commit.gives, List.mem_singleton, Held.challenge.injEq] at hgiven
        obtain ⟨rfl, rfl, rfl, rfl⟩ := hgiven
        exact .inr (run_showChallenge hruns).2
      | claimPassword login source lease result => cases result <;> simp [Commit.gives] at hgiven
      | readPassword login result => cases result <;> simp [Commit.gives] at hgiven
      | settlePassword login claim outcome result => cases result <;> simp [Commit.gives] at hgiven
      | _ => simp [Commit.gives] at hgiven
    · exact .inl hold

/-- What a run knows of challenges: the stored ones and those that calls hold on to are as they
were recorded, and a settled one is gone for good. -/
structure ChallengeHistory (trace : List (Event (System env) (Label env))) (s : System env) :
    Prop where
  begun : ∀ e ∈ trace, ∀ row, Begins e row → ChallengeDrawn env row.challenge s.world.drawn
  single : ∀ e ∈ trace, ∀ f ∈ trace, ∀ row row', Begins e row → Begins f row' →
    row.challenge = row'.challenge → row = row'
  stored : ∀ row ∈ s.world.state.platformChallenges, ∃ e ∈ trace, Begins e row
  held : ∀ id nonce browser context, .challenge id nonce browser context ∈ s.held →
    ∃ e ∈ trace, ∃ row, Begins e row ∧ row.challenge = id ∧ context = row.shown nonce
  settled : ∀ e ∈ trace, ∀ id, SettlesChallenge e id → ChallengeDrawn env id s.world.drawn ∧
    s.world.state.platformChallenges.find? id = none
  once : trace.Pairwise fun e f => ∀ id, SettlesChallenge e id → ¬ SettlesChallenge f id

/-- A stored challenge was stored before the step, or is the one that it began. -/
theorem Step.mem_challenges (h : Step env s label s')
    (hrow : row ∈ s'.world.state.platformChallenges) :
    Begins ⟨s, label, s'⟩ row ∨ row ∈ s.world.state.platformChallenges := by
  rcases h.challenges with ⟨begun, hbegins⟩ | ⟨_, _, _, _, _, _, _, hsettled⟩ | hsame
  · have hbegins' := hbegins
    obtain ⟨_, _, _, _, -, hbegun⟩ := hbegins
    rcases hbegun.others row hrow with rfl | hold
    · exact .inl hbegins'
    · exact .inr hold
  · rw [hsettled.consumed] at hrow
    exact .inr (Table.mem_deleteWhere.mp hrow).1
  · rw [hsame] at hrow
    exact .inr hrow

/-- A settled challenge was stored, was shown to the call, and is gone. -/
theorem Step.settles {id : Uuid} (h : Step env s label s')
    (hsettles : SettlesChallenge ⟨s, label, s'⟩ id) :
    (∃ row, s.world.state.platformChallenges.find? id = some row) ∧
      s'.world.state.platformChallenges.find? id = none := by
  obtain ⟨nonce, browser, context, evidence, login, hlabel⟩ := hsettles
  obtain ⟨-, row, hsettled⟩ := h.completes hlabel
  refine ⟨⟨row, hsettled.found⟩, ?_⟩
  rw [hsettled.consumed, Table.find?_eq_none]
  intro other hother hkey
  have hkept := (Table.mem_deleteWhere.mp hother).2
  simp only [decide_eq_false_iff_not] at hkept
  exact hkept hkey

theorem ChallengeHistory.step (h : ChallengeHistory trace s) (hstep : Step env s label s') :
    ChallengeHistory (trace ++ [⟨s, label, s'⟩]) s' := by
  have hlater := hstep.advances.drawn
  refine ⟨?_, ?_, ?_, ?_, ?_, ?_⟩
  · intro e he row hbegins
    rcases List.mem_append.mp he with he | he
    · exact (h.begun e he row hbegins).mono hlater
    · obtain rfl := List.mem_singleton.mp he
      exact hbegins.drawn
  · intro e he f hf row row' hrow hrow' hid
    rcases List.mem_append.mp he with he | he <;> rcases List.mem_append.mp hf with hf | hf
    · exact h.single e he f hf row row' hrow hrow' hid
    · obtain rfl := List.mem_singleton.mp hf
      exact absurd hid.symm (hrow'.ne (h.begun e he row hrow))
    · obtain rfl := List.mem_singleton.mp he
      exact absurd hid (hrow.ne (h.begun f hf row' hrow'))
    · obtain rfl := List.mem_singleton.mp he
      obtain rfl := List.mem_singleton.mp hf
      exact hrow.unique hrow'
  · intro row hrow
    rcases hstep.mem_challenges hrow with hbegins | hold
    · exact ⟨_, by simp, hbegins⟩
    · obtain ⟨e, he, hbegins⟩ := h.stored row hold
      exact ⟨e, List.mem_append_left _ he, hbegins⟩
  · intro id nonce browser context hheld
    rcases hstep.challenge_held hheld with hold | ⟨row, hrow, hshown⟩
    · obtain ⟨e, he, row, hbegins, hid, hshown⟩ := h.held id nonce browser context hold
      exact ⟨e, List.mem_append_left _ he, row, hbegins, hid, hshown⟩
    · obtain ⟨e, he, hbegins⟩ := h.stored row (Table.mem_of_find? hrow)
      exact ⟨e, List.mem_append_left _ he, row, hbegins, Table.key_of_find? hrow, hshown⟩
  · intro e he id hsettles
    rcases List.mem_append.mp he with he | he
    · obtain ⟨hdrawn, hgone⟩ := h.settled e he id hsettles
      refine ⟨hdrawn.mono hlater, Table.find?_eq_none.mpr fun row hrow hid => ?_⟩
      rcases hstep.mem_challenges hrow with hbegins | hold
      · exact hbegins.ne hdrawn hid
      · exact Table.find?_eq_none.mp hgone row hold hid
    · obtain rfl := List.mem_singleton.mp he
      obtain ⟨⟨row, hrow⟩, hgone⟩ := hstep.settles hsettles
      obtain ⟨e, he, hbegins⟩ := h.stored row (Table.mem_of_find? hrow)
      have hdrawn := (h.begun e he row hbegins).mono hlater
      have hid : row.challenge = id := Table.key_of_find? hrow
      rw [hid] at hdrawn
      exact ⟨hdrawn, hgone⟩
  · refine List.pairwise_append.mpr ⟨h.once, List.pairwise_singleton _ _, ?_⟩
    intro e he f hf id hsettles hsettles'
    obtain rfl := List.mem_singleton.mp hf
    obtain ⟨⟨row, hrow⟩, -⟩ := hstep.settles hsettles'
    rw [(h.settled e he id hsettles).2] at hrow
    cases hrow

theorem challengeHistory_of_run (hstart : s₀.Provisioned) (hrun : Run (Step env) s₀ trace s) :
    ChallengeHistory trace s := by
  refine hrun.history (H := ChallengeHistory) ?_ fun _ _ _ _ _ h hstep => h.step hstep
  refine ⟨by simp, by simp, ?_, ?_, by simp, .nil⟩
  · intro row hrow
    rw [hstart.1] at hrow
    exact absurd hrow Table.not_mem_empty
  · intro id nonce browser context hheld
    rw [hstart.2] at hheld
    cases hheld

/-- Between two states in which an account has the epochs of a challenge, it has had them. -/
theorem PlatformChallengeRow.AccountCurrent.between {w₁ w₂ w₃ : Tenant}
    (h₁ : row.AccountCurrent w₁.state) (h₃ : row.AccountCurrent w₃.state) (h : Follows w₁ w₂)
    (h' : Follows w₂ w₃) : row.AccountCurrent w₂.state := by
  obtain ⟨account, haccount, hlater⟩ := h.accounts _ _ h₁.1
  obtain ⟨account', haccount', hlater'⟩ := h'.accounts _ _ haccount
  obtain rfl := Option.some_injective _ (haccount'.symm.trans h₃.1)
  obtain rfl := hlater.between hlater' rfl
  obtain ⟨member, hmember, hmoved⟩ := h.memberships _ _ h₁.2
  obtain ⟨member', hmember', hmoved'⟩ := h'.memberships _ _ hmember
  obtain rfl := Option.some_injective _ (hmember'.symm.trans h₃.2)
  obtain ⟨hactive, hepoch⟩ := hmoved.between hmoved' rfl
  have hprincipal : member.principal = row.binding.account := Table.key_of_find? hmember
  refine ⟨haccount, hmember.trans ?_⟩
  obtain ⟨principal, active, epoch⟩ := member
  simp only at hactive hepoch hprincipal
  rw [hactive, hepoch, hprincipal]

/-- What holds of a login that committed against the challenge an earlier event recorded. -/
structure ChallengeMet (f : Event (System env) (Label env))
    (between : List (Event (System env) (Label env))) (e : Event (System env) (Label env))
    (nonce : Secret) (browser : String) (context : PlatformChallengeContext)
    (evidence : PlatformEvidence) (login : PlatformLogin) (row : PlatformChallengeRow) : Prop where
  /-- The nonce and the browser are those of the begin, and the context is what it recorded. -/
  begun : ∃ binding challenge,
    f.label = .commit (.beginPlatformLogin binding row.purpose browser challenge) ∧
      row.BegunAs env binding row.purpose browser challenge f.before.world f.after.world ∧
      nonce = challenge.nonce ∧ context = challenge.payload
  /-- What was recorded was compared again, at the audience and the target configured then. -/
  settled : PlatformSettled env row.challenge nonce browser context evidence login row
    e.before.world e.after.world
  /-- The account was active at the recorded epochs all the time since the begin. -/
  account : ∀ g ∈ between ++ [e], row.AccountCurrent g.before.world.state
  /-- The challenge was not over, at any instant of the transaction. -/
  live : ∀ t, e.before.world.clock ≤ t → t ≤ e.after.world.clock →
    row.createdAt ≤ seconds t ∧ seconds t < row.expiresAt
  /-- A claimed time of authentication is recent, and comes with user verification. -/
  authenticated : ∀ t ∈ evidence.authenticatedAt,
    row.createdAt - 30 ≤ t ∧ t ≤ login.session.now ∧ evidence.userVerification = true

/-- What holds of the platform challenges of a run. -/
structure ChallengesFenced (trace : List (Event (System env) (Label env))) : Prop where
  /-- At most one call commits for a challenge. -/
  once : trace.Pairwise fun e f => ∀ id, SettlesChallenge e id → ¬ SettlesChallenge f id
  /-- A call that commits meets all that was recorded when its challenge was begun. -/
  met : ∀ earlier e later, trace = earlier ++ e :: later →
    ∀ id nonce browser context evidence login,
      e.label = .commit (.completePlatformLogin id nonce browser context evidence login) →
      ∃ before f between row, earlier = before ++ f :: between ∧ row.challenge = id ∧
        ChallengeMet f between e nonce browser context evidence login row

/-- Evidence that claims a time of authentication comes with user verification. -/
theorem PlatformEvidence.verified {evidence : PlatformEvidence} (h : evidence.accepted = true)
    {t : ℤ} (ht : t ∈ evidence.authenticatedAt) : evidence.userVerification = true := by
  simp only [PlatformEvidence.accepted, Option.mem_def.mp ht, Bool.and_eq_true, Option.isNone_some,
    Bool.false_or] at h
  exact h.2

/-- Half a minute before a recorded time is no saturated time. -/
theorem saturatingSub_recorded (h : Keyed.Check row) : row.createdAt - 30 ≤ saturatingSub row.createdAt 30 := by
  obtain ⟨hpos, hlt, -, -, hi64⟩ := h
  simp only [isI64, decide_eq_true_eq] at hi64
  simp only [saturatingSub]
  omega

/-- A call that commits meets the challenge that was begun. -/
theorem challengeMet_of_settled {between : List (Event (System env) (Label env))}
    {f e : Event (System env) (Label env)} {id : Uuid} {nonce : Secret} {browser : String}
    {context : PlatformChallengeContext} {evidence : PlatformEvidence} {login : PlatformLogin}
    (hbegins : Begins f row) (hrun : Run (Step env) f.after between e.before)
    (hstep : Step env e.before e.label e.after) (hcontext : context = row.shown nonce)
    (hsettled : PlatformSettled env id nonce browser context evidence login row e.before.world
      e.after.world) : ChallengeMet f between e nonce browser context evidence login row := by
  obtain ⟨binding, purpose, browser', challenge, hlabel, hbegun⟩ := hbegins
  obtain rfl := hbegun.served
  have hnonce : nonce = challenge.nonce :=
    env.sha256.secret_injective (hsettled.nonce.symm.trans hbegun.nonce)
  have hbrowser : browser = browser' :=
    env.sha256.text_injective (hsettled.browser.symm.trans hbegun.browser)
  have hid : row.challenge = id := Table.key_of_find? hsettled.found
  subst hnonce hbrowser hid
  refine ⟨⟨binding, challenge, hlabel, hbegun, rfl, ?_⟩, hsettled, ?_, ?_, ?_⟩
  · rw [hcontext, hbegun.payload]
    rfl
  · intro g hg
    rcases List.mem_append.mp hg with hg | hg
    · obtain ⟨first, rest, rfl⟩ := List.append_of_mem hg
      obtain ⟨hfirst, hg, hrest⟩ := Run.split hrun
      exact hbegun.account.between hsettled.account (follows_of_run hfirst)
        (hg.follows.trans (follows_of_run hrest))
    · obtain rfl := List.mem_singleton.mp hg
      exact hsettled.account
  · intro t hlo hhi
    have hfollows := follows_of_run hrun
    have hcreated := hbegun.createdAt.trans (seconds_mono (hfollows.advances.clock.trans hlo))
    have hover := seconds_mono hhi
    have hunexpired := hsettled.unexpired
    exact ⟨hcreated, by omega⟩
  · intro t ht
    obtain ⟨hrecent, hpast⟩ := hsettled.authenticated t ht
    have hrecorded := saturatingSub_recorded (Table.check_of_mem (Table.mem_of_find? hsettled.found))
    have hcreated : context.createdAt = row.createdAt := by rw [hcontext]; rfl
    rw [hcreated] at hrecent
    exact ⟨hrecorded.trans hrecent, hpast, PlatformEvidence.verified hsettled.accepted ht⟩

/-- Platform challenges are one-use and fenced: in every run, whatever calls interleave. -/
theorem challenges_fenced (hstart : s₀.Provisioned) (hrun : Run (Step env) s₀ trace s) :
    ChallengesFenced trace := by
  refine ⟨(challengeHistory_of_run hstart hrun).once, ?_⟩
  intro earlier e later htrace id nonce browser context evidence login hlabel
  obtain ⟨hearlier, hstep, -⟩ := Run.split (htrace ▸ hrun)
  have hhistory := challengeHistory_of_run hstart hearlier
  obtain ⟨hheld, row, hsettled⟩ := hstep.completes hlabel
  obtain ⟨f, hf, hbegins⟩ := hhistory.stored row (Table.mem_of_find? hsettled.found)
  obtain ⟨g, hg, shown, hshown, hid, hcontext⟩ := hhistory.held _ _ _ _ hheld
  have hkey : row.challenge = id := Table.key_of_find? hsettled.found
  obtain rfl := hhistory.single g hg f hf shown row hshown hbegins (hid.trans hkey.symm)
  obtain ⟨before, between, hsplit⟩ := List.append_of_mem hf
  obtain ⟨-, -, hbetween⟩ := Run.split (hsplit ▸ hearlier)
  exact ⟨before, f, between, shown, hsplit, hid,
    challengeMet_of_settled hbegins hbetween hstep hcontext hsettled⟩

/-- The first account of a tenant signs in by its device. -/
def deviceLogin (env : Env) (key : AccountKey) (login hash : String) (binding : Uuid)
    (purpose : PlatformPurpose) (browser : String) (evidence : PlatformEvidence) :
    Action PlatformLogin := do
  let _ ← initializeTenant key login hash
  let challenge ← beginPlatformLogin env binding purpose browser
  let context ← showChallenge env challenge.id challenge.nonce browser
  completePlatformLogin env challenge.id challenge.nonce browser context evidence

theorem run_deviceLogin {key : AccountKey} {loginKey hash : String} {binding : Uuid}
    {purpose : PlatformPurpose} {browser : String} {evidence : PlatformEvidence} {w w' : Tenant}
    {login : PlatformLogin}
    (h : (deviceLogin env key loginKey hash binding purpose browser evidence).run w =
      .ok (login, w')) :
    ∃ trace held, Run (Step env) ⟨w, []⟩ trace ⟨w', held⟩ ∧ ∃ e ∈ trace, ∃ id,
      SettlesChallenge e id := by
  simp only [deviceLogin, Tx.run_bind] at h
  obtain ⟨_, _, hinitialize, challenge, _, hbegin, context, _, hshow, hcomplete⟩ := h
  have hrun : Run (Step env) ⟨w, []⟩ [] ⟨w, []⟩ := .start
  have hrun := commit_step (.initializeTenant key loginKey hash _) hrun trivial hinitialize
  have hrun := commit_step (.beginPlatformLogin binding purpose browser challenge) hrun trivial hbegin
  have hrun := commit_step (.showChallenge challenge.id challenge.nonce browser context) hrun trivial
    hshow
  have hrun := commit_step
    (.completePlatformLogin challenge.id challenge.nonce browser context evidence login) hrun
    (by simp [Commit.gives, Commit.Admissible]) hcomplete
  exact ⟨_, _, hrun, _, List.mem_append_right _ (List.mem_singleton.mpr rfl), challenge.id,
    challenge.nonce, browser, context, evidence, login, rfl⟩

/-- A host with one device and one relying party. -/
def Env.hosted : Env := { Env.transparent with
  platform := some
    { audience := fun _ => "host"
      challengeSeconds := fun _ => 60
      resolve := fun id _ => some
        { instanceId := Uuid.newV4 0
          account := ⟨Uuid.newV4 0⟩
          bindingId := id
          bindingEpoch := 1
          sourceId := Uuid.newV4 1
          sourceVersion := 1
          externalIdentity := none }
      recheck := fun _ _ => true
      authorizePurpose := fun _ _ _ => true }
  enterprise := fun _ => some
    { targets := [⟨"mail", "https://issuer", "https://token", "client", ["openid"]⟩]
      sign := fun claims => some claims.rp
      size := by decide
      ids := by decide
      issuers := by decide } }

/-- What the device proves. -/
def deviceEvidence : PlatformEvidence where
  keyPossession := true
  hardwareKey := true
  userPresence := true
  userVerification := true
  authenticatedAt := some 100
  profile := .unavailable

/-- The login by a device, for a relying party. -/
@[irreducible] def deviceSignedIn : Except Failure (PlatformLogin × Tenant) :=
  (deviceLogin .hosted ⟨Uuid.newV4 0⟩ "ada" "hash" (Uuid.newV4 2) (.enterpriseRp "mail")
    "0123456789012345678901234567890123456789012" deviceEvidence).run newTenant

/-- The challenges of the run with a login by a device are fenced; one was settled in it, and an
assertion issued. -/
theorem device_fenced :
    deviceSignedIn.toOption.any (fun (login, _) => login.assertion.isSome) = true ∧
      ∃ trace, @ChallengesFenced .hosted trace ∧ ∃ e ∈ trace, ∃ id,
        SettlesChallenge e id := by
  have hasserted :
      deviceSignedIn.toOption.any (fun (login, _) => login.assertion.isSome) = true := by
    decide +kernel
  refine ⟨hasserted, ?_⟩
  obtain ⟨⟨login, w⟩, hsome, -⟩ := (Option.any_eq_true _ _).mp hasserted
  have hrun := eq_ok_of_toOption hsome
  unfold deviceSignedIn at hrun
  obtain ⟨trace, held, hrun, hsettles⟩ := run_deviceLogin hrun
  exact ⟨trace, challenges_fenced ⟨rfl, rfl⟩ hrun, hsettles⟩

end Histories

end IdentityAuthority
